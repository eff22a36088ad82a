import ChipEight.Text.Integer

/-!
The setting that turns the trace on: the text of a number, at least one for on. Without a text the
trace is off.
-/

namespace ChipEight.Settings

/-- Whether the trace is on. -/
def tracing : Option String → Except IntegerError Bool
  | none => .ok false
  | some text => (IntegerText.read text).map fun level => decide (1 ≤ level)

end ChipEight.Settings
