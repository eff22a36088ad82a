/-!
What the machine can learn about its keypad: which key was pressed first, and whether a given key
is held. Any answers are allowed; they need not fit together.
-/

namespace ChipEight

/-- The answers a keypad gives at one moment. -/
structure Keys where
  first : Option Int
  held : Int → Bool

namespace Keys

/-- A keypad nobody touches. -/
def released : Keys := ⟨none, fun _ => false⟩

/-- A keypad on which these keys are held, the earliest first. -/
def ofList (keys : List Int) : Keys := ⟨keys.head?, fun k => keys.contains k⟩

end Keys

end ChipEight
