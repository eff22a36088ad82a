import ChipEight.Fault
import ChipEight.Value

/-!
Faults reported from outside the machine, with values of any kind for their details. There must be
as many values as the kind of fault has details, and an opcode must be an integer, so that it has
digits in base sixteen. `report_values` says that a fault reported with its own details is worded
like the fault itself.
-/

namespace ChipEight

namespace FaultKind

/-- The name of a kind of fault. -/
def title : FaultKind → String
  | unknownOpcode => "UnknownOpcode"
  | stackOverflow => "StackOverflow"
  | stackUnderflow => "StackUnderflow"
  | programTooLarge => "ProgramTooLarge"
  | reported => "Chip8Error"

/-- The details that have to be known about a fault. -/
def details : FaultKind → List String
  | unknownOpcode => ["opcode"]
  | stackOverflow => ["depth"]
  | programTooLarge => ["size", "limit"]
  | stackUnderflow | reported => []

end FaultKind

/-- Why a fault could not be reported. -/
inductive ReportError where
  | missing (kind : FaultKind) (given : Nat)
  | superfluous (kind : FaultKind) (given : Nat)
  /-- The opcode is no integer. -/
  | noDigits (kind : ValueKind)
  deriving DecidableEq, Repr

namespace ReportError

/-- A number of arguments, in words. -/
def counted (n : Nat) (adjective : String) : String :=
  toString n ++ adjective ++ (if n = 1 then " argument" else " arguments")

/-- The wording of a report error; the fault itself counts as an argument that is always given. -/
def message : ReportError → String
  | missing kind given =>
      let names := (kind.details.drop given).map fun name => "'" ++ name ++ "'"
      kind.title ++ ".__init__() missing " ++ counted names.length " required positional" ++
        ": " ++ " and ".intercalate names
  | superfluous kind given =>
      kind.title ++ ".__init__() takes " ++ counted (kind.details.length + 1) " positional" ++
        " but " ++ toString (given + 1) ++ " were given"
  | noDigits kind =>
      if kind = .text ∨ kind = .real then
        "Unknown format code 'x' for object of type '" ++ kind.label ++ "'"
      else "unsupported format string passed to " ++ kind.label ++ ".__format__"

end ReportError

/-- The line for a fault of a kind with values for its details. -/
def FaultKind.report : FaultKind → List Value → Except ReportError String
  | .reported, values => .ok (Value.row values)
  | .unknownOpcode, [opcode] =>
      (opcode.toInt.mapError .noDigits).map fun v => Fault.opcodeText (Hex.padded 4 v)
  | .stackOverflow, [depth] => .ok (Fault.overflowText depth.shown)
  | .stackUnderflow, [] => .ok Fault.underflowText
  | .programTooLarge, [size, limit] => .ok (Fault.tooLargeText size.shown limit.shown)
  | kind, values =>
      if values.length < kind.details.length then .error (.missing kind values.length)
      else .error (.superfluous kind values.length)

/-- The values of the details of a fault. -/
def Fault.values : Fault → List Value
  | unknownOpcode opcode => [.integer opcode]
  | stackOverflow depth => [.integer depth]
  | stackUnderflow => []
  | programTooLarge size limit => [.integer size, .integer limit]
  | reported text => [.text text]

theorem Fault.report_values (f : Fault) : f.kind.report f.values = .ok f.message := by
  cases f <;> rfl

end ChipEight
