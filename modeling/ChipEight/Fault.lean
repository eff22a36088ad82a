import ChipEight.Text.Hexadecimal

/-!
What stops the machine: an opcode that is no instruction, a stack that is full or empty, a program
that does not fit. A fault carries what is needed to report it, and `Fault.message` is how it is
reported.
-/

namespace ChipEight

/-- The kinds of fault. -/
inductive FaultKind where
  | unknownOpcode | stackOverflow | stackUnderflow | programTooLarge | reported
  deriving DecidableEq, Repr

/-- The faults a host can catch in order to stop. -/
inductive Fault where
  | unknownOpcode (opcode : Int)
  | stackOverflow (depth : Int)
  | stackUnderflow
  | programTooLarge (size limit : Int)
  /-- A fault described by its reporter alone. -/
  | reported (text : String)
  deriving DecidableEq, Repr

namespace Fault

/-- The kind of a fault. -/
def kind : Fault → FaultKind
  | unknownOpcode _ => .unknownOpcode
  | stackOverflow _ => .stackOverflow
  | stackUnderflow => .stackUnderflow
  | programTooLarge _ _ => .programTooLarge
  | reported _ => .reported

/-- The words for an opcode, given its digits. -/
def opcodeText (digits : String) : String := "Unknown opcode 0x" ++ digits

/-- The words for a full stack, given its depth. -/
def overflowText (depth : String) : String :=
  "The CHIP-8 stack can contain at most " ++ depth ++ " addresses. Limit exceeded"

/-- The words for an empty stack. -/
def underflowText : String := "Tried to return from a subroutine with an empty stack"

/-- The words for a program, given its size and the largest one. -/
def tooLargeText (size limit : String) : String :=
  "ROM too large: " ++ size ++ " bytes, max " ++ limit

/-- The line shown to the user. -/
def message : Fault → String
  | unknownOpcode opcode => opcodeText (Hex.padded 4 opcode)
  | stackOverflow depth => overflowText (toString depth)
  | stackUnderflow => underflowText
  | programTooLarge size limit => tooLargeText (toString size) (toString limit)
  | reported text => text

end Fault

end ChipEight
