import ChipEight.Machine

/-!
The state of the machine as text, for the user to read after a fault.
-/

namespace ChipEight.Machine

/-- The spelling of a flag. -/
def flagText (flag : Bool) : String := if flag then "True" else "False"

/-- Four lines: registers, stack, timers and flags. -/
def dump (m : Machine) : String :=
  "PC_REGISTER:0x" ++ Hex.padded 4 m.pc ++ " | IDX_REGISTER:0x" ++ Hex.padded 4 m.index ++
  " | VARIABLE_REGISTERS:" ++ m.registers.describe ++
  "\nSTACK:" ++ m.stack.describe ++
  "\nDELAY_TIMER:" ++ toString m.timers.delay ++ " | SOUND_TIMER:" ++ toString m.timers.sound ++
  "\nDRAW:" ++ flagText m.drew ++ " | BLOCKED:" ++ flagText m.waiting ++
  " | BUZZER:" ++ flagText m.buzzer

end ChipEight.Machine
