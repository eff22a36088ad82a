import ChipEight.Clock.Double
import ChipEight.Framebuffer
import ChipEight.Memory
import ChipEight.Registers
import ChipEight.Stack
import ChipEight.Timers

/-!
The state of the machine. A machine is switched on empty; it can take a program, which it remembers,
and a reset puts everything back to the beginning and loads the remembered program again.
-/

namespace ChipEight

/-- Everything the machine holds. -/
structure Machine where
  memory : Memory
  stack : Stack
  registers : Registers
  /-- The address of the next instruction. -/
  pc : Int
  /-- The index register I. -/
  index : Int
  timers : Timers Float Rate
  screen : Framebuffer
  /-- Set while the machine stands still until a key is pressed. -/
  waiting : Bool
  /-- The register that receives the awaited key. -/
  keyRegister : Fin 16
  buzzer : Bool
  /-- Set by the instructions that draw, for the current cycle. -/
  drew : Bool
  program : Option (List Byte)
  /-- How many random numbers have been used so far. -/
  randoms : Nat

namespace Machine

/-- The machine as it is switched on, the clock just read. -/
def start (now : Float) : Machine where
  memory := Memory.initial
  stack := Stack.empty Stack.machineDepth
  registers := Registers.zero
  pc := Memory.programStart
  index := 0
  timers := Timers.start (.whole Timers.machineRate) now
  screen := Framebuffer.screen
  waiting := false
  keyRegister := Registers.firstNumber
  buzzer := false
  drew := false
  program := none
  randoms := 0

/-- Takes a program into memory and remembers it. A program that does not fit changes nothing. -/
def load (m : Machine) (program : List Byte) : Except Fault Machine := do
  let memory ← m.memory.load program Memory.programStart
  return { m with memory := memory, program := some program }

/-- Every part put back to its beginning, but for the program and the place in the sequence of
random numbers. -/
def cleared (m : Machine) (now : Float) : Machine :=
  { m with
    memory := Memory.initial
    stack := Stack.empty Stack.machineDepth
    registers := Registers.zero
    pc := Memory.programStart
    index := 0
    timers := Timers.start (.whole Timers.machineRate) now
    screen := Framebuffer.screen
    waiting := false
    keyRegister := Registers.firstNumber
    buzzer := false
    drew := false }

/-- Starts over: clears everything and then loads the program again. Gives the machine that this
leaves, and the fault if the program does not fit. -/
def restart (m : Machine) (now : Float) : Machine × Option Fault :=
  let clear := m.cleared now
  match m.program with
  | none => (clear, none)
  | some program =>
      match clear.memory.load program Memory.programStart with
      | .ok memory => ({ clear with memory := memory }, none)
      | .error fault => (clear, some fault)

/-- The machine that starting over leaves. -/
def reset (m : Machine) (now : Float) : Machine := (m.restart now).1

/-- The two bytes at the program counter, high byte first. -/
def fetch (m : Machine) : Int :=
  (m.memory.read m.pc).toInt * 256 + (m.memory.read (m.pc + 1)).toInt

/-- The value of a register. -/
def v (m : Machine) (x : Fin 16) : Int := m.registers.read x

end Machine

end ChipEight
