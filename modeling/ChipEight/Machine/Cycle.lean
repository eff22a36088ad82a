import ChipEight.Instruction.Assembly
import ChipEight.Machine.Execute

/-!
One cycle of the machine: bring the timers up to date, then, unless a key is still awaited, fetch an
opcode, decode it and carry it out. An opcode that is no instruction stops the cycle before an
awaited key is taken and before the program counter moves. Whatever happens, the state that was
reached is part of the outcome.
-/

namespace ChipEight

/-- Why an operation of the machine did not complete. -/
inductive Failure where
  | fault (fault : Fault)
  /-- The clock gave a reading the timers cannot count with. -/
  | clock (fault : ClockFault)
  deriving DecidableEq, Repr

/-- The wording of a failure. -/
def Failure.message : Failure → String
  | fault f => f.message
  | clock f => f.message

/-- What the machine is told from outside during a cycle. -/
structure Surroundings where
  /-- The reading of the clock. -/
  now : Float
  keys : Keys
  /-- The sequence of random numbers, from the first one used on. -/
  random : Nat → Int

/-- The state reached, the lines printed on the way, and why it ended early if it did. -/
structure Outcome where
  machine : Machine
  printed : List String
  failure : Option Failure

namespace Machine

/-- The line that announces an instruction, with the address it was fetched from. -/
def traceLine (m : Machine) (i : Instruction) : String :=
  "mem_addr: 0x" ++ Hex.padded 4 (m.pc - 2) ++ "    instruction: " ++ i.assembly

/-- Carries out an instruction, announcing it first when tracing is on. -/
def perform (m : Machine) (tracing : Bool) (env : Surroundings) (i : Instruction) : Outcome :=
  let printed := if tracing then [m.traceLine i] else []
  match m.execute env.keys env.random i with
  | .ok m' => ⟨m', printed, none⟩
  | .error fault => ⟨m, printed, some (.fault fault)⟩

/-- Takes the awaited key, if there is one, and stops waiting. -/
def resume (m : Machine) : Option Int → Machine
  | some key => { m.assign m.keyRegister (key % 16) with waiting := false }
  | none => m

/-- The key a waiting machine finds pressed. -/
def awaitedKey (m : Machine) (keys : Keys) : Option Int :=
  if m.waiting then keys.first else none

/-- Lets the buzzer sound while the sound timer runs. -/
def gateBuzzer (m : Machine) : Machine := { m with buzzer := 0 < m.timers.sound }

/-- The part of a cycle after the timers. -/
def step (m : Machine) (tracing : Bool) (env : Surroundings) : Outcome :=
  let key := m.awaitedKey env.keys
  if m.waiting && key.isNone then
    ⟨m.gateBuzzer, [], none⟩
  else
    match Instruction.ofOpcode m.fetch with
    | .error fault => ⟨m, [], some (.fault fault)⟩
    | .ok i =>
        let done := (m.resume key).advance.perform tracing env i
        match done.failure with
        | some _ => done
        | none => { done with machine := done.machine.gateBuzzer }

/-- One cycle. -/
def cycle (m : Machine) (tracing : Bool) (env : Surroundings) : Outcome :=
  match m.timers.update env.now with
  | (timers, .error fault) => ⟨{ m with drew := false, timers := timers }, [], some (.clock fault)⟩
  | (timers, .ok _) => { m with drew := false, timers := timers }.step tracing env

end Machine

end ChipEight
