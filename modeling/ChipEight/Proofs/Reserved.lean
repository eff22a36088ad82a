import ChipEight.Proofs.Faults

/-!
What is reserved to single instructions. Each timer has one instruction that sets it, and the wait
for a key has one that begins it; no other instruction touches these parts of the machine.
`Reserved` says so; it holds of every instruction, completed or refused, and so of every cycle that
gets to one (`cycle_reserved`).
-/

namespace ChipEight

/-- The operation that sets a timer. -/
def Timer.setter : Timer → Operation
  | .delay => .setDelay
  | .sound => .setSound

namespace Machine

/-- What an instruction leaves of the timers and of the wait for a key. -/
structure Reserved (m : Machine) (i : Instruction) (m' : Machine) : Prop where
  clock : m'.timers = { m.timers with delay := m'.timers.delay, sound := m'.timers.sound }
  timer : ∀ c : Timer,
    m'.timers.value c = if i.operation = c.setter then m.v i.x else m.timers.value c
  waiting : m'.waiting = if i.operation = .waitKey then true else m.waiting
  keyRegister : m'.keyRegister = if i.operation = .waitKey then i.x else m.keyRegister

theorem execute_reserved {m m' : Machine} {keys : Keys} {random : Nat → Int} {i : Instruction}
    (h : m.execute keys random i = .ok m') : m.Reserved i m' := by
  obtain ⟨operation, opcode⟩ := i
  unfold execute at h
  cases operation <;> dsimp only at h
  case call =>
    rcases hpush : m.stack.push m.pc with f | stack
    · rw [hpush] at h; cases h
    · rw [hpush] at h
      cases h
      exact ⟨rfl, fun c => by cases c <;> rfl, rfl, rfl⟩
  case ret =>
    rcases hpop : m.stack.pop with f | ⟨address, stack⟩
    · rw [hpop] at h; cases h
    · rw [hpop] at h
      cases h
      exact ⟨rfl, fun c => by cases c <;> rfl, rfl, rfl⟩
  case skipEqByte | skipNeByte | skipEqReg | skipNeReg | skipPressed | skipReleased =>
    cases h
    unfold skipIf
    split <;> exact ⟨rfl, fun c => by cases c <;> rfl, rfl, rfl⟩
  all_goals
    cases h
    exact ⟨rfl, fun c => by cases c <;> rfl, rfl, rfl⟩

/-- An instruction that is refused at the stack has none of these parts to itself. -/
theorem perform_reserved (m : Machine) (tracing : Bool) (env : Surroundings) (i : Instruction) :
    m.Reserved i (m.perform tracing env i).machine := by
  rw [perform]
  rcases hexec : m.execute env.keys env.random i with f | m'
  · have hstack : i.operation = .call ∨ i.operation = .ret :=
      (execute_error_iff.mp hexec).imp And.left And.left
    obtain ⟨operation, opcode⟩ := i
    rcases hstack with rfl | rfl <;> exact ⟨rfl, fun c => by cases c <;> rfl, rfl, rfl⟩
  · exact execute_reserved hexec

/-- What a cycle leaves of these parts is what its instruction leaves of them. -/
theorem cycle_reserved {m : Machine} {env : Surroundings} {i : Instruction}
    (h : m.performed env = some i) (tracing : Bool) :
    ((m.ticked env.now).poised env.keys).Reserved i (m.cycle tracing env).machine := by
  obtain ⟨b, hcycle⟩ := cycle_of_performed h tracing
  have hdone := perform_reserved ((m.ticked env.now).poised env.keys) tracing env i
  rw [hcycle]
  exact ⟨hdone.clock, hdone.timer, hdone.waiting, hdone.keyRegister⟩

end Machine

end ChipEight
