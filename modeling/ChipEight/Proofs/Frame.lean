import ChipEight.Proofs.Cycle
import ChipEight.Proofs.Parts

/-!
What a cycle leaves alone. No instruction changes the program that is remembered; one that changes
the screen says that it has drawn; and the stack changes by one address at its upper end, if at all.
`Kept` says so of an instruction, by cases once for all of them, and `CycleKept` of a whole cycle.
-/

namespace ChipEight.Machine

/-- What stays as it is between a machine and the one that an instruction leaves. -/
structure Kept (m m' : Machine) : Prop where
  program : m'.program = m.program
  screen : m'.drew = true ∨ m'.screen = m.screen
  addresses : m'.stack.addresses = m.stack.addresses ∨
    (∃ a, m'.stack.addresses = m.stack.addresses ++ [a]) ∨
    ∃ a, m.stack.addresses = m'.stack.addresses ++ [a]

theorem execute_kept {m m' : Machine} {keys : Keys} {random : Nat → Int} {i : Instruction}
    (h : m.execute keys random i = .ok m') : m.Kept m' := by
  unfold execute at h
  cases hop : i.operation <;> simp only [hop] at h
  case call =>
    rcases hpush : m.stack.push m.pc with f | stack
    · rw [hpush] at h; cases h
    · rw [hpush] at h
      cases h
      exact ⟨rfl, .inr rfl, .inr (.inl ⟨m.pc, (Stack.addresses_push hpush).1⟩)⟩
  case ret =>
    rcases hpop : m.stack.pop with f | ⟨address, stack⟩
    · rw [hpop] at h; cases h
    · rw [hpop] at h
      cases h
      exact ⟨rfl, .inr rfl, .inr (.inr ⟨address, (Stack.addresses_pop hpop).1⟩)⟩
  case skipEqByte | skipNeByte | skipEqReg | skipNeReg | skipPressed | skipReleased =>
    cases h
    unfold skipIf
    split <;> exact ⟨rfl, .inr rfl, .inl rfl⟩
  case clear | draw =>
    cases h
    exact ⟨rfl, .inl rfl, .inl rfl⟩
  all_goals
    cases h
    exact ⟨rfl, .inr rfl, .inl rfl⟩

/-- What stays as it is in a cycle. The screen can only change if the cycle completes. -/
structure CycleKept (m : Machine) (o : Outcome) : Prop where
  program : o.machine.program = m.program
  screen : (o.failure = none ∧ o.machine.drew = true) ∨ o.machine.screen = m.screen
  addresses : o.machine.stack.addresses = m.stack.addresses ∨
    (∃ a, o.machine.stack.addresses = m.stack.addresses ++ [a]) ∨
    ∃ a, m.stack.addresses = o.machine.stack.addresses ++ [a]

theorem cycle_kept (m : Machine) (tracing : Bool) (env : Surroundings) :
    m.CycleKept (m.cycle tracing env) := by
  have hran := m.cycle_ran tracing env
  generalize m.cycle tracing env = o at hran
  have hprogram : ((m.ticked env.now).poised env.keys).program = m.program := poised_program _ _
  have hscreen : ((m.ticked env.now).poised env.keys).screen = m.screen := poised_screen _ _
  have hstack : ((m.ticked env.now).poised env.keys).stack = m.stack := poised_stack _ _
  cases hran with
  | clock => exact ⟨rfl, .inr rfl, .inl rfl⟩
  | idle => exact ⟨rfl, .inr rfl, .inl rfl⟩
  | unknown => exact ⟨rfl, .inr rfl, .inl rfl⟩
  | faults => exact ⟨hprogram, .inr hscreen, .inl (congrArg Stack.addresses hstack)⟩
  | completes _ _ _ i _ m' hexec =>
    have hkept := execute_kept hexec
    refine ⟨hkept.program.trans hprogram, ?_, hstack ▸ hkept.addresses⟩
    exact hkept.screen.imp (fun hdrew => ⟨rfl, hdrew⟩) (fun hsame => hsame.trans hscreen)

end ChipEight.Machine
