import ChipEight.Proofs.Bounds

/-!
An instruction at work, wherever it comes from. It is asked for by itself, or a cycle gets to it; in
a cycle it finds the timers up to date, an awaited key taken and the program counter behind it, and
the buzzer is set after it. `CarriedOut` relates the machine that an instruction finds to the one
that is there afterwards, so that what is proved of it holds either way.
-/

namespace ChipEight.Machine

/-- The second machine is what an instruction has made of the first. -/
inductive CarriedOut (i : Instruction) : Machine → Machine → Prop
  /-- The instruction was asked for by itself. -/
  | alone {m : Machine} (h : m.Reachable) (tracing : Bool) (env : Surroundings) :
      CarriedOut i m (m.perform tracing env i).machine
  /-- A cycle got to the instruction. -/
  | inCycle {m : Machine} (h : m.Reachable) (tracing : Bool) (env : Surroundings)
      (hi : m.performed env = some i) :
      CarriedOut i ((m.ticked env.now).poised env.keys) (m.cycle tracing env).machine

namespace CarriedOut

variable {i : Instruction} {m m' : Machine}

/-- What an instruction finds is inside the bounds. -/
theorem inBounds (h : m.CarriedOut i m') : m.InBounds := by
  cases h with
  | alone hm => exact hm.inBounds
  | inCycle hm tracing env hi => exact (hm.inBounds.ticked env.now).poised env.keys

/-- An instruction that does the same whatever it is told has done that, up to the buzzer. -/
theorem eq_of_execute (h : m.CarriedOut i m') {n : Machine}
    (hexec : ∀ keys random, m.execute keys random i = .ok n) :
    ∃ b, m' = { n with buzzer := b } := by
  cases h with
  | alone hm tracing env =>
    rw [perform, hexec]
    exact ⟨n.buzzer, rfl⟩
  | inCycle hm tracing env hi =>
    obtain ⟨b, hcycle⟩ := cycle_of_performed hi tracing
    rw [hcycle, perform, hexec]
    exact ⟨b, rfl⟩

theorem v_of_execute (h : m.CarriedOut i m') {n : Machine}
    (hexec : ∀ keys random, m.execute keys random i = .ok n) (r : Fin 16) : m'.v r = n.v r := by
  obtain ⟨b, rfl⟩ := h.eq_of_execute hexec
  rfl

end CarriedOut

end ChipEight.Machine
