import Mathlib.Data.List.Forall2
import ChipEight.Proofs.Decay

/-!
The clock reaches a program through one instruction alone, the one that reads the delay timer. Until a
program gets to it, two runs that hear the same keys and the same random numbers do the same, whatever
their clocks say: `Timeless` relates machines that differ in nothing but their timers and the buzzer,
every other instruction keeps the relation, hence so do cycles and runs (`outcomes_timeless`).
-/

namespace ChipEight

/-- Two machines are told the same in a cycle, but for the clock. -/
structure Surroundings.Agree (env env' : Surroundings) : Prop where
  keys : env.keys = env'.keys
  random : env.random = env'.random

namespace Machine

/-- The machines differ at most in their timers and in the buzzer that follows them. -/
inductive Timeless (m : Machine) : Machine → Prop
  | mk (timers : Timers Float Rate) (buzzer : Bool) :
      Timeless m { m with timers := timers, buzzer := buzzer }

namespace Timeless

variable {m m' : Machine}

theorem gateBuzzer (h : m.Timeless m') : m.gateBuzzer.Timeless m'.gateBuzzer := by
  obtain ⟨timers, buzzer⟩ := h
  exact .mk _ _

theorem ticked (h : m.Timeless m') (now now' : Float) : (m.ticked now).Timeless (m'.ticked now') := by
  obtain ⟨timers, buzzer⟩ := h
  exact .mk _ _

theorem poised (h : m.Timeless m') (keys : Keys) : (m.poised keys).Timeless (m'.poised keys) := by
  obtain ⟨timers, buzzer⟩ := h
  unfold Machine.poised
  change Timeless _ (resume _ (m.awaitedKey keys)).advance
  rcases m.awaitedKey keys with _ | key <;> exact .mk _ _

theorem skipIf (h : m.Timeless m') (condition : Bool) :
    (m.skipIf condition).Timeless (m'.skipIf condition) := by
  obtain ⟨timers, buzzer⟩ := h
  cases condition <;> exact .mk _ _

/-- An instruction ends alike on both machines, unless it reads the delay timer. -/
theorem execute (h : m.Timeless m') (keys : Keys) (random : Nat → Int) {i : Instruction}
    (hread : i.operation ≠ .readDelay) :
    Matched Timeless (m.execute keys random i) (m'.execute keys random i) := by
  have hskip := h.skipIf
  obtain ⟨timers, buzzer⟩ := h
  unfold Machine.execute
  cases hop : i.operation
  case readDelay => exact absurd hop hread
  case ret =>
    dsimp only
    rcases m.stack.pop with f | ⟨address, stack⟩
    · exact .faults f
    · exact .completes (.mk _ _)
  case call =>
    dsimp only
    rcases m.stack.push m.pc with f | stack
    · exact .faults f
    · exact .completes (.mk _ _)
  case skipEqByte | skipNeByte | skipEqReg | skipNeReg | skipPressed | skipReleased =>
    exact .completes (hskip _)
  all_goals exact .completes (.mk _ _)

/-- A cycle ends alike on both machines, unless it reads the delay timer. -/
theorem cycle (h : m.Timeless m') {env env' : Surroundings} (hagree : env.Agree env')
    (hclock : ∃ k, (m.timers.update env.now).2 = .ok k)
    (hclock' : ∃ k, (m'.timers.update env'.now).2 = .ok k)
    (hread : ∀ i, m.performed env = some i → i.operation ≠ .readDelay) (tracing : Bool) :
    (m.cycle tracing env).failure = (m'.cycle tracing env').failure ∧
      (m.cycle tracing env).machine.Timeless (m'.cycle tracing env').machine := by
  obtain ⟨k, hk⟩ := hclock
  obtain ⟨k', hk'⟩ := hclock'
  have hticked := h.ticked env.now env'.now
  have hpoised := hticked.poised env.keys
  refine cycle_matched ?_ ?_ ?_ hticked (hagree.keys ▸ hpoised) ?_ fun _ _ hn => hn.gateBuzzer
  · rw [hk, hk']
    exact fun f => ⟨nofun, nofun⟩
  · obtain ⟨-, -⟩ := h
    rw [hagree.keys]
    exact Iff.rfl
  · obtain ⟨-, -⟩ := h
    rfl
  · intro i hi
    rw [← hagree.keys, ← hagree.random]
    exact hpoised.execute env.keys env.random (hread i hi)

/-- Cycles in a row end alike on both machines, one by one, if none of them reads the delay timer. -/
theorem outcomes (h : m.Timeless m') {tracing : Bool} {envs envs' : List Surroundings}
    (hagree : List.Forall₂ Surroundings.Agree envs envs')
    (hclock : ∀ found ∈ m.ticksFound tracing envs, found.isOk = true)
    (hclock' : ∀ found ∈ m'.ticksFound tracing envs', found.isOk = true)
    (hread : ∀ i ∈ m.instructions tracing envs, i.operation ≠ .readDelay) :
    List.Forall₂ (fun o o' => o.failure = o'.failure ∧ o.machine.Timeless o'.machine)
      (m.outcomes tracing envs) (m'.outcomes tracing envs') := by
  induction hagree generalizing m m' with
  | nil => exact .nil
  | cons henv _ ih =>
    rw [ticksFound, List.forall_mem_cons] at hclock hclock'
    rw [instructions, List.forall_mem_append] at hread
    have hfirst := h.cycle henv (exists_ok hclock.1) (exists_ok hclock'.1)
      (fun i hi => hread.1 i (Option.mem_toList.mpr hi)) tracing
    exact .cons hfirst (ih hfirst.2 hclock.2 hclock'.2 hread.2)

end Timeless

/-- Two runs from one machine that hear the same keys and the same random numbers, but other clocks,
fail alike and leave machines that differ in nothing but their timers and the buzzer, as long as
neither reads the delay timer. -/
theorem outcomes_timeless (m : Machine) {tracing : Bool} {envs envs' : List Surroundings}
    (hagree : List.Forall₂ Surroundings.Agree envs envs')
    (hclock : ∀ found ∈ m.ticksFound tracing envs, found.isOk = true)
    (hclock' : ∀ found ∈ m.ticksFound tracing envs', found.isOk = true)
    (hread : ∀ i ∈ m.instructions tracing envs, i.operation ≠ .readDelay) :
    List.Forall₂ (fun o o' => o.failure = o'.failure ∧ o.machine.Timeless o'.machine)
      (m.outcomes tracing envs) (m.outcomes tracing envs') :=
  Timeless.outcomes (.mk m.timers m.buzzer) hagree hclock hclock' hread

/-- A machine about to set both timers to 30, to draw a random number and to return from nowhere. -/
def hasty : Machine :=
  given [0x60, 0x1E, 0xF0, 0x15, 0xF0, 0x18, 0xC1, 0xFF, 0x00, 0xEE]

theorem outcomes_timeless_hasty :
    let slow := [reading 0, reading 0, reading 0, reading 0.25, reading 0.25]
    let fast := [reading 1, reading 3, reading 2, reading 4, reading 8]
    List.Forall₂ (fun o o' => o.failure = o'.failure ∧ o.machine.Timeless o'.machine)
        (hasty.outcomes false slow) (hasty.outcomes false fast) ∧
      (hasty.cycles false slow).timers.delay = 15 ∧ (hasty.cycles false fast).timers.delay = 0 ∧
      (hasty.outcomes false slow).map (·.failure) =
        [none, none, none, none, some (.fault .stackUnderflow)] := by
  intro slow fast
  have hpair (now now' : Float) : (reading now).Agree (reading now') := ⟨rfl, rfl⟩
  have hagree : List.Forall₂ Surroundings.Agree slow fast :=
    .cons (hpair ..) (.cons (hpair ..) (.cons (hpair ..) (.cons (hpair ..) (.cons (hpair ..) .nil))))
  have hclock : ∀ found ∈ hasty.ticksFound false slow, found.isOk = true := by decide +kernel
  have hclock' : ∀ found ∈ hasty.ticksFound false fast, found.isOk = true := by decide +kernel
  have hread : ∀ i ∈ hasty.instructions false slow, i.operation ≠ .readDelay := by decide +kernel
  exact ⟨outcomes_timeless hasty hagree hclock hclock' hread, by decide +kernel,
    by decide +kernel, by decide +kernel⟩

end Machine

end ChipEight
