import Mathlib.Algebra.Ring.Int.Defs
import ChipEight.Proofs.Reserved

/-!
How the timers decay in a run. Every cycle updates them once, before its instruction, whatever the
clock says and however the cycle ends; besides, a timer changes only where its own instruction sets
it. `Decays` says so of one cycle, and in a run between two settings the updates add up
(`timers_decay`).
-/

namespace ChipEight.Machine

/-- What the updates in a row of cycles give back, one for each cycle. -/
def ticksFound (m : Machine) (tracing : Bool) : List Surroundings → List (Except ClockFault Int)
  | [] => []
  | env :: envs =>
      (m.timers.update env.now).2 :: (m.cycle tracing env).machine.ticksFound tracing envs

/-- The ticks that the updates in a row of cycles apply. -/
def ticksApplied (m : Machine) (tracing : Bool) (envs : List Surroundings) : Int :=
  ((m.ticksFound tracing envs).map Timers.applied).sum

/-- The instruction of a cycle, if there is one, does not set this timer. -/
def Spares (m : Machine) (env : Surroundings) (c : Timer) : Prop :=
  ∀ i, m.performed env = some i → i.operation ≠ c.setter

/-- What a cycle does to the timers. -/
structure Decays (m : Machine) (env : Surroundings) (o : Outcome) : Prop where
  /-- The clock has been read once. -/
  clock : o.machine.timers =
    { (m.timers.update env.now).1 with
      delay := o.machine.timers.delay, sound := o.machine.timers.sound }
  spared : ∀ c, m.Spares env c →
    o.machine.timers.value c = max 0 (m.timers.value c - Timers.applied (m.timers.update env.now).2)
  assigned : ∀ c i, m.performed env = some i → i.operation = c.setter →
    o.machine.timers.value c = ((m.ticked env.now).poised env.keys).v i.x
  nonneg : ∀ c, 0 ≤ o.machine.timers.value c
  falls : ∀ c, m.Spares env c → o.machine.timers.value c ≤ m.timers.value c
  /-- The delay timer is read after it has been counted down. -/
  read : ∀ i, m.performed env = some i → i.operation = .readDelay →
    o.failure = none ∧ o.machine.v i.x = o.machine.timers.delay ∧
      o.machine.timers.delay =
        max 0 (m.timers.delay - Timers.applied (m.timers.update env.now).2)
  /-- A clock that cannot be counted with stops the cycle before anything else changes. -/
  stopped : ∀ f, (m.timers.update env.now).2 = .error f →
    o = ⟨{ m with
      drew := false
      timers := { m.timers with
        last := o.machine.timers.last, elapsed := o.machine.timers.elapsed } },
      [], some (.clock f)⟩

section

variable {m : Machine} {env : Surroundings}

theorem clock_cycle (m : Machine) (tracing : Bool) (env : Surroundings) :
    (m.cycle tracing env).machine.timers =
      { (m.timers.update env.now).1 with
        delay := (m.cycle tracing env).machine.timers.delay
        sound := (m.cycle tracing env).machine.timers.sound } := by
  rcases hperformed : m.performed env with _ | i
  · obtain ⟨b, hcycle⟩ := cycle_of_performed_none hperformed tracing
    rw [hcycle]
    rfl
  · have hclock := (cycle_reserved hperformed tracing).clock
    rw [poised_timers] at hclock
    exact hclock

/-- A timer that a cycle does not set is counted down. -/
theorem value_cycle_of_spares {c : Timer} (hvalue : 0 ≤ m.timers.value c) (h : m.Spares env c)
    (tracing : Bool) :
    (m.cycle tracing env).machine.timers.value c =
      max 0 (m.timers.value c - Timers.applied (m.timers.update env.now).2) := by
  rw [← Timers.value_update hvalue]
  rcases hperformed : m.performed env with _ | i
  · obtain ⟨b, hcycle⟩ := cycle_of_performed_none hperformed tracing
    rw [hcycle]
    rfl
  · rw [(cycle_reserved hperformed tracing).timer, if_neg (h i hperformed), poised_timers]
    rfl

theorem value_cycle_of_setter {c : Timer} {i : Instruction} (h : m.performed env = some i)
    (hset : i.operation = c.setter) (tracing : Bool) :
    (m.cycle tracing env).machine.timers.value c =
      ((m.ticked env.now).poised env.keys).v i.x := by
  rw [(cycle_reserved h tracing).timer, if_pos hset]

/-- What has been read of the delay timer is what an instruction finds there. -/
theorem cycle_readDelay {i : Instruction} (h : m.performed env = some i)
    (hread : i.operation = .readDelay) (tracing : Bool) :
    (m.cycle tracing env).failure = none ∧
      (m.cycle tracing env).machine.v i.x = (m.timers.update env.now).1.delay % 256 := by
  obtain ⟨operation, opcode⟩ := i
  obtain rfl : operation = .readDelay := hread
  obtain ⟨b, hcycle⟩ := cycle_of_performed h tracing
  rw [hcycle]
  refine ⟨rfl, ?_⟩
  have hdelay : ((m.ticked env.now).poised env.keys).timers = (m.timers.update env.now).1 :=
    poised_timers _ _
  rw [← hdelay]
  exact (Registers.read_write ..).trans (if_pos rfl)

theorem cycle_of_clock_error {f : ClockFault} (h : (m.timers.update env.now).2 = .error f)
    (tracing : Bool) :
    m.cycle tracing env =
      ⟨{ m with drew := false, timers := m.timers.heard env.now }, [], some (.clock f)⟩ := by
  have hfound := (m.timers.snd_update env.now).symm.trans h
  rw [cycle_of_error h, ticked, Timers.update_of_error hfound]

theorem cycle_decays (h : m.InBounds) (tracing : Bool) (env : Surroundings) :
    m.Decays env (m.cycle tracing env) := by
  have hbyte := h.timers.value
  have hspared (c : Timer) (hspares : m.Spares env c) :=
    value_cycle_of_spares (hbyte c).1 hspares tracing
  have hfalls (c : Timer) (hspares : m.Spares env c) :
      (m.cycle tracing env).machine.timers.value c ≤ m.timers.value c := by
    have happlied := Timers.applied_nonneg (m.timers.update env.now).2
    have hlow := (hbyte c).1
    rw [hspared c hspares]
    omega
  refine
    { clock := clock_cycle m tracing env
      spared := hspared
      assigned := fun c i hi hset => value_cycle_of_setter hi hset tracing
      nonneg := fun c => ((h.cycle tracing env).timers.value c).1
      falls := hfalls
      read := fun i hi hread => ?_
      stopped := fun f hf => ?_ }
  · have hspares : m.Spares env .delay := by
      intro j hj hset
      obtain rfl : i = j := Option.some.inj (hi.symm.trans hj)
      rw [hread] at hset
      cases hset
    have hdelay := hspared .delay hspares
    obtain ⟨hdone, hvalue⟩ := cycle_readDelay hi hread tracing
    obtain ⟨hlow, hhigh⟩ := (h.timers.update env.now).delay
    refine ⟨hdone, ?_, hdelay⟩
    rw [hvalue, Int.emod_eq_of_lt hlow (by omega)]
    exact (Timers.value_update (hbyte .delay).1 env.now).trans hdelay.symm
  · rw [cycle_of_clock_error hf]
    rfl

/-! ### Runs -/

theorem ticksApplied_cons (m : Machine) (tracing : Bool) (env : Surroundings)
    (envs : List Surroundings) :
    m.ticksApplied tracing (env :: envs) = Timers.applied (m.timers.update env.now).2 +
      (m.cycle tracing env).machine.ticksApplied tracing envs := rfl

theorem ticksApplied_nonneg (m : Machine) (tracing : Bool) (envs : List Surroundings) :
    0 ≤ m.ticksApplied tracing envs := by
  induction envs generalizing m with
  | nil => exact Int.le_refl 0
  | cons env envs ih =>
    rw [ticksApplied_cons]
    exact Int.add_nonneg (Timers.applied_nonneg _) (ih _)

/-- A timer that no cycle of a run sets is counted down by all updates together. -/
theorem value_cycles (h : m.InBounds) {tracing : Bool} {c : Timer} {envs : List Surroundings}
    (hspares : ∀ i ∈ m.instructions tracing envs, i.operation ≠ c.setter) :
    (m.cycles tracing envs).timers.value c =
      max 0 (m.timers.value c - m.ticksApplied tracing envs) := by
  induction envs generalizing m with
  | nil =>
    have hlow := (h.timers.value c).1
    change m.timers.value c = max 0 (m.timers.value c - 0)
    omega
  | cons env envs ih =>
    rw [instructions, List.forall_mem_append] at hspares
    obtain ⟨hfirst, hrest⟩ := hspares
    have hcycle := (cycle_decays h tracing env).spared c
      fun i hi => hfirst i (Option.mem_toList.mpr hi)
    have hnow := Timers.applied_nonneg (m.timers.update env.now).2
    have hlater := (m.cycle tracing env).machine.ticksApplied_nonneg tracing envs
    rw [ticksApplied_cons]
    calc (m.cycles tracing (env :: envs)).timers.value c
        = max 0 ((m.cycle tracing env).machine.timers.value c -
            (m.cycle tracing env).machine.ticksApplied tracing envs) :=
          ih (h.cycle tracing env) hrest
      _ = max 0 (m.timers.value c - (Timers.applied (m.timers.update env.now).2 +
            (m.cycle tracing env).machine.ticksApplied tracing envs)) := by
          rw [hcycle]
          omega

/-- Every cycle counts both timers down by the ticks that its update applies, unless the instruction
that sets a timer follows. So in a run that sets a timer nowhere but at its beginning, the timer is
what it was then, less the ticks that all updates since have applied, and never below zero. -/
theorem timers_decay (h : m.Reachable) (tracing : Bool) :
    (∀ env, m.Decays env (m.cycle tracing env)) ∧
      ∀ c : Timer,
        (∀ envs, (∀ i ∈ m.instructions tracing envs, i.operation ≠ c.setter) →
          (m.cycles tracing envs).timers.value c =
            max 0 (m.timers.value c - m.ticksApplied tracing envs)) ∧
        ∀ env i, m.performed env = some i → i.operation = c.setter →
          ∀ m', m' = (m.cycle tracing env).machine → ∀ envs,
            (∀ j ∈ m'.instructions tracing envs, j.operation ≠ c.setter) →
            (m'.cycles tracing envs).timers.value c =
              max 0 (((m.ticked env.now).poised env.keys).v i.x - m'.ticksApplied tracing envs) := by
  have hbounds := h.inBounds
  refine ⟨cycle_decays hbounds tracing, fun c => ⟨fun envs => value_cycles hbounds, ?_⟩⟩
  rintro env i hi hset _ rfl envs hspares
  rw [value_cycles (hbounds.cycle tracing env) hspares,
    (cycle_decays hbounds tracing env).assigned c i hi hset]

/-- A cycle at a reading of the clock, no key pressed. -/
def reading (now : Float) : Surroundings := { holding [] with now := now }

/-- A machine about to set its delay timer to 60. Then it will read the timer and go in circles. -/
def timing : Machine :=
  (start 0).serve [.load .boundless (.bytes [0x6A, 0x3C, 0xFA, 0x15, 0xFB, 0x07, 0x12, 0x06]),
    .cycle false (reading 0)]

theorem timers_decay_timing :
    let set := (timing.cycle false (reading 0)).machine
    timing.performed (reading 0) = some ⟨.setDelay, 0xFA15⟩ ∧
      (set.cycles false [reading 0.25, reading 0.125, reading 0.5]).timers.delay = 30 ∧
      (set.cycle false (reading 0.25)).machine.v 0xB = 45 := by
  intro set
  have hreach : timing.Reachable := ⟨0, _, rfl⟩
  have hlater : set.Reachable := hreach.cycle false (reading 0)
  have hset : timing.performed (reading 0) = some ⟨.setDelay, 0xFA15⟩ := by decide +kernel
  have hread : set.performed (reading 0.25) = some ⟨.readDelay, 0xFB07⟩ := by decide +kernel
  have hvalue : ((timing.ticked (reading 0).now).poised (reading 0).keys).v
      (Instruction.mk .setDelay 0xFA15).x = 60 := by decide +kernel
  have hspares : ∀ j ∈ set.instructions false [reading 0.25, reading 0.125, reading 0.5],
      j.operation ≠ Timer.delay.setter := by decide +kernel
  have hticks : set.ticksApplied false [reading 0.25, reading 0.125, reading 0.5] = 30 := by
    decide +kernel
  have hleft : set.timers.delay - Timers.applied (set.timers.update (reading 0.25).now).2 = 45 := by
    decide +kernel
  obtain ⟨-, hruns⟩ := timers_decay hreach false
  have hrun := (hruns .delay).2 (reading 0) _ hset rfl set rfl _ hspares
  obtain ⟨-, hregister, hdelay⟩ :=
    ((timers_decay hlater false).1 (reading 0.25)).read _ hread rfl
  refine ⟨hset, ?_, ?_⟩
  · rw [hvalue, hticks] at hrun
    exact hrun
  · rw [hdelay, hleft] at hregister
    exact hregister

end

end ChipEight.Machine
