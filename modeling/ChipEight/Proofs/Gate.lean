import ChipEight.Machine.Dump
import ChipEight.Proofs.Decay

/-!
When the buzzer sounds. A cycle that returns sets the flag by the sound timer, last of all; a cycle
that is stopped by a fault does not get there and leaves the flag as it was, above timers that have
been updated. So after a stopped cycle the flag may still be up while the timer has just run out,
and that is all that can be amiss: in whatever a host does, a running timer is never silent
(`cycle_gate`).
-/

namespace ChipEight

/-- A host asks for no more than this: a program, a cycle, a reset. -/
def Request.Hosted : Request → Prop
  | .load _ _ | .cycle _ _ | .reset _ => True
  | .execute _ _ _ | .update _ | .tick _ => False

namespace Machine

/-- The buzzer sounds exactly while the sound timer runs. -/
def Gated (m : Machine) : Prop := m.buzzer = true ↔ 0 < m.timers.sound

instance (m : Machine) : Decidable m.Gated := inferInstanceAs (Decidable (_ ↔ _))

/-- The buzzer sounds at least while the sound timer runs. -/
def Audible (m : Machine) : Prop := 0 < m.timers.sound → m.buzzer = true

/-- The request is one of a host, and if it is a cycle, it returns. -/
def Returns (m : Machine) : Request → Prop
  | .cycle tracing env => (m.cycle tracing env).failure = none
  | r => r.Hosted

instance (m : Machine) : (r : Request) → Decidable (m.Returns r)
  | .cycle tracing env => inferInstanceAs (Decidable ((m.cycle tracing env).failure = none))
  | .load _ _ | .reset _ => inferInstanceAs (Decidable True)
  | .execute _ _ _ | .update _ | .tick _ => inferInstanceAs (Decidable False)

/-- Every request of a row is one of a host, and every cycle among them returns. -/
def AllReturn (m : Machine) : List Request → Prop
  | [] => True
  | r :: rs => m.Returns r ∧ (m.respond r).AllReturn rs

instance decidableAllReturn (m : Machine) : (rs : List Request) → Decidable (m.AllReturn rs)
  | [] => inferInstanceAs (Decidable True)
  | r :: rs =>
      have := decidableAllReturn (m.respond r) rs
      inferInstanceAs (Decidable (m.Returns r ∧ (m.respond r).AllReturn rs))

section

variable {m : Machine} {tracing : Bool} {env : Surroundings}

theorem Gated.audible (h : m.Gated) : m.Audible := h.mpr

theorem gated_gateBuzzer (m : Machine) : m.gateBuzzer.Gated := by
  simp [Gated, gateBuzzer]

/-- A machine just switched on or reset is silent, its timers at rest. -/
theorem gated_start (now : Float) : (start now).Gated := ⟨nofun, nofun⟩

theorem gated_reset (m : Machine) (now : Float) : (m.reset now).Gated := by
  obtain ⟨memory, hreset⟩ := m.reset_cases now
  rw [hreset]
  exact ⟨nofun, nofun⟩

theorem buzzer_poised (m : Machine) (keys : Keys) : (m.poised keys).buzzer = m.buzzer := by
  rw [poised]
  rcases m.awaitedKey keys with _ | key <;> rfl

/-! ### One cycle -/

theorem gated_of_returns (h : (m.cycle tracing env).failure = none) :
    (m.cycle tracing env).machine.Gated := by
  have hran := m.cycle_ran tracing env
  generalize m.cycle tracing env = o at h hran
  cases hran with
  | clock f => cases h
  | idle => exact gated_gateBuzzer _
  | unknown => cases h
  | faults => cases h
  | completes => exact gated_gateBuzzer _

/-- A cycle that is stopped has got no further than the timers, as far as the buzzer goes. -/
theorem buzzer_of_raises (h : (m.cycle tracing env).failure ≠ none) :
    (m.cycle tracing env).machine.buzzer = m.buzzer ∧
      (m.cycle tracing env).machine.timers = (m.timers.update env.now).1 := by
  have hran := m.cycle_ran tracing env
  generalize m.cycle tracing env = o at h hran
  cases hran with
  | clock f => exact ⟨rfl, rfl⟩
  | idle => exact absurd rfl h
  | unknown => exact ⟨rfl, rfl⟩
  | faults => exact ⟨buzzer_poised _ _, poised_timers _ _⟩
  | completes => exact absurd rfl h

theorem sound_update_le (h : m.InBounds) (now : Float) :
    0 ≤ (m.timers.update now).1.sound ∧ (m.timers.update now).1.sound ≤ m.timers.sound := by
  have hlow : 0 ≤ m.timers.sound := h.timers.sound.1
  have happlied := Timers.applied_nonneg (m.timers.update now).2
  have hvalue : (m.timers.update now).1.sound =
      max 0 (m.timers.sound - Timers.applied (m.timers.update now).2) :=
    Timers.value_update (c := .sound) hlow now
  omega

/-- A stopped cycle puts buzzer and timer at odds exactly if its update lets the timer run out. -/
theorem gated_of_raises_iff (hbounds : m.InBounds) (hgated : m.Gated)
    (h : (m.cycle tracing env).failure ≠ none) :
    (m.cycle tracing env).machine.Gated ↔
      ¬ (0 < m.timers.sound ∧ (m.cycle tracing env).machine.timers.sound = 0) := by
  obtain ⟨hbuzzer, htimers⟩ := buzzer_of_raises h
  obtain ⟨hlow, hle⟩ := sound_update_le hbounds env.now
  have hbefore : m.buzzer = true ↔ 0 < m.timers.sound := hgated
  rw [Gated, hbuzzer, htimers, hbefore]
  omega

/-! ### Runs of a host -/

theorem respond_load (m : Machine) (storage : Storage) (source : ProgramSource) :
    (m.respond (.load storage source)).buzzer = m.buzzer ∧
      (m.respond (.load storage source)).timers = m.timers := by
  rcases m.respond_load_cases storage source with ⟨data, -, hload⟩ | hload <;> rw [hload] <;>
    exact ⟨rfl, rfl⟩

theorem Audible.cycle (hbounds : m.InBounds) (h : m.Audible) (tracing : Bool) (env : Surroundings) :
    (m.cycle tracing env).machine.Audible := by
  by_cases hfailure : (m.cycle tracing env).failure = none
  · exact (gated_of_returns hfailure).audible
  · obtain ⟨hbuzzer, htimers⟩ := buzzer_of_raises hfailure
    obtain ⟨-, hle⟩ := sound_update_le hbounds env.now
    rw [Audible, hbuzzer, htimers]
    intro hruns
    exact h (Int.lt_of_lt_of_le hruns hle)

theorem Audible.respond (hbounds : m.InBounds) (h : m.Audible) {r : Request} (hr : r.Hosted) :
    (m.respond r).Audible := by
  cases r with
  | load storage source =>
    obtain ⟨hbuzzer, htimers⟩ := m.respond_load storage source
    rw [Audible, hbuzzer, htimers]
    exact h
  | cycle tracing env => exact h.cycle hbounds tracing env
  | reset now => exact (m.gated_reset now).audible
  | execute | update | tick => exact hr.elim

theorem Audible.serve (hbounds : m.InBounds) (h : m.Audible) {requests : List Request}
    (hhosted : ∀ r ∈ requests, r.Hosted) : (m.serve requests).Audible := by
  induction requests generalizing m with
  | nil => exact h
  | cons r rs ih =>
    obtain ⟨hr, hrs⟩ := List.forall_mem_cons.mp hhosted
    exact ih (hbounds.respond r) (h.respond hbounds hr) hrs

theorem Gated.respond (h : m.Gated) {r : Request} (hr : m.Returns r) : (m.respond r).Gated := by
  cases r with
  | load storage source =>
    obtain ⟨hbuzzer, htimers⟩ := m.respond_load storage source
    rw [Gated, hbuzzer, htimers]
    exact h
  | cycle tracing env => exact gated_of_returns hr
  | reset now => exact m.gated_reset now
  | execute | update | tick => exact hr.elim

theorem Gated.serve (h : m.Gated) {requests : List Request} (hreturn : m.AllReturn requests) :
    (m.serve requests).Gated := by
  induction requests generalizing m with
  | nil => exact h
  | cons r rs ih => exact ih (h.respond hreturn.1) hreturn.2

/-- The flag of the buzzer and the sound timer, as the dump of a machine shows them. -/
theorem dump_shows (m : Machine) :
    ∃ front, m.dump = front ++ " | SOUND_TIMER:" ++ toString m.timers.sound ++
      "\nDRAW:" ++ flagText m.drew ++ " | BLOCKED:" ++ flagText m.waiting ++
      " | BUZZER:" ++ flagText m.buzzer := ⟨_, rfl⟩

/-- A cycle that returns leaves the buzzer sounding exactly while the sound timer runs. One that is
stopped leaves the flag as it found it and the timers as the update did. Under a host the flag is up
whenever the timer runs, stopped or not; and as long as every cycle before has returned, flag and
timer differ only if this one is stopped and its update has let the timer run out. The dump shows
both as they are. -/
theorem cycle_gate (m : Machine) (tracing : Bool) (env : Surroundings) :
    let o := m.cycle tracing env
    (o.failure = none → o.machine.Gated) ∧
    (o.failure ≠ none →
      o.machine.buzzer = m.buzzer ∧ o.machine.timers = (m.timers.update env.now).1) ∧
    (∀ now requests, m = (start now).serve requests →
      ((∀ r ∈ requests, r.Hosted) → o.machine.Audible) ∧
      ((start now).AllReturn requests →
        (o.machine.Gated ↔
          ¬ (o.failure ≠ none ∧ 0 < m.timers.sound ∧ o.machine.timers.sound = 0)))) ∧
    ∃ front, o.machine.dump = front ++ " | SOUND_TIMER:" ++ toString o.machine.timers.sound ++
      "\nDRAW:" ++ flagText o.machine.drew ++ " | BLOCKED:" ++ flagText o.machine.waiting ++
      " | BUZZER:" ++ flagText o.machine.buzzer := by
  intro o
  refine ⟨gated_of_returns, buzzer_of_raises, ?_, dump_shows o.machine⟩
  rintro now requests hm
  have hbounds : m.InBounds := Reachable.inBounds ⟨now, requests, hm⟩
  constructor
  · intro hhosted
    have haudible : m.Audible := by
      rw [hm]
      exact (gated_start now).audible.serve (InBounds.start now) hhosted
    exact haudible.cycle hbounds tracing env
  · intro hreturn
    have hgated : m.Gated := by
      rw [hm]
      exact (gated_start now).serve hreturn
    by_cases hfailure : o.failure = none
    · have hgate : o.machine.Gated := gated_of_returns hfailure
      simp [hgate, hfailure]
    · simpa [hfailure] using gated_of_raises_iff hbounds hgated hfailure

/-- What leads to an opcode that is no instruction while the buzzer sounds for one tick. -/
def beep : List Request :=
  [.load .boundless (.bytes [0x60, 0x01, 0xF0, 0x18, 0xFF, 0xFF]), .cycle false (reading 0),
    .cycle false (reading 0)]

/-- A machine that sounds and is about to be stopped. -/
def beeping : Machine := (start 0).serve beep

/-- The tick is not over yet when the opcode is refused. -/
theorem cycle_gate_beeping :
    (start 0).AllReturn beep ∧ (beeping.cycle false (reading 0)).failure ≠ none ∧
      (beeping.cycle false (reading 0)).machine.timers.sound = 1 ∧
      (beeping.cycle false (reading 0)).machine.Gated := by
  have hreturn : (start 0).AllReturn beep := by decide +kernel
  have hsound : (beeping.cycle false (reading 0)).machine.timers.sound = 1 := by decide +kernel
  have hraises : (beeping.cycle false (reading 0)).failure ≠ none := by decide +kernel
  obtain ⟨-, -, hruns, -⟩ := cycle_gate beeping false (reading 0)
  have hgate := (hruns 0 beep rfl).2 hreturn
  rw [hsound] at hgate
  exact ⟨hreturn, hraises, hsound, hgate.mpr fun h => absurd h.2.2 (by decide)⟩

/-- The tick is over when the opcode is refused, and the buzzer is still on. -/
theorem beeping_not_gated :
    beeping.Reachable ∧ (beeping.timers.update (reading 1).now).2.isOk = true ∧
      (beeping.cycle false (reading 1)).failure = some (.fault (.unknownOpcode 0xFFFF)) ∧
      ¬ (beeping.cycle false (reading 1)).machine.Gated ∧
      ∃ front, (beeping.cycle false (reading 1)).machine.dump =
        front ++ " | SOUND_TIMER:0\nDRAW:False | BLOCKED:False | BUZZER:True" := by
  have hshown : let m := (beeping.cycle false (reading 1)).machine
      m.timers.sound = 0 ∧ m.drew = false ∧ m.waiting = false ∧ m.buzzer = true := by
    decide +kernel
  obtain ⟨hsound, hdrew, hwaiting, hbuzzer⟩ := hshown
  refine ⟨⟨0, _, rfl⟩, ?_, ?_, ?_, ?_⟩
  · decide +kernel
  · decide +kernel
  · rw [Gated, hsound, hbuzzer]
    decide
  · obtain ⟨front, hfront⟩ := dump_shows (beeping.cycle false (reading 1)).machine
    rw [hsound, hdrew, hwaiting, hbuzzer] at hfront
    refine ⟨front, hfront.trans ?_⟩
    simp only [String.append_assoc]
    rfl

end

end Machine

end ChipEight
