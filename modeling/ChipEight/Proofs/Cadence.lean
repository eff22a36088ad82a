import Mathlib.Algebra.Order.Floor.Ring
import Mathlib.Data.Rat.Floor
import Mathlib.Tactic.FieldSimp
import Mathlib.Tactic.Ring
import ChipEight.Clock.Exact
import ChipEight.Proofs.Parts

/-!
The cadence of the timers. What an update leaves over is kept for the next one, so with exact numbers
nothing is lost between updates: after any of them, the ticks applied so far are the most that have
been due at a reading (`updates_paced`). As long as the readings do not go back, these are the ticks
due at the last one, however many updates there were on the way (`cadence`).
-/

namespace ChipEight

namespace Exact

/-- Below zero, rounding up and rounding down both leave no tick to apply. -/
theorem max_truncate (q : ℚ) : max 0 (truncate q) = max 0 ⌊q⌋ := by
  rw [truncate, Rat.floor_def']
  rcases Int.le_total 0 q.num with h | h
  · rw [Int.tdiv_eq_ediv_of_nonneg h]
  · have hup : 0 ≤ (-q.num).tdiv q.den := Int.tdiv_nonneg (by omega) (Int.natCast_nonneg _)
    have hdown : q.num / (q.den : ℤ) ≤ 0 :=
      Int.ediv_nonpos_of_nonpos_of_neg h (by exact_mod_cast q.den_pos)
    rw [Int.neg_tdiv] at hup
    omega

theorem truncate_of_nonneg {q : ℚ} (h : 0 ≤ q) : truncate q = ⌊q⌋ := by
  rw [truncate, Rat.floor_def', Int.tdiv_eq_ediv_of_nonneg (Rat.num_nonneg.mpr h)]

end Exact

namespace Timers

section

variable {time rate : Type} [Clockwork time rate]

/-- The timers that updates in a row leave. -/
def updates (t : Timers time rate) (readings : List time) : Timers time rate :=
  readings.foldl (fun t now => (t.update now).1) t

/-- What updates in a row give back. -/
def answers (t : Timers time rate) : List time → List (Except ClockFault Int)
  | [] => []
  | now :: readings => (t.update now).2 :: (t.update now).1.answers readings

end

section

variable (hz t0 : ℚ) (delay sound : Int)

/-- The whole ticks due at a reading. -/
def due (now : ℚ) : Int := ⌊(now - t0) * hz⌋

/-- The timers at a reading, so many ticks applied since the beginning. -/
def paced (ticks : Int) (now : ℚ) : Timers ℚ ℚ where
  rate := hz
  delay := max 0 (delay - ticks)
  sound := max 0 (sound - ticks)
  last := now
  elapsed := now - t0 - ticks / hz

variable {hz}

/-- What a further reading finds is the time since the beginning, less the ticks applied. -/
theorem found_paced (hhz : 0 < hz) (ticks : Int) (last now : ℚ) :
    (paced hz t0 delay sound ticks last).found now =
      .ok (Exact.truncate ((now - t0) * hz - ticks)) := by
  change Except.ok (Exact.truncate ((last - t0 - ticks / hz + (now - last)) * hz)) = _
  have hspan : (last - t0 - ticks / hz + (now - last)) * hz = (now - t0) * hz - ticks := by
    field_simp
    ring
  rw [hspan]

/-- The ticks that an update applies bring those applied so far up to what is due. -/
theorem max_due (ticks : Int) (now : ℚ) :
    max ticks (due hz t0 now) = ticks + max 0 (Exact.truncate ((now - t0) * hz - ticks)) := by
  rw [Exact.max_truncate, Int.floor_sub_intCast, due]
  omega

/-- An update applies what is due and has not been applied. -/
theorem update_paced (hhz : 0 < hz) (ticks : Int) (last now : ℚ) :
    (paced hz t0 delay sound ticks last).update now =
      (paced hz t0 delay sound (max ticks (due hz t0 now)) now,
        .ok (Exact.truncate ((now - t0) * hz - ticks))) := by
  rw [update_of_ok (found_paced t0 delay sound hhz ticks last now), max_due]
  generalize Exact.truncate ((now - t0) * hz - ticks) = k
  by_cases hk : 0 < k
  · have hvalue (d : Int) : max 0 (max 0 (d - ticks) - k) = max 0 (d - (ticks + k)) := by omega
    have helapsed : last - t0 - ticks / hz + (now - last) - k / hz =
        now - t0 - ((ticks + k : Int) : ℚ) / hz := by
      push_cast
      ring
    rw [if_pos hk, Int.max_eq_right (Int.le_of_lt hk)]
    calc ((paced hz t0 delay sound ticks last).counted now k, Except.ok k)
        = (⟨hz, max 0 (max 0 (delay - ticks) - k), max 0 (max 0 (sound - ticks) - k), now,
            last - t0 - ticks / hz + (now - last) - k / hz⟩, .ok k) := rfl
      _ = (paced hz t0 delay sound (ticks + k) now, .ok k) := by
        rw [hvalue, hvalue, helapsed]
        rfl
  · have helapsed : last - t0 - ticks / hz + (now - last) = now - t0 - ticks / hz := by ring
    rw [if_neg hk, Int.max_eq_left (Int.not_lt.mp hk), Int.add_zero]
    calc ((paced hz t0 delay sound ticks last).heard now, Except.ok k)
        = (⟨hz, max 0 (delay - ticks), max 0 (sound - ticks), now,
            last - t0 - ticks / hz + (now - last)⟩, .ok k) := rfl
      _ = (paced hz t0 delay sound ticks now, .ok k) := by
        rw [helapsed]
        rfl

/-- The ticks applied are the most that have been due. -/
theorem updates_paced (hhz : 0 < hz) (ticks : Int) (last : ℚ) (readings : List ℚ) :
    (paced hz t0 delay sound ticks last).updates readings =
      paced hz t0 delay sound ((readings.map (due hz t0)).foldl max ticks)
        (readings.getLastD last) := by
  induction readings generalizing ticks last with
  | nil => rfl
  | cons now readings ih =>
    rw [List.map_cons, List.foldl_cons, List.getLastD_cons, ← ih, updates, List.foldl_cons,
      update_paced t0 delay sound hhz]
    rfl

theorem answers_cons (hhz : 0 < hz) (ticks : Int) (last now : ℚ) (readings : List ℚ) :
    (paced hz t0 delay sound ticks last).answers (now :: readings) =
      .ok (Exact.truncate ((now - t0) * hz - ticks)) ::
        (paced hz t0 delay sound (max ticks (due hz t0 now)) now).answers readings := by
  rw [answers, update_paced t0 delay sound hhz]

/-- What updates in a row apply brings the ticks up to the most that have been due. -/
theorem answers_paced (hhz : 0 < hz) (ticks : Int) (last : ℚ) (readings : List ℚ) :
    ∃ found : List Int, (paced hz t0 delay sound ticks last).answers readings = found.map .ok ∧
      ticks + (((paced hz t0 delay sound ticks last).answers readings).map applied).sum =
        (readings.map (due hz t0)).foldl max ticks := by
  induction readings generalizing ticks last with
  | nil => exact ⟨[], rfl, Int.add_zero ticks⟩
  | cons now readings ih =>
    obtain ⟨found, hfound, hsum⟩ := ih (max ticks (due hz t0 now)) now
    rw [answers_cons t0 delay sound hhz]
    refine ⟨Exact.truncate ((now - t0) * hz - ticks) :: found, by rw [hfound]; rfl, ?_⟩
    rw [List.map_cons, List.map_cons, List.foldl_cons, ← hsum, List.sum_cons, max_due,
      Int.add_assoc]
    rfl

/-! ### Readings that do not go back -/

theorem due_mono (hhz : 0 < hz) {now later : ℚ} (h : now ≤ later) :
    due hz t0 now ≤ due hz t0 later :=
  Int.floor_le_floor (mul_le_mul_of_nonneg_right (sub_le_sub_right h t0) (le_of_lt hhz))

/-- The last reading is the one by which most is due. -/
theorem foldl_due (hhz : 0 < hz) {last : ℚ} {readings : List ℚ}
    (h : (last :: readings).IsChain (· ≤ ·)) :
    (readings.map (due hz t0)).foldl max (due hz t0 last) =
      due hz t0 (readings.getLastD last) := by
  induction readings generalizing last with
  | nil => rfl
  | cons now readings ih =>
    obtain ⟨hle, hrest⟩ := List.isChain_cons_cons.mp h
    rw [List.map_cons, List.foldl_cons, List.getLastD_cons, max_eq_right (due_mono t0 hhz hle)]
    exact ih hrest

/-- Where the readings do not go back, no update finds less than nothing. -/
theorem answers_nonneg (hhz : 0 < hz) {last : ℚ} {readings : List ℚ}
    (h : (last :: readings).IsChain (· ≤ ·)) :
    ∃ found : List Int, (∀ k ∈ found, 0 ≤ k) ∧
      (paced hz t0 delay sound (due hz t0 last) last).answers readings = found.map .ok := by
  induction readings generalizing last with
  | nil => exact ⟨[], nofun, rfl⟩
  | cons now readings ih =>
    obtain ⟨hle, hrest⟩ := List.isChain_cons_cons.mp h
    obtain ⟨found, hnonneg, hfound⟩ := ih hrest
    have hdue : (due hz t0 last : ℚ) ≤ (now - t0) * hz :=
      calc (due hz t0 last : ℚ) ≤ due hz t0 now := by exact_mod_cast due_mono t0 hhz hle
        _ ≤ (now - t0) * hz := Int.floor_le _
    have hk : 0 ≤ Exact.truncate ((now - t0) * hz - due hz t0 last) := by
      rw [Exact.truncate_of_nonneg (sub_nonneg.mpr hdue)]
      exact Int.floor_nonneg.mpr (sub_nonneg.mpr hdue)
    refine ⟨Exact.truncate ((now - t0) * hz - due hz t0 last) :: found,
      List.forall_mem_cons.mpr ⟨hk, hnonneg⟩, ?_⟩
    rw [answers_cons t0 delay sound hhz, max_eq_right (due_mono t0 hhz hle), hfound]
    rfl

end

/-- The ticks applied after updates in a row, and with them the timers, depend on the most that has
been due at a reading. Where the readings do not go back, each update tells what it has applied, and
updates before the last reading make no difference. -/
theorem cadence {hz : ℚ} (hhz : 0 < hz) (t0 : ℚ) {delay sound : Int} (hdelay : 0 ≤ delay)
    (hsound : 0 ≤ sound) (readings : List ℚ) :
    let t : Timers ℚ ℚ := { start hz t0 with delay := delay, sound := sound }
    let total := (readings.map (due hz t0)).foldl max 0
    ∃ found : List Int, t.answers readings = found.map .ok ∧
      ((t.answers readings).map applied).sum = total ∧
      (t.updates readings).delay = max 0 (delay - total) ∧
      (t.updates readings).sound = max 0 (sound - total) ∧
      ((t0 :: readings).IsChain (· ≤ ·) →
        (t.answers readings).map applied = found ∧ (∀ k ∈ found, 0 ≤ k) ∧
        found.sum = due hz t0 (readings.getLastD t0) ∧
        ∀ readings' : List ℚ, (t0 :: readings').IsChain (· ≤ ·) →
          readings'.getLastD t0 = readings.getLastD t0 → t.updates readings' = t.updates readings) := by
  intro t total
  have hzero : due hz t0 t0 = 0 := by rw [due, sub_self, zero_mul, Int.floor_zero]
  have ht : t = paced hz t0 delay sound 0 t0 := by
    have helapsed : (0 : ℚ) = t0 - t0 - (0 : Int) / hz := by simp
    calc t = ⟨hz, delay, sound, t0, 0⟩ := rfl
      _ = ⟨hz, max 0 (delay - 0), max 0 (sound - 0), t0, t0 - t0 - (0 : Int) / hz⟩ := by
        rw [← helapsed, Int.sub_zero, Int.sub_zero, Int.max_eq_right hdelay,
          Int.max_eq_right hsound]
  have hafter (readings : List ℚ) (h : (t0 :: readings).IsChain (· ≤ ·)) :
      (readings.map (due hz t0)).foldl max 0 = due hz t0 (readings.getLastD t0) := by
    rw [← hzero]
    exact foldl_due t0 hhz h
  obtain ⟨found, hfound, hsum⟩ := answers_paced t0 delay sound hhz 0 t0 readings
  rw [← ht, Int.zero_add] at hsum
  rw [← ht] at hfound
  have hupdates := updates_paced t0 delay sound hhz 0 t0
  rw [← ht] at hupdates
  refine ⟨found, hfound, hsum, by rw [hupdates]; rfl, by rw [hupdates]; rfl, fun hchain => ?_⟩
  have hnonneg : ∀ k ∈ found, 0 ≤ k := by
    obtain ⟨same, hsame, heq⟩ := answers_nonneg t0 delay sound hhz hchain
    rw [hzero, ← ht, hfound] at heq
    rwa [List.map_injective_iff.mpr (fun _ _ h => Except.ok.inj h) heq]
  have happlied : (t.answers readings).map applied = found := by
    calc (t.answers readings).map applied = found.map (applied ∘ Except.ok) := by
          rw [hfound, List.map_map]
      _ = found.map id := List.map_congr_left fun k hk => max_eq_right (hnonneg k hk)
      _ = found := List.map_id found
  refine ⟨happlied, hnonneg, ?_, fun readings' hchain' hlast => ?_⟩
  · rw [← happlied, hsum]
    exact hafter readings hchain
  · rw [hupdates, hupdates, hafter readings hchain, hafter readings' hchain', hlast]

theorem cadence_sixty :
    let t : Timers ℚ ℚ := { start 60 1 with delay := 60, sound := 10 }
    (t.updates [3/2, 1/2, 7/4]).delay = 15 ∧
      (t.updates [101/100, 41/40, 3/2]).delay = 30 ∧
      (t.updates [101/100, 41/40, 3/2]).sound = 0 ∧
      t.updates [3/2] = t.updates [101/100, 41/40, 3/2] := by
  intro t
  have hhz : (0 : ℚ) < 60 := by norm_num
  have hdelay : (0 : Int) ≤ 60 := by decide
  have hsound : (0 : Int) ≤ 10 := by decide
  have hback : ([3/2, 1/2, 7/4].map (due 60 1)).foldl max 0 = 45 := by decide +kernel
  have hahead : ([101/100, 41/40, 3/2].map (due 60 1)).foldl max 0 = 30 := by decide +kernel
  obtain ⟨-, -, -, hfar, -⟩ := cadence hhz 1 hdelay hsound [3/2, 1/2, 7/4]
  obtain ⟨_, -, -, hdelay', hsound', hsame⟩ := cadence hhz 1 hdelay hsound [101/100, 41/40, 3/2]
  rw [hback] at hfar
  rw [hahead] at hdelay' hsound'
  obtain ⟨-, -, -, hone⟩ := hsame (by decide +kernel)
  exact ⟨hfar, hdelay', hsound', hone [3/2] (by decide +kernel) rfl⟩

end Timers

end ChipEight
