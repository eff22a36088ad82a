import Mathlib.Algebra.Group.Int.Defs
import Mathlib.Algebra.Group.Nat.Defs
import Mathlib.Data.List.Induction
import ChipEight.Text.Hexadecimal

/-!
Hexadecimal numbers of a fixed width. A number that fits into so many digits is padded to exactly
those: its lowest digits, each in its place (`padded_eq_fixed`). A negative number gives one of its
places to the sign. Digits of a fixed width are read back to what of the number fits into them
(`value?_lowDigits`).
-/

namespace ChipEight.Hex

/-- The lowest digits of a number, so many of them, the highest first. -/
def lowDigits : Nat → Nat → List Char
  | 0, _ => []
  | width + 1, v => lowDigits width (v / 16) ++ [Nat.digitChar (v % 16)]

/-- A number in so many digits. -/
def fixed (width : Nat) (v : Int) : String := String.ofList (lowDigits width v.toNat)

theorem lowDigits_zero (width : Nat) : lowDigits width 0 = List.replicate width '0' := by
  induction width with
  | zero => rfl
  | succ width ih => simp [lowDigits, ih, List.replicate_succ']

/-- Zeros in front of its digits fill a number up to the digits of its places. -/
theorem replicate_append_toDigits {width v : Nat} (hwidth : 0 < width) (h : v < 16 ^ width) :
    List.replicate (width - (Nat.toDigits 16 v).length) '0' ++ Nat.toDigits 16 v =
      lowDigits width v := by
  induction width generalizing v with
  | zero => contradiction
  | succ width ih =>
    rcases Nat.lt_or_ge v 16 with hv | hv
    · rw [Nat.toDigits_of_lt_base hv, lowDigits, Nat.div_eq_of_lt hv, Nat.mod_eq_of_lt hv,
        lowDigits_zero]
      simp
    · -- the last digit comes off, and the digits before it have one place less
      have hrest : v / 16 < 16 ^ width := by
        rw [Nat.div_lt_iff_lt_mul (by decide), ← Nat.pow_succ]
        exact h
      have hpos : 0 < width := by
        rcases Nat.eq_zero_or_pos width with rfl | hpos
        · omega
        · exact hpos
      rw [Nat.toDigits_of_base_le (by decide) hv, lowDigits, ← ih hpos hrest]
      simp

theorem padded_eq_fixed {width : Nat} {v : Int} (hwidth : 0 < width)
    (h : 0 ≤ v ∧ v < 16 ^ width) : padded width v = fixed width v := by
  obtain ⟨n, rfl⟩ := Int.eq_ofNat_of_zero_le h.1
  have hn : n < 16 ^ width := by exact_mod_cast h.2
  have hsign : sign (n : Int) = [] := if_neg (by omega)
  rw [padded, fixed, hsign, magnitude, Int.natAbs_natCast, Int.toNat_natCast,
    ← replicate_append_toDigits hwidth hn]
  rfl

/-! ### Digits read back -/

/-- The digit that a character stands for, a letter small or capital. -/
def digit? (c : Char) : Option Nat := (List.range 16).find? fun d => Nat.digitChar d == c.toLower

/-- The number that digits stand for, the highest first. -/
def value? (ds : List Char) : Option Nat :=
  ds.foldlM (fun v c => (digit? c).map (16 * v + ·)) 0

theorem digit?_digitChar : ∀ d < 16, digit? (Nat.digitChar d) = some d := by decide

theorem digit?_capital : ∀ d < 16, digit? (Nat.digitChar d).toUpper = some d := by decide

theorem value?_append (ds : List Char) (c : Char) :
    value? (ds ++ [c]) = (value? ds).bind fun v => (digit? c).map (16 * v + ·) := by
  simp [value?]

/-- So many digits of a number give back what of it fits into them. -/
theorem value?_lowDigits (width v : Nat) : value? (lowDigits width v) = some (v % 16 ^ width) := by
  induction width generalizing v with
  | zero => simp [lowDigits, value?, Nat.mod_one]
  | succ width ih =>
    rw [lowDigits, value?_append, ih, digit?_digitChar _ (Nat.mod_lt _ (by decide)),
      Nat.pow_succ', Nat.mod_mul, Nat.add_comm]
    rfl

theorem value?_lowDigits_of_lt {width v : Nat} (h : v < 16 ^ width) :
    value? (lowDigits width v) = some v := by
  rw [value?_lowDigits, Nat.mod_eq_of_lt h]

theorem length_lowDigits (width v : Nat) : (lowDigits width v).length = width := by
  induction width generalizing v with
  | zero => rfl
  | succ width ih => rw [lowDigits, List.length_append, ih, List.length_singleton]

theorem mem_lowDigits {width v : Nat} {c : Char} (h : c ∈ lowDigits width v) :
    ∃ d < 16, c = Nat.digitChar d := by
  induction width generalizing v with
  | zero => simp [lowDigits] at h
  | succ width ih =>
    simp only [lowDigits, List.mem_append, List.mem_singleton] at h
    rcases h with h | h
    · exact ih h
    · exact ⟨_, Nat.mod_lt _ (by decide), h⟩

/-- The digits of a number without leading zeros give it back. -/
theorem value?_toDigits (v : Nat) : value? (Nat.toDigits 16 v) = some v := by
  induction v using Nat.strongRecOn with
  | ind v ih =>
    rcases Nat.lt_or_ge v 16 with hv | hv
    · rw [Nat.toDigits_of_lt_base hv]
      simp [value?, digit?_digitChar v hv]
    · -- the last digit comes off
      rw [Nat.toDigits_of_base_le (by decide) hv, value?_append, ih (v / 16) (by omega),
        digit?_digitChar _ (Nat.mod_lt _ (by decide))]
      exact congrArg some (Nat.div_add_mod v 16)

/-- What has a value is made up of digits. -/
theorem isSome_digit?_of_value? {ds : List Char} {v : Nat} (h : value? ds = some v) :
    ∀ c ∈ ds, (digit? c).isSome := by
  induction ds using List.reverseRecOn generalizing v with
  | nil => exact fun c hc => absurd hc List.not_mem_nil
  | append_singleton ds d ih =>
    rw [value?_append, Option.bind_eq_some_iff] at h
    obtain ⟨front, hfront, hd⟩ := h
    obtain ⟨last, hlast, -⟩ := Option.map_eq_some_iff.mp hd
    intro c hc
    rcases List.mem_append.mp hc with hc | hc
    · exact ih hfront c hc
    · rw [List.mem_singleton.mp hc, hlast]
      rfl

theorem not_mem_of_value? {ds : List Char} {v : Nat} (h : value? ds = some v) {mark : Char}
    (hmark : digit? mark = none) : mark ∉ ds := by
  intro hmem
  have hsome := isSome_digit?_of_value? h mark hmem
  rw [hmark] at hsome
  cases hsome

end ChipEight.Hex
