import ChipEight.Proofs.CarriedOut
import ChipEight.Proofs.Footprint

/-!
What the arithmetic instructions compute. A subtraction leaves the difference modulo 256 and says in
the flag that it did not have to borrow, so that result and flag together make up the exact
difference. That holds but for equal terms: there nothing is borrowed and the flag is zero all the
same (`difference_exact_iff`).

All of the group work out what they leave from the registers as they find them, before they write
any of it. So it makes no difference which of their registers are the same one, or the flag: the
result is what it should be, it stays in the flag if it goes there, and elsewhere a sum or a shift
loses nothing as long as the flag is read with it (`arithmetic_computed`).
-/

namespace ChipEight

/-! ### Results and reports -/

/-- The operations that report in the flag on the result of their arithmetic. -/
def Operation.reports : List Operation := [.addReg, .sub, .subFrom, .shiftRight, .shiftLeft]

/-- The result of an arithmetic or bitwise instruction that finds these bytes in its registers. -/
def Instruction.result? (i : Instruction) (a b : Int) : Option Int :=
  match i.operation with
  | .addByte => some ((a + i.kk) % 256)
  | .loadReg => some b
  | .bitOr => some (a.toNat ||| b.toNat : Nat)
  | .bitAnd => some (a.toNat &&& b.toNat : Nat)
  | .bitXor => some (a.toNat ^^^ b.toNat : Nat)
  | .addReg => some ((a + b) % 256)
  | .sub => some ((a - b) % 256)
  | .subFrom => some ((b - a) % 256)
  | .shiftRight => some (a / 2)
  | .shiftLeft => some (2 * a % 256)
  | _ => none

/-- What such an instruction reports: a carry, that nothing is borrowed, or the bit shifted out. -/
def Instruction.report? (i : Instruction) (a b : Int) : Option Bool :=
  match i.operation with
  | .addReg => some (255 < a + b)
  | .sub => some (b < a)
  | .subFrom => some (a < b)
  | .shiftRight => some (a % 2 == 1)
  | .shiftLeft => some (a / 128 % 2 == 1)
  | _ => none

theorem Byte.toNat_wrap_of_isByte {v : Int} (h : IsByte v) : (Byte.wrap v).toNat = v.toNat := by
  have hwrap := Byte.toNat_wrap v
  omega

theorem Instruction.isByte_result {i : Instruction} {a b c : Int} (ha : IsByte a) (hb : IsByte b)
    (h : i.result? a b = some c) : IsByte c := by
  obtain ⟨operation, opcode⟩ := i
  have hleft : a.toNat < 2 ^ 8 := by omega
  have hright : b.toNat < 2 ^ 8 := by omega
  cases operation <;> cases h
  case addByte | addReg | sub | subFrom | shiftLeft => exact isByte_emod _
  case loadReg => exact hb
  case shiftRight => exact ⟨by omega, by omega⟩
  case bitOr =>
    have hlt := Nat.or_lt_two_pow hleft hright
    exact ⟨by omega, by omega⟩
  case bitAnd =>
    have hlt := Nat.and_lt_two_pow a.toNat hright
    exact ⟨by omega, by omega⟩
  case bitXor =>
    have hlt := Nat.xor_lt_two_pow hleft hright
    exact ⟨by omega, by omega⟩

namespace Machine

variable {i : Instruction} {m m' : Machine}

/-! ### A result and its flag -/

theorem v_assignWithFlag_self (m : Machine) (x : Fin 16) (value : Int) (flag : Bool) :
    (m.assignWithFlag x value flag).v x = value % 256 :=
  v_assign_self _ x value

theorem v_assignWithFlag_flag (m : Machine) {x : Fin 16} (hx : x ≠ Registers.flagNumber)
    (value : Int) (flag : Bool) :
    (m.assignWithFlag x value flag).v Registers.flagNumber = flag.toInt := by
  rw [assignWithFlag, v_assign_of_ne _ hx.symm, v_assign_self]
  cases flag <;> rfl

/-! ### Subtraction -/

/-- The terms of a subtraction: the second is taken from the first. -/
def terms? (m : Machine) (i : Instruction) : Option (Int × Int) :=
  match i.operation with
  | .sub => some (m.v i.x, m.v i.y)
  | .subFrom => some (m.v i.y, m.v i.x)
  | _ => none

/-- Both subtractions do the same with their terms. -/
theorem execute_of_terms {a b : Int} (h : m.terms? i = some (a, b)) (keys : Keys)
    (random : Nat → Int) :
    m.execute keys random i = .ok (m.assignWithFlag i.x ((a - b) % 256) (b < a)) := by
  obtain ⟨operation, opcode⟩ := i
  cases operation <;> cases h <;> rfl

theorem isByte_of_terms (hm : m.InBounds) {a b : Int} (h : m.terms? i = some (a, b)) :
    IsByte a ∧ IsByte b := by
  have hx := hm.registers i.x
  have hy := hm.registers i.y
  obtain ⟨operation, opcode⟩ := i
  cases operation <;> cases h
  case sub => exact ⟨hx, hy⟩
  case subFrom => exact ⟨hy, hx⟩

/-- Of two bytes, the difference modulo 256 and a flag that tells whether the second is the smaller
one make up the exact difference unless the bytes are equal. -/
theorem sub_eq_iff_ne {a b : Int} (ha : IsByte a) (hb : IsByte b) :
    a - b = (a - b) % 256 - 256 * (1 - (decide (b < a)).toInt) ↔ a ≠ b := by
  obtain ⟨ha0, ha⟩ := ha
  obtain ⟨hb0, hb⟩ := hb
  by_cases hlt : b < a
  · rw [decide_eq_true hlt, Bool.toInt_true]
    omega
  · rw [decide_eq_false hlt, Bool.toInt_false]
    omega

/-- A subtraction leaves the exact difference in result and flag if and only if its terms differ.
From equal terms it leaves zero in both, as if it had borrowed. -/
theorem difference_exact_iff (h : m.CarriedOut i m') {a b : Int} (hterms : m.terms? i = some (a, b))
    (hx : i.x ≠ Registers.flagNumber) :
    (a - b = m'.v i.x - 256 * (1 - m'.v Registers.flagNumber) ↔ a ≠ b) ∧
      (a = b → m'.v i.x = 0 ∧ m'.v Registers.flagNumber = 0) := by
  obtain ⟨ha, hb⟩ := isByte_of_terms h.inBounds hterms
  have hleft := h.v_of_execute (execute_of_terms hterms)
  rw [hleft, hleft, v_assignWithFlag_self, v_assignWithFlag_flag _ hx, Int.emod_emod]
  refine ⟨sub_eq_iff_ne ha hb, ?_⟩
  rintro rfl
  simp

/-- V0 and V1 hold five and nine. -/
def unequal : Machine :=
  (start 0).serve [.execute 0x6005 false (holding []), .execute 0x6109 false (holding [])]

theorem difference_exact_unequal :
    let m' := (unequal.perform false (holding []) ⟨.sub, 0x8015⟩).machine
    unequal.v 0 = 5 ∧ unequal.v 1 = 9 ∧ 5 - 9 = m'.v 0 - 256 * (1 - m'.v Registers.flagNumber) := by
  have hreach : unequal.Reachable := ⟨0, _, rfl⟩
  have hterms : unequal.terms? ⟨.sub, 0x8015⟩ = some (5, 9) := by decide +kernel
  have hdone := CarriedOut.alone (i := ⟨.sub, 0x8015⟩) hreach false (holding [])
  obtain ⟨hexact, -⟩ := difference_exact_iff hdone hterms (by decide)
  exact ⟨by decide +kernel, by decide +kernel, hexact.mpr (by decide)⟩

/-- Zero taken from zero borrows nothing, and the flag says that it does. -/
theorem difference_of_equals_not_exact :
    (given [0x80, 0x15]).Reachable ∧
      (given [0x80, 0x15]).performed (holding []) = some ⟨.sub, 0x8015⟩ ∧
      let m' := ((given [0x80, 0x15]).cycle false (holding [])).machine
      ¬ (given [0x80, 0x15]).v 0 - (given [0x80, 0x15]).v 1 =
        m'.v 0 - 256 * (1 - m'.v Registers.flagNumber) :=
  ⟨⟨0, _, rfl⟩, by decide +kernel, by decide +kernel⟩

/-! ### The whole group -/

/-- Puts a result into a register, behind a report in the flag if there is one. -/
def deliver (m : Machine) (x : Fin 16) (value : Int) : Option Bool → Machine
  | none => m.assign x value
  | some flag => m.assignWithFlag x value flag

theorem v_deliver_self (m : Machine) (x : Fin 16) (value : Int) (report : Option Bool) :
    (m.deliver x value report).v x = value % 256 := by
  cases report with
  | none => exact v_assign_self m x value
  | some flag => exact v_assignWithFlag_self m x value flag

theorem v_deliver_of_ne (m : Machine) {x r : Fin 16} (hx : r ≠ x) (value : Int)
    {report : Option Bool} (hflag : report.isSome = true → r ≠ Registers.flagNumber) :
    (m.deliver x value report).v r = m.v r := by
  cases report with
  | none => exact v_assign_of_ne m hx value
  | some flag => exact v_assignWithFlag_of_ne m hx (hflag rfl) value flag

theorem isSome_report_iff {a b : Int} :
    (i.report? a b).isSome = true ↔ i.operation ∈ Operation.reports := by
  obtain ⟨operation, opcode⟩ := i
  cases operation <;> simp [Instruction.report?, Operation.reports]

/-- Each instruction of the group delivers its result and its report. -/
theorem execute_of_result (hm : m.InBounds) {c : Int}
    (hc : i.result? (m.v i.x) (m.v i.y) = some c) (keys : Keys) (random : Nat → Int) :
    m.execute keys random i = .ok (m.deliver i.x c (i.report? (m.v i.x) (m.v i.y))) := by
  have hx := Byte.toNat_wrap_of_isByte (hm.registers i.x)
  have hy := Byte.toNat_wrap_of_isByte (hm.registers i.y)
  obtain ⟨operation, opcode⟩ := i
  cases operation <;> cases hc
  case bitOr | bitAnd | bitXor =>
    simp only [execute, combine, Byte.toInt, UInt8.toNat_or, UInt8.toNat_and, UInt8.toNat_xor, hx,
      hy]
    rfl
  all_goals rfl

/-- Of two bytes, the sum modulo 256 and the carry make up the sum. -/
theorem carry_add_eq {a b : Int} (ha : IsByte a) (hb : IsByte b) :
    256 * (decide (255 < a + b)).toInt + (a + b) % 256 = a + b := by
  by_cases hcarry : 255 < a + b
  · rw [decide_eq_true hcarry, Bool.toInt_true]
    omega
  · rw [decide_eq_false hcarry, Bool.toInt_false]
    omega

/-- The lowest bit of a number, as a report. -/
theorem toInt_lowestBit (v : Int) : (v % 2 == 1).toInt = v % 2 := by
  have hbit : v % 2 = 0 ∨ v % 2 = 1 := by omega
  rcases hbit with h | h <;> rw [h] <;> rfl

/-- What an instruction of the group has made of the machine that it has found. -/
structure Computed (m : Machine) (i : Instruction) (c : Int) (m' : Machine) : Prop where
  completes : ∀ keys random, (m.execute keys random i).isOk = true
  result : m'.v i.x = c
  sum : i.operation = .addReg → i.x ≠ Registers.flagNumber →
    256 * m'.v Registers.flagNumber + m'.v i.x = m.v i.x + m.v i.y
  half : i.operation = .shiftRight → i.x ≠ Registers.flagNumber →
    2 * m'.v i.x + m'.v Registers.flagNumber = m.v i.x
  double : i.operation = .shiftLeft → i.x ≠ Registers.flagNumber →
    256 * m'.v Registers.flagNumber + m'.v i.x = 2 * m.v i.x
  flag : i.operation ∈ Operation.reports → i.x ≠ Registers.flagNumber →
    m'.v Registers.flagNumber = 0 ∨ m'.v Registers.flagNumber = 1
  registers : ∀ r, r ≠ i.x → (i.operation ∈ Operation.reports → r ≠ Registers.flagNumber) →
    m'.v r = m.v r
  rest : m' = { m with registers := m'.registers, buzzer := m'.buzzer }

/-- An arithmetic or bitwise instruction completes and leaves its result, whichever of its registers
are one and the same, and in the flag as well. Where the flag is not itself the destination, a sum
and a shift can be told from result and flag. Nothing else changes. -/
theorem arithmetic_computed (h : m.CarriedOut i m') {c : Int}
    (hc : i.result? (m.v i.x) (m.v i.y) = some c) : m.Computed i c m' := by
  have hx := h.inBounds.registers i.x
  have hy := h.inBounds.registers i.y
  have hexec := execute_of_result h.inBounds hc
  have hresult : m'.v i.x = c := by
    rw [h.v_of_execute hexec, v_deliver_self]
    have hbyte := Instruction.isByte_result hx hy hc
    omega
  have hflag : ∀ flag, i.report? (m.v i.x) (m.v i.y) = some flag → i.x ≠ Registers.flagNumber →
      m'.v Registers.flagNumber = flag.toInt := by
    intro flag hreport hne
    rw [h.v_of_execute hexec, hreport]
    exact v_assignWithFlag_flag m hne c flag
  refine ⟨fun keys random => by rw [hexec]; rfl, hresult, ?_, ?_, ?_, ?_, ?_, ?_⟩
  · -- sum
    intro hop hne
    simp only [Instruction.report?, Instruction.result?, hop, Option.some.injEq] at hflag hc
    rw [hresult, hflag _ rfl hne, ← hc]
    exact carry_add_eq hx hy
  · -- half
    intro hop hne
    simp only [Instruction.report?, Instruction.result?, hop, Option.some.injEq] at hflag hc
    rw [hresult, hflag _ rfl hne, ← hc, toInt_lowestBit]
    omega
  · -- double
    intro hop hne
    simp only [Instruction.report?, Instruction.result?, hop, Option.some.injEq] at hflag hc
    rw [hresult, hflag _ rfl hne, ← hc, toInt_lowestBit]
    omega
  · -- flag
    intro hreports hne
    obtain ⟨flag, hreport⟩ := Option.isSome_iff_exists.mp (isSome_report_iff.mpr hreports)
    rw [hflag flag hreport hne]
    cases flag <;> simp
  · -- registers
    intro r hr hother
    rw [h.v_of_execute hexec]
    exact v_deliver_of_ne m hr c fun hsome => hother (isSome_report_iff.mp hsome)
  · -- rest
    obtain ⟨b, rfl⟩ := h.eq_of_execute hexec
    cases i.report? (m.v i.x) (m.v i.y) <;> rfl

/-- V0 and the flag hold two hundred and one hundred. -/
def flagged : Machine :=
  (start 0).serve [.execute 0x60C8 false (holding []), .execute 0x6F64 false (holding [])]

/-- The flag is added to V0 and then told the carry; added to itself, it keeps the sum. -/
theorem arithmetic_computed_flagged :
    let m' := (flagged.perform false (holding []) ⟨.addReg, 0x80F4⟩).machine
    256 * m'.v Registers.flagNumber + m'.v 0 = 300 ∧
      (flagged.perform false (holding []) ⟨.addReg, 0x8FF4⟩).machine.v Registers.flagNumber =
        200 := by
  intro m'
  have hreach : flagged.Reachable := ⟨0, _, rfl⟩
  have hadded := arithmetic_computed (i := ⟨.addReg, 0x80F4⟩) (c := 44)
    (CarriedOut.alone hreach false (holding [])) (by decide +kernel)
  have hdoubled := arithmetic_computed (i := ⟨.addReg, 0x8FF4⟩) (c := 200)
    (CarriedOut.alone hreach false (holding [])) (by decide +kernel)
  refine ⟨?_, hdoubled.result⟩
  exact (hadded.sum rfl (by decide)).trans (by decide +kernel)

end Machine

end ChipEight
