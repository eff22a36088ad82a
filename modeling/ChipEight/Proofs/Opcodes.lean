import Mathlib.Algebra.Group.Nat.Defs
import ChipEight.Instruction

/-!
The opcode table as arithmetic. Each mask selects the highest nibble and some number of low bits,
so that a row accepts an opcode exactly when these two parts read as in its pattern. Two rows never
accept the same opcode (`eq_of_accepts`), hence decoding finds the row that accepts, if there is
one, whatever comes before it in the table (`decode_eq_some_iff`).
-/

namespace ChipEight

theorem opcodeWord_lt (opcode : Int) : opcodeWord opcode < 65536 := by
  rw [opcodeWord]
  omega

/-- An opcode of sixteen bits is its own word. -/
theorem opcodeWord_eq {opcode : Int} (h : 0 ≤ opcode ∧ opcode < 65536) :
    (opcodeWord opcode : Int) = opcode := by
  rw [opcodeWord]
  omega

/-- A mask of the highest nibble and `k` low bits. -/
theorem and_mask (n k : Nat) (hk : k ≤ 12) :
    n &&& (0xF000 + (2 ^ k - 1)) = n / 4096 % 16 * 4096 + n % 2 ^ k := by
  have hle : 2 ^ k ≤ 2 ^ 12 := Nat.pow_le_pow_right (by decide) hk
  have hpos : 0 < 2 ^ k := Nat.two_pow_pos k
  have hdiv : (n &&& (0xF000 + (2 ^ k - 1))) / 2 ^ 12 = n / 4096 % 16 := by
    rw [Nat.and_div_two_pow, show (0xF000 + (2 ^ k - 1)) / 2 ^ 12 = 2 ^ 4 - 1 by omega]
    exact Nat.and_two_pow_sub_one_eq_mod _ 4
  have hmod : (n &&& (0xF000 + (2 ^ k - 1))) % 2 ^ 12 = n % 2 ^ k := by
    rw [Nat.and_mod_two_pow, show (0xF000 + (2 ^ k - 1)) % 2 ^ 12 = 2 ^ k - 1 by omega,
      Nat.and_two_pow_sub_one_eq_mod]
    exact Nat.mod_mod_of_dvd n (Nat.pow_dvd_pow 2 hk)
  omega

namespace OpcodeRow

/-- How many low bits of an opcode the row looks at, as a power of two. -/
def low (row : OpcodeRow) : Nat := row.mask % 4096 + 1

/-- The masks of the table, each as the highest nibble and a number of low bits. -/
theorem mask_eq {row : OpcodeRow} (h : row ∈ opcodeTable) :
    ∃ k, k ≤ 12 ∧ row.mask = 0xF000 + (2 ^ k - 1) ∧ row.low = 2 ^ k := by
  have hall : ∀ row ∈ opcodeTable, ∃ k ∈ [0, 4, 8, 12],
      row.mask = 0xF000 + (2 ^ k - 1) ∧ row.low = 2 ^ k := by decide
  obtain ⟨k, hk, hmask, hlow⟩ := hall row h
  refine ⟨k, ?_, hmask, hlow⟩
  simp only [List.mem_cons, List.not_mem_nil, or_false] at hk
  omega

/-- A pattern has sixteen bits and none that its mask leaves out. -/
theorem pattern_eq {row : OpcodeRow} (h : row ∈ opcodeTable) :
    row.pattern = row.pattern / 4096 * 4096 + row.pattern % row.low ∧ row.pattern < 65536 ∧
      row.low ≤ 4096 := by
  have hall : ∀ row ∈ opcodeTable,
      row.pattern = row.pattern / 4096 * 4096 + row.pattern % row.low ∧ row.pattern < 65536 ∧
        row.low ≤ 4096 := by decide
  exact hall row h

/-- A row accepts an opcode if the highest nibble and the low bits are those of its pattern. -/
theorem accepts_iff {row : OpcodeRow} (h : row ∈ opcodeTable) (opcode : Int) :
    row.accepts opcode = true ↔ opcodeWord opcode / 4096 = row.pattern / 4096 ∧
      opcodeWord opcode % row.low = row.pattern % row.low := by
  obtain ⟨k, hk, hmask, hlow⟩ := mask_eq h
  obtain ⟨hpattern, hlt, hle⟩ := pattern_eq h
  have hword := opcodeWord_lt opcode
  have hpos : 0 < row.low := by rw [hlow]; exact Nat.two_pow_pos k
  have hw := Nat.mod_lt (opcodeWord opcode) hpos
  have hp := Nat.mod_lt row.pattern hpos
  rw [accepts, beq_iff_eq, hmask, and_mask _ k hk, ← hlow]
  constructor
  · intro heq
    exact ⟨by omega, by omega⟩
  · rintro ⟨hhigh, hrest⟩
    omega

/-- No opcode is accepted by two rows. -/
theorem eq_of_accepts {r s : OpcodeRow} (hr : r ∈ opcodeTable) (hs : s ∈ opcodeTable) {opcode : Int}
    (har : r.accepts opcode = true) (has : s.accepts opcode = true) : r = s := by
  have hall : ∀ r ∈ opcodeTable, ∀ s ∈ opcodeTable, r.low ∣ s.low →
      r.pattern / 4096 = s.pattern / 4096 → r.pattern % r.low = s.pattern % r.low → r = s := by
    decide
  obtain ⟨hrhigh, hrlow⟩ := (accepts_iff hr opcode).mp har
  obtain ⟨hshigh, hslow⟩ := (accepts_iff hs opcode).mp has
  -- the row that looks at fewer low bits sees the same ones as the other
  have hagree {a b : OpcodeRow} (hdvd : a.low ∣ b.low)
      (ha : opcodeWord opcode % a.low = a.pattern % a.low)
      (hb : opcodeWord opcode % b.low = b.pattern % b.low) :
      a.pattern % a.low = b.pattern % a.low := by
    rw [← ha, ← Nat.mod_mod_of_dvd _ hdvd, hb, Nat.mod_mod_of_dvd _ hdvd]
  obtain ⟨j, -, -, hj⟩ := mask_eq hr
  obtain ⟨k, -, -, hk⟩ := mask_eq hs
  rcases Nat.le_total j k with hle | hle
  · have hdvd : r.low ∣ s.low := by rw [hj, hk]; exact Nat.pow_dvd_pow 2 hle
    exact hall r hr s hs hdvd (hrhigh.symm.trans hshigh) (hagree hdvd hrlow hslow)
  · have hdvd : s.low ∣ r.low := by rw [hj, hk]; exact Nat.pow_dvd_pow 2 hle
    exact (hall s hs r hr hdvd (hshigh.symm.trans hrhigh) (hagree hdvd hslow hrlow)).symm

end OpcodeRow

/-! ### Decoding -/

theorem decode_eq_none_iff {opcode : Int} :
    decode opcode = none ↔ ∀ row ∈ opcodeTable, row.accepts opcode = false := by
  rw [decode, decodeWith]
  rw [Option.map_eq_none_iff, List.find?_eq_none]
  simp only [Bool.not_eq_true]

theorem decode_of_accepts {row : OpcodeRow} (h : row ∈ opcodeTable) {opcode : Int}
    (ha : row.accepts opcode = true) : decode opcode = some ⟨row.operation, opcode⟩ := by
  rw [decode, decodeWith]
  rcases hfind : opcodeTable.find? (·.accepts opcode) with _ | found
  · have := List.find?_eq_none.mp hfind row h
    contradiction
  · have heq := OpcodeRow.eq_of_accepts (List.mem_of_find?_eq_some hfind) h
      (List.find?_some (p := (OpcodeRow.accepts · opcode)) hfind) ha
    rw [hfind, heq]
    rfl

/-- Decoding gives the operation of the row that accepts, and keeps the opcode. -/
theorem decode_eq_some_iff {opcode : Int} {i : Instruction} :
    decode opcode = some i ↔
      i.opcode = opcode ∧ ∃ row ∈ opcodeTable, row.accepts opcode = true ∧
        row.operation = i.operation := by
  constructor
  · intro h
    obtain ⟨row, hfind, rfl⟩ := Option.map_eq_some_iff.mp h
    exact ⟨rfl, row, List.mem_of_find?_eq_some hfind,
      List.find?_some (p := (OpcodeRow.accepts · opcode)) hfind, rfl⟩
  · rintro ⟨rfl, row, hrow, ha, hop⟩
    rw [decode_of_accepts hrow ha, hop]

/-- A decoded opcode is the operation of a row exactly if the row accepts it. -/
theorem operation_eq_iff {opcode : Int} {i : Instruction} (h : decode opcode = some i)
    {row : OpcodeRow} (hrow : row ∈ opcodeTable) :
    i.operation = row.operation ↔ row.accepts opcode = true := by
  have honce : ∀ r ∈ opcodeTable, ∀ s ∈ opcodeTable, r.operation = s.operation → r = s := by
    decide
  obtain ⟨-, found, hfound, hf, hop⟩ := decode_eq_some_iff.mp h
  constructor
  · intro heq
    rw [← honce found hfound row hrow (hop.trans heq)]
    exact hf
  · intro ha
    rw [← hop, OpcodeRow.eq_of_accepts hfound hrow hf ha]

/-! ### The rows that use the stack -/

/-- The row of the subroutine call. -/
def callRow : OpcodeRow := ⟨0xF000, 0x2000, .call⟩

/-- The row of the return. -/
def retRow : OpcodeRow := ⟨0xFFFF, 0x00EE, .ret⟩

theorem callRow_mem : callRow ∈ opcodeTable := by decide

theorem retRow_mem : retRow ∈ opcodeTable := by decide

/-- A call is an opcode with the highest nibble 2. -/
theorem accepts_callRow_iff {opcode : Int} (h : 0 ≤ opcode ∧ opcode < 65536) :
    callRow.accepts opcode = true ↔ opcode / 4096 = 2 := by
  have hword := opcodeWord_eq h
  rw [OpcodeRow.accepts_iff callRow_mem]
  change opcodeWord opcode / 4096 = 2 ∧ opcodeWord opcode % 1 = 0 ↔ _
  omega

/-- A return is the opcode 00EE. -/
theorem accepts_retRow_iff {opcode : Int} (h : 0 ≤ opcode ∧ opcode < 65536) :
    retRow.accepts opcode = true ↔ opcode = 0x00EE := by
  have hword := opcodeWord_eq h
  rw [OpcodeRow.accepts_iff retRow_mem]
  change opcodeWord opcode / 4096 = 0 ∧ opcodeWord opcode % 4096 = 0xEE ↔ _
  omega

end ChipEight
