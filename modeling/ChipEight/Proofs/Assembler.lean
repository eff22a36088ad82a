import ChipEight.Machine.Execute
import ChipEight.Proofs.Legible

/-!
Assembly lines read back. The row of the opcode table that has the mnemonic of a line and takes its
operands puts their bits beside its pattern (`assemble?`). A row's mask and the bits that its line
shows make up the whole opcode, but for the third digit of a shift (`OpcodeRow.told_eq`), so an
instruction comes back from its line as far as it matters (`assemble?_assembly`), and two lines are
the same only if the instructions agree (`Instruction.assembly_eq_iff_agree`).
-/

namespace ChipEight

/-! ### The operands of a line -/

/-- The bits that operands put into an opcode, each in the place of its piece. -/
def placeAll? : List Piece → List Operand → Option Nat
  | [], [] => some 0
  | p :: ps, operand :: operands => do
      let bits ← p.place? operand
      let rest ← placeAll? ps operands
      return bits ||| rest
  | _, _ => none

/-- The bits of an opcode that pieces show together. -/
def shownMask (ps : List Piece) : Nat := ps.foldr (fun p mask => p.mask ||| mask) 0

/-- Only one list of blanks takes the operands. -/
theorem blanks_of_placeAll? {ps : List Piece} {operands : List Operand} {bits : Nat}
    (h : placeAll? ps operands = some bits) :
    ps.map Piece.blank? = operands.map fun operand => some operand.blank := by
  induction ps generalizing operands bits with
  | nil =>
    cases operands with
    | nil => rfl
    | cons => simp [placeAll?] at h
  | cons p ps ih =>
    cases operands with
    | nil => simp [placeAll?] at h
    | cons operand operands =>
      simp only [placeAll?, Option.bind_eq_bind, Option.bind_eq_some_iff] at h
      obtain ⟨own, hown, rest, hrest, -⟩ := h
      rw [List.map_cons, List.map_cons, Piece.blank?_of_place? hown, ih hrest]

/-- Pieces that are legible are read back together. -/
theorem placeAll?_fill {ps : List Piece} {i : Instruction} (h : ∀ p ∈ ps, p.Legible i) :
    ∃ operands, (ps.map fun p => (p.fill i).toList).mapM Operand.ofWord? = some operands ∧
      placeAll? ps operands = some (opcodeWord i.opcode &&& shownMask ps) := by
  induction ps with
  | nil => exact ⟨[], by simp, by simp [placeAll?, shownMask]⟩
  | cons p ps ih =>
    obtain ⟨operand, hread, hplace⟩ := (h p List.mem_cons_self).placed
    obtain ⟨operands, hreads, hplaces⟩ := ih fun q hq => h q (List.mem_cons_of_mem _ hq)
    refine ⟨operand :: operands, ?_, ?_⟩
    · simp [hread, hreads]
    · rw [shownMask, List.foldr_cons, ← shownMask, Nat.and_or_distrib_left, placeAll?, hplace,
        hplaces]
      rfl

/-! ### The assembler -/

/-- The instruction that a row makes of a mnemonic and operands, if they are the row's own. -/
def OpcodeRow.assemble? (row : OpcodeRow) (mnemonic : List Char) (operands : List Operand) :
    Option Instruction :=
  if row.operation.mnemonic.toList = mnemonic then
    (placeAll? row.operation.operands operands).map fun bits =>
      ⟨row.operation, (row.pattern ||| bits : Nat)⟩
  else none

/-- The instruction that an assembly line stands for. -/
def assemble? (line : String) : Option Instruction :=
  match lineWords line with
  | [] => none
  | mnemonic :: words => do
      let operands ← words.mapM Operand.ofWord?
      opcodeTable.findSome? fun row => row.assemble? mnemonic operands

/-- Two rows that make an instruction of the same words are one. -/
theorem OpcodeRow.eq_of_assemble? {r s : OpcodeRow} (hr : r ∈ opcodeTable) (hs : s ∈ opcodeTable)
    {mnemonic : List Char} {operands : List Operand} {i j : Instruction}
    (hi : r.assemble? mnemonic operands = some i) (hj : s.assemble? mnemonic operands = some j) :
    r = s := by
  have hall : ∀ r ∈ opcodeTable, ∀ s ∈ opcodeTable,
      r.operation.mnemonic = s.operation.mnemonic →
      r.operation.operands.map Piece.blank? = s.operation.operands.map Piece.blank? → r = s := by
    decide +kernel
  simp only [assemble?, Option.ite_none_right_eq_some, Option.map_eq_some_iff] at hi hj
  obtain ⟨hmr, _, hpr, -⟩ := hi
  obtain ⟨hms, _, hps, -⟩ := hj
  refine hall r hr s hs (String.toList_inj.mp (hmr.trans hms.symm)) ?_
  rw [blanks_of_placeAll? hpr, blanks_of_placeAll? hps]

/-- Shifts show one register, and the third digit of their opcodes counts for nothing. -/
def Operation.Shifts (o : Operation) : Prop := o = .shiftRight ∨ o = .shiftLeft

instance (o : Operation) : Decidable o.Shifts := inferInstanceAs (Decidable (_ ∨ _))

/-- The bits of an opcode that its assembly line tells. -/
def Operation.told (o : Operation) : Nat := if o.Shifts then 0xFF0F else 0xFFFF

/-- They are the bits that select the operation and the bits that are shown as operands. -/
theorem OpcodeRow.told_eq {row : OpcodeRow} (h : row ∈ opcodeTable) :
    row.mask ||| shownMask row.operation.operands = row.operation.told := by
  have hall : ∀ row ∈ opcodeTable,
      row.mask ||| shownMask row.operation.operands = row.operation.told := by decide
  exact hall row h

/-- The line of an instruction gives back its operation, and its opcode in the bits told. -/
theorem assemble?_assembly {opcode : Int} {i : Instruction} (h : decode opcode = some i) :
    assemble? i.assembly =
      some ⟨i.operation, (opcodeWord opcode &&& i.operation.told : Nat)⟩ := by
  obtain ⟨rfl, row, hrow, ha, hop⟩ := decode_eq_some_iff.mp h
  have hlegible : ∀ p ∈ i.operation.operands, p.Legible i := fun p hp => Piece.legible i hp
  obtain ⟨operands, hread, hplace⟩ := placeAll?_fill hlegible
  have hpattern : opcodeWord i.opcode &&& row.mask = row.pattern := by
    simpa [OpcodeRow.accepts] using ha
  have hown : row.assemble? i.operation.mnemonic.toList operands =
      some ⟨i.operation, (opcodeWord i.opcode &&& i.operation.told : Nat)⟩ := by
    rw [OpcodeRow.assemble?, hop, if_pos rfl, hplace, ← hpattern, ← hop, ← OpcodeRow.told_eq hrow,
      Nat.and_or_distrib_left]
    rfl
  have hwords : lineWords i.assembly =
      i.operation.mnemonic.toList :: i.operation.operands.map fun p => (p.fill i).toList :=
    lineWords_line fun p hp => (hlegible p hp).unbroken
  rw [assemble?, hwords]
  simp only [hread, Option.bind_eq_bind, Option.bind_some]
  -- the row is found, as no row before it takes the same words
  rcases hfind : opcodeTable.findSome? (·.assemble? i.operation.mnemonic.toList operands) with
    _ | found
  · have hnone := List.findSome?_eq_none_iff.mp hfind row hrow
    simp [hown] at hnone
  · obtain ⟨other, hother, hfound⟩ := List.exists_of_findSome?_eq_some hfind
    rw [OpcodeRow.eq_of_assemble? hother hrow hfound hown, hown] at hfound
    exact hfind.trans hfound.symm

/-! ### Instructions that agree -/

namespace Instruction

/-- The instructions have the operation in common and every operand that it uses. A shift uses no
more than the one register. -/
structure Agree (i j : Instruction) : Prop where
  operation : i.operation = j.operation
  x : i.x = j.x
  rest : ¬ i.operation.Shifts → i.y = j.y ∧ i.n = j.n ∧ i.kk = j.kk ∧ i.nnn = j.nnn

namespace Agree

variable {i j k : Instruction}

theorem symm (h : i.Agree j) : j.Agree i := by
  refine ⟨h.operation.symm, h.x.symm, fun hshift => ?_⟩
  obtain ⟨hy, hn, hkk, hnnn⟩ := h.rest (h.operation ▸ hshift)
  exact ⟨hy.symm, hn.symm, hkk.symm, hnnn.symm⟩

theorem trans (h : i.Agree j) (h' : j.Agree k) : i.Agree k := by
  refine ⟨h.operation.trans h'.operation, h.x.trans h'.x, fun hshift => ?_⟩
  obtain ⟨hy, hn, hkk, hnnn⟩ := h.rest hshift
  obtain ⟨hy', hn', hkk', hnnn'⟩ := h'.rest (h.operation ▸ hshift)
  exact ⟨hy.trans hy', hn.trans hn', hkk.trans hkk', hnnn.trans hnnn'⟩

/-- Instructions that agree have the same line. -/
theorem assembly_eq (h : i.Agree j) : i.assembly = j.assembly := by
  obtain ⟨o, a⟩ := i
  obtain ⟨o', b⟩ := j
  obtain ⟨rfl, hx, hrest⟩ := h
  by_cases hshift : o.Shifts
  · rcases hshift with rfl | rfl <;>
      simp [assembly, Operation.line, Operation.operands, Piece.fill, hx]
  · obtain ⟨hy, hn, hkk, hnnn⟩ := hrest hshift
    have hfill : Piece.fill ⟨o, a⟩ = Piece.fill ⟨o, b⟩ := by
      funext p
      cases p <;> simp only [Piece.fill, hx, hy, hn, hkk, hnnn]
    rw [assembly, assembly, hfill]

/-- Instructions that agree do the same to every machine. -/
theorem execute_eq (h : i.Agree j) (keys : Keys) (random : Nat → Int) (m : Machine) :
    m.execute keys random i = m.execute keys random j := by
  obtain ⟨o, a⟩ := i
  obtain ⟨o', b⟩ := j
  obtain ⟨rfl, hx, hrest⟩ := h
  by_cases hshift : o.Shifts
  · rcases hshift with rfl | rfl <;> simp only [Machine.execute, hx]
  · obtain ⟨hy, hn, hkk, hnnn⟩ := hrest hshift
    simp only [Machine.execute, hx, hy, hn, hkk, hnnn]

end Agree

/-- Instructions of one operation agree if their opcodes do in the bits told. -/
theorem agree_of_told {i j : Instruction} (hop : i.operation = j.operation)
    (h : opcodeWord i.opcode &&& i.operation.told = opcodeWord j.opcode &&& i.operation.told) :
    i.Agree j := by
  have hfield (p : Piece) (hmask : i.operation.told &&& p.mask = p.mask) :
      opcodeWord i.opcode &&& p.mask = opcodeWord j.opcode &&& p.mask := by
    rw [← hmask, ← Nat.and_assoc, h, Nat.and_assoc]
  obtain ⟨hx, hy, hn, hkk, hnnn⟩ := i.and_mask_eq
  obtain ⟨hx', hy', hn', hkk', hnnn'⟩ := j.and_mask_eq
  refine ⟨hop, ?_, fun hshift => ?_⟩
  · have hsame := hfield .regX (by rw [Operation.told]; split <;> rfl)
    exact Fin.ext (by omega)
  · have htold : i.operation.told = 0xFFFF := if_neg hshift
    have hy'' := hfield .regY (by rw [htold]; rfl)
    have hn'' := hfield .count (by rw [htold]; rfl)
    have hkk'' := hfield .byte (by rw [htold]; rfl)
    have hnnn'' := hfield .address (by rw [htold]; rfl)
    have hoperands := i.operands_eq
    have hoperands' := j.operands_eq
    exact ⟨Fin.ext (by omega), by omega, by omega, by omega⟩

/-- What is assembled from the line of an instruction agrees with it. -/
theorem agree_told {i : Instruction} :
    Agree ⟨i.operation, (opcodeWord i.opcode &&& i.operation.told : Nat)⟩ i := by
  have hle : opcodeWord i.opcode &&& i.operation.told ≤ opcodeWord i.opcode := Nat.and_le_left
  have hlt := opcodeWord_lt i.opcode
  have hword : opcodeWord (opcodeWord i.opcode &&& i.operation.told : Nat) =
      opcodeWord i.opcode &&& i.operation.told :=
    Int.ofNat_inj.mp (opcodeWord_eq ⟨by omega, by omega⟩)
  refine agree_of_told rfl ?_
  rw [hword, Nat.and_assoc, Nat.and_self]

variable {a b : Int} {i j : Instruction}

/-- Lines are the same only if the instructions agree. -/
theorem assembly_eq_iff_agree (hi : decode a = some i) (hj : decode b = some j) :
    i.assembly = j.assembly ↔ i.Agree j := by
  obtain ⟨rfl, -⟩ := decode_eq_some_iff.mp hi
  obtain ⟨rfl, -⟩ := decode_eq_some_iff.mp hj
  refine ⟨fun h => ?_, Agree.assembly_eq⟩
  have hsame := (assemble?_assembly hi).symm.trans (h ▸ assemble?_assembly hj)
  exact agree_told.symm.trans (Option.some.inj hsame ▸ agree_told)

/-- An opcode spelled in a form is decoded to its operation. -/
theorem operation_eq_of_spelled (hi : decode a = some i) {o : Operation} (h : Spelled o.form a) :
    i.operation = o := by
  have hdecode : decode a = some ⟨o, a⟩ := decode_eq_some_iff_spelled.mpr ⟨rfl, h⟩
  rw [hi] at hdecode
  rw [Option.some.inj hdecode]

/-- Opcodes that are the same in sixteen bits stand for instructions that agree. -/
theorem agree_of_emod_eq (hi : decode a = some i) (hj : decode b = some j)
    (h : a % 65536 = b % 65536) : i.Agree j := by
  obtain ⟨rfl, row, hrow, ha, hop⟩ := decode_eq_some_iff.mp hi
  obtain ⟨rfl, -⟩ := decode_eq_some_iff.mp hj
  have hword : opcodeWord i.opcode = opcodeWord j.opcode := by rw [opcodeWord, opcodeWord, h]
  have hb : row.accepts j.opcode = true := by rwa [OpcodeRow.accepts, ← hword]
  have hop' : j.operation = row.operation := (operation_eq_iff hj hrow).mpr hb
  exact agree_of_told (hop.symm.trans hop'.symm) (by rw [hword])

/-- Shifts of one register agree. -/
theorem agree_of_shifts {o : Operation} (ho : o.Shifts) (hi : decode a = some i)
    (hj : decode b = some j) (ha : Spelled o.form a) (hb : Spelled o.form b) (hx : i.x = j.x) :
    i.Agree j := by
  have hop : i.operation = o := operation_eq_of_spelled hi ha
  have hop' : j.operation = o := operation_eq_of_spelled hj hb
  exact ⟨hop.trans hop'.symm, hx, fun hshift => absurd (hop ▸ ho) hshift⟩

/-- An operation that is no shift leaves no bit of its opcodes idle. -/
theorem Agree.emod_eq (h : i.Agree j) (hi : decode a = some i) (hj : decode b = some j)
    (hshift : ¬ i.operation.Shifts) : a % 65536 = b % 65536 := by
  obtain ⟨rfl, row, hrow, ha, hop⟩ := decode_eq_some_iff.mp hi
  obtain ⟨rfl, -⟩ := decode_eq_some_iff.mp hj
  obtain ⟨-, -, -, hnnn⟩ := h.rest hshift
  have hb := (operation_eq_iff hj hrow).mp (h.operation.symm.trans hop.symm)
  obtain ⟨hhigh, -⟩ := (OpcodeRow.accepts_iff hrow i.opcode).mp ha
  obtain ⟨hhigh', -⟩ := (OpcodeRow.accepts_iff hrow j.opcode).mp hb
  simp only [nnn, opcodeWord] at hnnn hhigh hhigh'
  omega

/-- Instructions that agree are of one opcode, unless the operation leaves a digit of it idle. -/
theorem agree_iff (hi : decode a = some i) (hj : decode b = some j) :
    i.Agree j ↔ a % 65536 = b % 65536 ∨
      (Spelled "8xy6" a ∧ Spelled "8xy6" b ∧ i.x = j.x) ∨
      (Spelled "8xyE" a ∧ Spelled "8xyE" b ∧ i.x = j.x) := by
  constructor
  · intro h
    by_cases hshift : i.operation.Shifts
    · have ha := (decode_eq_some_iff_spelled.mp hi).2
      have hb := (decode_eq_some_iff_spelled.mp hj).2
      rw [← h.operation] at hb
      rcases hshift with hright | hleft
      · rw [hright] at ha hb
        exact .inr (.inl ⟨ha, hb, h.x⟩)
      · rw [hleft] at ha hb
        exact .inr (.inr ⟨ha, hb, h.x⟩)
    · exact .inl (h.emod_eq hi hj hshift)
  · rintro (h | ⟨ha, hb, hx⟩ | ⟨ha, hb, hx⟩)
    · exact agree_of_emod_eq hi hj h
    · exact agree_of_shifts (o := .shiftRight) (.inl rfl) hi hj ha hb hx
    · exact agree_of_shifts (o := .shiftLeft) (.inr rfl) hi hj ha hb hx

/-- The assembly line identifies the instruction: two opcodes have the same line only if they are
the same in sixteen bits, or are the same shift of the same register. The assembler gives back the
operation and the operands that it uses, hence what the instruction does. -/
theorem assembly_identifies (hi : decode a = some i) (hj : decode b = some j) :
    (i.assembly = j.assembly ↔ a % 65536 = b % 65536 ∨
      (Spelled "8xy6" a ∧ Spelled "8xy6" b ∧ i.x = j.x) ∨
      (Spelled "8xyE" a ∧ Spelled "8xyE" b ∧ i.x = j.x)) ∧
    ∃ k, assemble? i.assembly = some k ∧ k.Agree i ∧
      ∀ keys random m, Machine.execute keys random k m = Machine.execute keys random i m := by
  obtain ⟨rfl, -⟩ := decode_eq_some_iff.mp hi
  refine ⟨(assembly_eq_iff_agree hi hj).trans (agree_iff hi hj), _, assemble?_assembly hi,
    agree_told, agree_told.execute_eq⟩

/-- Two shifts of one register, the second with a bit too many, have one line. -/
theorem assembly_identifies_shifts :
    decode 0x8AB6 = some ⟨.shiftRight, 0x8AB6⟩ ∧ decode 0x18AC6 = some ⟨.shiftRight, 0x18AC6⟩ ∧
      (Instruction.mk .shiftRight 0x8AB6).assembly =
        (Instruction.mk .shiftRight 0x18AC6).assembly ∧
      ∃ k, assemble? (Instruction.mk .shiftRight 0x8AB6).assembly = some k ∧ k.x.val = 0xA := by
  have hi : decode 0x8AB6 = some ⟨.shiftRight, 0x8AB6⟩ := by decide
  have hj : decode 0x18AC6 = some ⟨.shiftRight, 0x18AC6⟩ := by decide
  obtain ⟨hline, k, hk, hagree, -⟩ := assembly_identifies hi hj
  refine ⟨hi, hj, hline.mpr (.inr (.inl ⟨?_, ?_, by decide⟩)), k, hk, ?_⟩
  · exact (decode_eq_some_iff_spelled.mp hi).2
  · exact (decode_eq_some_iff_spelled.mp hj).2
  · rw [hagree.x]
    decide

end Instruction

example : assemble? "LD [I], V3" = some ⟨.storeRegs, 0xF355⟩ := by decide +kernel

end ChipEight
