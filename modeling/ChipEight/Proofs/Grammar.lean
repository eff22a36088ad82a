import Mathlib.Data.List.Forall2
import ChipEight.Proofs.Opcodes

/-!
The instruction set as a table of four-digit forms. A form is written as it stands in any reference
of the machine, `8xy4` or `Fx33`: a figure or capital letter stands for itself, a small letter for
any digit. Decoding accepts an opcode exactly if its low sixteen bits are spelled in one of the
forms (`ofOpcode_grammar`), and as no opcode is spelled in two of them, it does not matter in which
order they are tried.
-/

namespace ChipEight

/-- The form of an operation's opcodes. -/
def Operation.form : Operation → String
  | clear => "00E0"
  | ret => "00EE"
  | jump => "1nnn"
  | call => "2nnn"
  | skipEqByte => "3xkk"
  | skipNeByte => "4xkk"
  | skipEqReg => "5xy0"
  | loadByte => "6xkk"
  | addByte => "7xkk"
  | loadReg => "8xy0"
  | bitOr => "8xy1"
  | bitAnd => "8xy2"
  | bitXor => "8xy3"
  | addReg => "8xy4"
  | sub => "8xy5"
  | shiftRight => "8xy6"
  | subFrom => "8xy7"
  | shiftLeft => "8xyE"
  | skipNeReg => "9xy0"
  | loadIndex => "Annn"
  | jumpOffset => "Bnnn"
  | random => "Cxkk"
  | draw => "Dxyn"
  | skipPressed => "Ex9E"
  | skipReleased => "ExA1"
  | readDelay => "Fx07"
  | waitKey => "Fx0A"
  | setDelay => "Fx15"
  | setSound => "Fx18"
  | addIndex => "Fx1E"
  | loadGlyph => "Fx29"
  | storeDigits => "Fx33"
  | storeRegs => "Fx55"
  | loadRegs => "Fx65"

/-- One of the four characters of an operation's form. -/
def Operation.place (o : Operation) (k : Nat) : Char := o.form.toList.getD k ' '

theorem Operation.toList_form (o : Operation) :
    o.form.toList = [o.place 0, o.place 1, o.place 2, o.place 3] := by
  cases o <;> rfl

/-- The four digits of an opcode's low sixteen bits, the highest first. -/
def opcodeDigits (opcode : Int) : List Nat :=
  [opcodeWord opcode / 4096, opcodeWord opcode / 256 % 16, opcodeWord opcode / 16 % 16,
    opcodeWord opcode % 16]

/-- A small letter takes any digit, every other character the digit it shows. -/
def Takes (place : Char) (digit : Nat) : Prop :=
  place.isLower = true ∨ place = (Nat.digitChar digit).toUpper

instance (place : Char) (digit : Nat) : Decidable (Takes place digit) :=
  inferInstanceAs (Decidable (_ ∨ _))

/-- The opcode's low sixteen bits are spelled in the form, place by place. -/
def Spelled (form : String) (opcode : Int) : Prop :=
  List.Forall₂ Takes form.toList (opcodeDigits opcode)

theorem spelled_form_iff {o : Operation} {opcode : Int} :
    Spelled o.form opcode ↔
      Takes (o.place 0) (opcodeWord opcode / 4096) ∧
      Takes (o.place 1) (opcodeWord opcode / 256 % 16) ∧
      Takes (o.place 2) (opcodeWord opcode / 16 % 16) ∧
      Takes (o.place 3) (opcodeWord opcode % 16) := by
  simp [Spelled, opcodeDigits, Operation.toList_form]

/-! ### Rows and forms -/

/-- Every operation has a row. -/
theorem Operation.exists_row (o : Operation) : ∃ row ∈ opcodeTable, row.operation = o := by
  cases o <;> decide

namespace OpcodeRow

/-- A form shows the digits of the pattern where the mask looks, and takes any digit elsewhere. -/
theorem takes_iff {row : OpcodeRow} (h : row ∈ opcodeTable) :
    (∀ d < 16, Takes (row.operation.place 0) d ↔ d = row.pattern / 4096) ∧
    (∀ d < 16, Takes (row.operation.place 1) d ↔ (256 < row.low → d = row.pattern / 256 % 16)) ∧
    (∀ d < 16, Takes (row.operation.place 2) d ↔ (16 < row.low → d = row.pattern / 16 % 16)) ∧
    (∀ d < 16, Takes (row.operation.place 3) d ↔ (1 < row.low → d = row.pattern % 16)) := by
  have hall : ∀ row ∈ opcodeTable,
      (∀ d < 16, Takes (row.operation.place 0) d ↔ d = row.pattern / 4096) ∧
      (∀ d < 16, Takes (row.operation.place 1) d ↔ (256 < row.low → d = row.pattern / 256 % 16)) ∧
      (∀ d < 16, Takes (row.operation.place 2) d ↔ (16 < row.low → d = row.pattern / 16 % 16)) ∧
      (∀ d < 16, Takes (row.operation.place 3) d ↔ (1 < row.low → d = row.pattern % 16)) := by
    decide +kernel
  exact hall row h

/-- A row accepts the opcodes that are spelled in the form of its operation. -/
theorem accepts_iff_spelled {row : OpcodeRow} (h : row ∈ opcodeTable) (opcode : Int) :
    row.accepts opcode = true ↔ Spelled row.operation.form opcode := by
  have hword := opcodeWord_lt opcode
  have hlow : row.low = 1 ∨ row.low = 16 ∨ row.low = 256 ∨ row.low = 4096 := by
    have hall : ∀ row ∈ opcodeTable,
        row.low = 1 ∨ row.low = 16 ∨ row.low = 256 ∨ row.low = 4096 := by decide
    exact hall row h
  obtain ⟨h0, h1, h2, h3⟩ := takes_iff h
  rw [accepts_iff h, spelled_form_iff, h0 _ (by omega), h1 _ (by omega), h2 _ (by omega),
    h3 _ (by omega)]
  -- by the number of low digits that the row looks at: none, one, two or three
  rcases hlow with hlow | hlow | hlow | hlow <;> rw [hlow] <;> omega

/-- The rows exclude each other, wherever they stand. -/
theorem pairwise_accepts (opcode : Int) :
    opcodeTable.Pairwise fun r s => ¬ (r.accepts opcode = true ∧ s.accepts opcode = true) := by
  have hnodup : opcodeTable.Nodup := by decide
  refine List.Pairwise.imp_of_mem ?_ hnodup
  rintro r s hr hs hne ⟨har, has⟩
  exact hne (eq_of_accepts hr hs har has)

end OpcodeRow

/-! ### Decoding by the forms -/

theorem decode_eq_some_iff_spelled {opcode : Int} {i : Instruction} :
    decode opcode = some i ↔ i.opcode = opcode ∧ Spelled i.operation.form opcode := by
  rw [decode_eq_some_iff]
  refine and_congr_right fun _ => ⟨?_, ?_⟩
  · rintro ⟨row, hrow, ha, hop⟩
    rw [← hop]
    exact (OpcodeRow.accepts_iff_spelled hrow opcode).mp ha
  · intro hspelled
    obtain ⟨row, hrow, hop⟩ := i.operation.exists_row
    exact ⟨row, hrow, (OpcodeRow.accepts_iff_spelled hrow opcode).mpr (hop ▸ hspelled), hop⟩

theorem decode_eq_none_iff_spelled {opcode : Int} :
    decode opcode = none ↔ ∀ o : Operation, ¬ Spelled o.form opcode := by
  rw [Option.eq_none_iff_forall_ne_some]
  constructor
  · intro h o hspelled
    exact h ⟨o, opcode⟩ (decode_eq_some_iff_spelled.mpr ⟨rfl, hspelled⟩)
  · intro h i hdecode
    exact h i.operation (decode_eq_some_iff_spelled.mp hdecode).2

/-- The order of the rows does not matter. -/
theorem decodeWith_perm {table : List OpcodeRow} (h : table.Perm opcodeTable) (opcode : Int) :
    decodeWith table opcode = decode opcode := by
  rcases hfind : table.find? (·.accepts opcode) with _ | row
  · have hnone : decode opcode = none := by
      refine decode_eq_none_iff.mpr fun row hrow => ?_
      simpa using List.find?_eq_none.mp hfind row (h.mem_iff.mpr hrow)
    rw [decodeWith, hfind, hnone]
    rfl
  · have hrow : row ∈ opcodeTable := h.mem_iff.mp (List.mem_of_find?_eq_some hfind)
    have ha : row.accepts opcode = true :=
      List.find?_some (p := (OpcodeRow.accepts · opcode)) hfind
    rw [decodeWith, hfind, decode_of_accepts hrow ha]
    rfl

namespace Instruction

theorem ofOpcode_eq_ok_iff {opcode : Int} {i : Instruction} :
    ofOpcode opcode = .ok i ↔ decode opcode = some i := by
  rw [ofOpcode]
  cases decode opcode <;> simp

theorem ofOpcode_eq_error_iff {opcode : Int} {f : Fault} :
    ofOpcode opcode = .error f ↔ decode opcode = none ∧ f = .unknownOpcode opcode := by
  rw [ofOpcode]
  cases decode opcode <;> simp [eq_comm]

/-- The operands are the digits of the low sixteen bits, singly and together. -/
theorem operands_eq (i : Instruction) :
    i.x.val = opcodeWord i.opcode / 256 % 16 ∧ i.y.val = opcodeWord i.opcode / 16 % 16 ∧
      i.n = opcodeWord i.opcode % 16 ∧ i.kk = opcodeWord i.opcode % 256 ∧
      i.nnn = opcodeWord i.opcode % 4096 := by
  simp only [x, y, n, kk, nnn, opcodeWord, Fin.val_ofNat]
  omega

end Instruction

/-- An opcode, of whatever length and sign, is the instruction in whose form it is spelled, and is
refused if there is none. It is spelled in one form at most, so every order of the table does. -/
theorem ofOpcode_grammar (opcode : Int) :
    (∀ i, Instruction.ofOpcode opcode = .ok i ↔
      i.opcode = opcode ∧ Spelled i.operation.form opcode) ∧
    (∀ f, Instruction.ofOpcode opcode = .error f ↔
      f = .unknownOpcode opcode ∧ ∀ o : Operation, ¬ Spelled o.form opcode) ∧
    (∀ i, Instruction.ofOpcode opcode = .ok i →
      i.x.val = opcodeWord opcode / 256 % 16 ∧ i.y.val = opcodeWord opcode / 16 % 16 ∧
      i.n = opcodeWord opcode % 16 ∧ i.kk = opcodeWord opcode % 256 ∧
      i.nnn = opcodeWord opcode % 4096) ∧
    (opcodeTable.Pairwise fun r s => ¬ (r.accepts opcode = true ∧ s.accepts opcode = true)) ∧
    ∀ table : List OpcodeRow, table.Perm opcodeTable → decodeWith table opcode = decode opcode := by
  refine ⟨fun i => ?_, fun f => ?_, fun i h => ?_, OpcodeRow.pairwise_accepts opcode,
    fun table hperm => decodeWith_perm hperm opcode⟩
  · rw [Instruction.ofOpcode_eq_ok_iff, decode_eq_some_iff_spelled]
  · rw [Instruction.ofOpcode_eq_error_iff, decode_eq_none_iff_spelled, and_comm]
  · obtain ⟨rfl, -⟩ := decode_eq_some_iff_spelled.mp (Instruction.ofOpcode_eq_ok_iff.mp h)
    exact i.operands_eq

/-- Of an opcode that is too long the low sixteen bits count, in the reversed table as well. -/
theorem ofOpcode_grammar_long :
    Spelled "8xy4" 0x18AB4 ∧ Instruction.ofOpcode 0x18AB4 = .ok ⟨.addReg, 0x18AB4⟩ ∧
      (Instruction.mk .addReg 0x18AB4).x.val = 0xA ∧ (Instruction.mk .addReg 0x18AB4).y.val = 0xB ∧
      decodeWith opcodeTable.reverse 0x18AB4 = some ⟨.addReg, 0x18AB4⟩ := by
  obtain ⟨hok, -, hoperands, -, hperm⟩ := ofOpcode_grammar 0x18AB4
  have hspelled : Spelled "8xy4" 0x18AB4 := by
    rw [show "8xy4" = Operation.form .addReg from rfl, spelled_form_iff]
    decide
  have hdecoded := (hok ⟨.addReg, 0x18AB4⟩).mpr ⟨rfl, hspelled⟩
  obtain ⟨hx, hy, -⟩ := hoperands _ hdecoded
  refine ⟨hspelled, hdecoded, hx.trans (by decide), hy.trans (by decide), ?_⟩
  rw [hperm _ (List.reverse_perm opcodeTable)]
  exact Instruction.ofOpcode_eq_ok_iff.mp hdecoded

example : Instruction.ofOpcode (-1) = .error (.unknownOpcode (-1)) := by decide

end ChipEight
