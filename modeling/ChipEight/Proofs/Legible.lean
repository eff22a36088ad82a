import Mathlib.Algebra.Group.Nat.Defs
import ChipEight.Instruction.Assembly
import ChipEight.Proofs.Grammar
import ChipEight.Proofs.Hexadecimal

/-!
The words of an assembly line. Cutting a line at its blanks gives back what was written for each
piece, as nothing that is written has a blank or a comma in it (`lineWords_line`). A word tells by
itself what kind of operand it is (`Operand.ofWord?`), and what a piece shows of an instruction can
be put back into its place: the same bits of the opcode (`Piece.legible`).
-/

namespace ChipEight

/-! ### The words of a line -/

/-- The words of an assembly line: blanks part them, commas do not count. -/
def lineWords (line : String) : List (List Char) := (line.toList.filter (· ≠ ',')).splitOn ' '

/-- The characters can stand in a word. -/
def Unbroken (word : List Char) : Prop := ' ' ∉ word ∧ ',' ∉ word

instance (word : List Char) : Decidable (Unbroken word) := inferInstanceAs (Decidable (_ ∧ _))

theorem Unbroken.filter {word : List Char} (h : Unbroken word) : word.filter (· ≠ ',') = word := by
  rw [List.filter_eq_self]
  rintro c hc
  simpa using fun heq : c = ',' => h.2 (heq ▸ hc)

theorem filter_intercalate {words : List (List Char)} (h : ∀ word ∈ words, Unbroken word) :
    ([',', ' '].intercalate words).filter (· ≠ ',') = [' '].intercalate words := by
  induction words with
  | nil => rfl
  | cons word words ih =>
    have hword := (h word List.mem_cons_self).filter
    have hwords := ih fun w hw => h w (List.mem_cons_of_mem _ hw)
    cases words with
    | nil => simpa using hword
    | cons next words =>
      rw [List.intercalate_cons_cons, List.intercalate_cons_cons, List.filter_append,
        List.filter_append, hword, hwords]
      rfl

theorem Operation.unbroken_mnemonic (o : Operation) : Unbroken o.mnemonic.toList := by
  cases o <;> decide

/-- The words of an operation's line are its mnemonic and what is written for the operands. -/
theorem lineWords_line {o : Operation} {write : Piece → String}
    (h : ∀ p ∈ o.operands, Unbroken (write p).toList) :
    lineWords (o.line write) = o.mnemonic.toList :: o.operands.map fun p => (write p).toList := by
  have hwords : ∀ word ∈ o.operands.map (fun p => (write p).toList), Unbroken word := by
    simpa using h
  have hfilter : (o.line write).toList.filter (· ≠ ',') =
      [' '].intercalate (o.mnemonic.toList :: o.operands.map fun p => (write p).toList) := by
    rw [Operation.line]
    cases hps : o.operands with
    | nil => simpa using o.unbroken_mnemonic.filter
    | cons p ps =>
      have hrest := filter_intercalate (hps ▸ hwords)
      have hmnemonic := o.unbroken_mnemonic.filter
      simp_all [List.intercalate_cons_cons, Function.comp_def]
  rw [lineWords, hfilter, List.splitOn_intercalate]
  · rintro word hword
    rcases List.mem_cons.mp hword with rfl | hword
    · exact o.unbroken_mnemonic.1
    · exact (hwords word hword).1
  · simp

/-! ### Operands -/

/-- An operand as a line shows it. -/
inductive Operand where
  | address (v : Nat)
  | byte (v : Nat)
  | register (v : Nat)
  | count (v : Nat)
  /-- A part of the machine that goes by a name, such as a timer. -/
  | part (name : List Char)
  deriving DecidableEq

namespace Operand

/-- The operand that a word stands for. -/
def ofWord? : List Char → Option Operand
  | [] => none
  | ['V', d] => (Hex.digit? d).map register
  | ['0', 'x', a, b] => (Hex.value? [a, b]).map byte
  | ['0', 'x', a, b, c] => (Hex.value? [a, b, c]).map address
  | word =>
      if word.all Char.isDigit then some (count (Nat.ofDigitChars 10 word 0))
      else some (part word)

/-- The operand with its number left out. -/
def blank : Operand → Operand
  | address _ => address 0
  | byte _ => byte 0
  | register _ => register 0
  | count _ => count 0
  | part name => part name

end Operand

namespace Piece

/-- The bits of an opcode that the piece shows. -/
def mask : Piece → Nat
  | word _ => 0
  | address => 0x0FFF
  | byte => 0x00FF
  | regX => 0x0F00
  | regY => 0x00F0
  | count => 0x000F

/-- The bits that an operand puts in the place of the piece, if it may stand there. -/
def place? : Piece → Operand → Option Nat
  | word text, operand => if Operand.ofWord? text.toList = some operand then some 0 else none
  | address, .address v => some v
  | byte, .byte v => some v
  | regX, .register v => some (256 * v)
  | regY, .register v => some (16 * v)
  | count, .count v => some v
  | _, _ => none

/-- The operands that may stand in the place of the piece, with their number left out. -/
def blank? : Piece → Option Operand
  | word text => (Operand.ofWord? text.toList).map Operand.blank
  | address => some (.address 0)
  | byte => some (.byte 0)
  | regX | regY => some (.register 0)
  | count => some (.count 0)

theorem blank?_of_place? {p : Piece} {operand : Operand} {bits : Nat}
    (h : p.place? operand = some bits) : p.blank? = some operand.blank := by
  cases p with
  | word text =>
    simp only [place?, Option.ite_none_right_eq_some] at h
    rw [blank?, h.1]
    rfl
  | _ => cases operand <;> simp_all [place?, blank?, Operand.blank]

/-- What the piece shows of an instruction is a word, which is read as an operand and goes back to
the same bits. -/
structure Legible (p : Piece) (i : Instruction) : Prop where
  unbroken : Unbroken (p.fill i).toList
  placed : ∃ operand, Operand.ofWord? (p.fill i).toList = some operand ∧
    p.place? operand = some (opcodeWord i.opcode &&& p.mask)

theorem Legible.of_word {p : Piece} {i : Instruction} {word : List Char} {operand : Operand}
    (hfill : (p.fill i).toList = word) (hunbroken : Unbroken word)
    (hread : Operand.ofWord? word = some operand)
    (hplace : p.place? operand = some (opcodeWord i.opcode &&& p.mask)) : Legible p i := by
  subst hfill
  exact ⟨hunbroken, operand, hread, hplace⟩

end Piece

/-! ### The words of the pieces -/

theorem unbroken_digits (width v : Nat) : Unbroken ('0' :: 'x' :: Hex.lowDigits width v) := by
  have hne : ∀ d < 16, Nat.digitChar d ≠ ' ' ∧ Nat.digitChar d ≠ ',' := by decide
  have hdigits : Unbroken (Hex.lowDigits width v) := by
    constructor
    · intro hmem
      obtain ⟨d, hd, heq⟩ := Hex.mem_lowDigits hmem
      exact (hne d hd).1 heq.symm
    · intro hmem
      obtain ⟨d, hd, heq⟩ := Hex.mem_lowDigits hmem
      exact (hne d hd).2 heq.symm
  simpa [Unbroken] using hdigits

theorem unbroken_capital : ∀ d < 16, Unbroken ['V', (Nat.digitChar d).toUpper] := by decide

theorem unbroken_decimal (n : Nat) : Unbroken (Nat.toDigits 10 n) := by
  constructor <;> intro hmem <;>
    simpa using Nat.isDigit_of_mem_toDigits (by decide) (by decide) hmem

namespace Operand

theorem ofWord?_address {v : Nat} (h : v < 16 ^ 3) :
    ofWord? ('0' :: 'x' :: Hex.lowDigits 3 v) = some (address v) := by
  have hvalue := Hex.value?_lowDigits_of_lt h
  simp only [Hex.lowDigits, List.nil_append, List.cons_append] at hvalue ⊢
  rw [ofWord?, hvalue]
  rfl

theorem ofWord?_byte {v : Nat} (h : v < 16 ^ 2) :
    ofWord? ('0' :: 'x' :: Hex.lowDigits 2 v) = some (byte v) := by
  have hvalue := Hex.value?_lowDigits_of_lt h
  simp only [Hex.lowDigits, List.nil_append, List.cons_append] at hvalue ⊢
  rw [ofWord?, hvalue]
  rfl

theorem ofWord?_register {d : Nat} (h : d < 16) :
    ofWord? ['V', (Nat.digitChar d).toUpper] = some (register d) := by
  rw [ofWord?, Hex.digit?_capital d h]
  rfl

theorem ofWord?_count : ∀ n < 16, ofWord? (Nat.toDigits 10 n) = some (count n) := by decide

end Operand

/-- A mask of `l` bits from bit `k` on takes a field out of a number. -/
theorem and_field (n k l : Nat) : n &&& (2 ^ k * (2 ^ l - 1)) = 2 ^ k * (n / 2 ^ k % 2 ^ l) := by
  apply Nat.eq_of_testBit_eq
  intro j
  simp only [Nat.testBit_and, Nat.testBit_two_pow_mul, Nat.testBit_two_pow_sub_one,
    Nat.testBit_mod_two_pow, Nat.testBit_div_two_pow]
  by_cases h : k ≤ j <;> simp [h, Bool.and_comm]

/-- The bits of an opcode at its operand fields. -/
theorem Instruction.and_mask_eq (i : Instruction) :
    opcodeWord i.opcode &&& Piece.regX.mask = 256 * i.x.val ∧
    opcodeWord i.opcode &&& Piece.regY.mask = 16 * i.y.val ∧
    opcodeWord i.opcode &&& Piece.count.mask = i.n ∧
    opcodeWord i.opcode &&& Piece.byte.mask = i.kk.toNat ∧
    opcodeWord i.opcode &&& Piece.address.mask = i.nnn.toNat := by
  obtain ⟨hx, hy, hn, hkk, hnnn⟩ := i.operands_eq
  have hx' : opcodeWord i.opcode &&& 0x0F00 = 256 * (opcodeWord i.opcode / 256 % 16) :=
    and_field _ 8 4
  have hy' : opcodeWord i.opcode &&& 0x00F0 = 16 * (opcodeWord i.opcode / 16 % 16) :=
    and_field _ 4 4
  have hn' := Nat.and_two_pow_sub_one_eq_mod (opcodeWord i.opcode) 4
  have hkk' := Nat.and_two_pow_sub_one_eq_mod (opcodeWord i.opcode) 8
  have hnnn' := Nat.and_two_pow_sub_one_eq_mod (opcodeWord i.opcode) 12
  simp only [Piece.mask, Nat.reducePow, Nat.reduceSub] at *
  omega

namespace Piece

variable (i : Instruction)

theorem legible_address : Legible .address i := by
  obtain ⟨-, -, -, -, hnnn⟩ := i.operands_eq
  obtain ⟨-, -, -, -, hmask⟩ := i.and_mask_eq
  refine .of_word ?_ (unbroken_digits 3 i.nnn.toNat) (Operand.ofWord?_address (by omega)) ?_
  · rw [fill, Hex.padded_eq_fixed (by decide) (by omega), Hex.fixed]
    simp
  · rw [hmask]
    rfl

theorem legible_byte : Legible .byte i := by
  obtain ⟨-, -, -, hkk, -⟩ := i.operands_eq
  obtain ⟨-, -, -, hmask, -⟩ := i.and_mask_eq
  refine .of_word ?_ (unbroken_digits 2 i.kk.toNat) (Operand.ofWord?_byte (by omega)) ?_
  · rw [fill, Hex.padded_eq_fixed (by decide) (by omega), Hex.fixed]
    simp
  · rw [hmask]
    rfl

theorem legible_regX : Legible .regX i := by
  obtain ⟨hmask, -⟩ := i.and_mask_eq
  refine .of_word ?_ (unbroken_capital i.x.val i.x.isLt) (Operand.ofWord?_register i.x.isLt) ?_
  · simp [fill, Hex.capital]
  · rw [hmask]
    rfl

theorem legible_regY : Legible .regY i := by
  obtain ⟨-, hmask, -⟩ := i.and_mask_eq
  refine .of_word ?_ (unbroken_capital i.y.val i.y.isLt) (Operand.ofWord?_register i.y.isLt) ?_
  · simp [fill, Hex.capital]
  · rw [hmask]
    rfl

theorem legible_count : Legible .count i := by
  obtain ⟨-, -, hn, -⟩ := i.operands_eq
  obtain ⟨-, -, hmask, -⟩ := i.and_mask_eq
  refine .of_word ?_ (unbroken_decimal i.n) (Operand.ofWord?_count i.n (by omega)) ?_
  · simp [fill]
  · rw [hmask]
    rfl

/-- The words that stand in lines beside the operands. -/
theorem legible_word {o : Operation} {text : String} (h : .word text ∈ o.operands) :
    Legible (.word text) i := by
  have hnames : Unbroken text.toList ∧ (Operand.ofWord? text.toList).isSome := by
    cases o <;> simp [Operation.operands] at h <;> subst h <;> decide
  obtain ⟨operand, hread⟩ := Option.isSome_iff_exists.mp hnames.2
  refine .of_word rfl hnames.1 hread ?_
  simp [place?, mask, hread]

/-- Whatever stands in a line is legible. -/
theorem legible {o : Operation} {p : Piece} (h : p ∈ o.operands) : Legible p i := by
  cases p with
  | word text => exact legible_word i h
  | address => exact legible_address i
  | byte => exact legible_byte i
  | regX => exact legible_regX i
  | regY => exact legible_regY i
  | count => exact legible_count i

end Piece

end ChipEight
