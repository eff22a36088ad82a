import ChipEight.Instruction
import ChipEight.Text.Hexadecimal

/-!
Assembly text. The form of an operation is a list of pieces, fixed words and places for operands;
filling the places gives the text of an instruction, and naming them gives the form's template.
-/

namespace ChipEight

/-- A part of an assembly line. -/
inductive Piece where
  | word (text : String)
  /-- Three hexadecimal digits of an address. -/
  | address
  /-- Two hexadecimal digits of a byte. -/
  | byte
  | regX
  | regY
  /-- A nibble in decimal. -/
  | count
  deriving DecidableEq, Repr

namespace Piece

/-- The piece with the operand of an instruction in its place. -/
def fill (i : Instruction) : Piece → String
  | word text => text
  | address => "0x" ++ Hex.padded 3 i.nnn
  | byte => "0x" ++ Hex.padded 2 i.kk
  | regX => "V" ++ Hex.capital i.x
  | regY => "V" ++ Hex.capital i.y
  | count => toString i.n

/-- The piece with the name and the format of its operand in braces. -/
def template : Piece → String
  | word text => text
  | address => "0x\x7bnnn:03x\x7d"
  | byte => "0x\x7bkk:02x\x7d"
  | regX => "V\x7bx:X\x7d"
  | regY => "V\x7by:X\x7d"
  | count => "\x7bn\x7d"

end Piece

namespace Operation

/-- The first word of the assembly line. -/
def mnemonic : Operation → String
  | clear => "CLS"
  | ret => "RET"
  | jump | jumpOffset => "JP"
  | call => "CALL"
  | skipEqByte | skipEqReg => "SE"
  | skipNeByte | skipNeReg => "SNE"
  | loadByte | loadReg | loadIndex | readDelay | waitKey | setDelay | setSound
  | loadGlyph | storeDigits | storeRegs | loadRegs => "LD"
  | addByte | addReg | addIndex => "ADD"
  | bitOr => "OR"
  | bitAnd => "AND"
  | bitXor => "XOR"
  | sub => "SUB"
  | shiftRight => "SHR"
  | subFrom => "SUBN"
  | shiftLeft => "SHL"
  | random => "RND"
  | draw => "DRW"
  | skipPressed => "SKP"
  | skipReleased => "SKNP"

/-- The operands of the assembly line, in order. The shifts show one register. -/
def operands : Operation → List Piece
  | clear | ret => []
  | jump | call => [.address]
  | skipEqByte | skipNeByte | loadByte | addByte | random => [.regX, .byte]
  | skipEqReg | loadReg | bitOr | bitAnd | bitXor | addReg | sub | subFrom | skipNeReg =>
      [.regX, .regY]
  | shiftRight | shiftLeft | skipPressed | skipReleased => [.regX]
  | loadIndex => [.word "I", .address]
  | jumpOffset => [.word "V0", .address]
  | draw => [.regX, .regY, .count]
  | readDelay => [.regX, .word "DT"]
  | waitKey => [.regX, .word "K"]
  | setDelay => [.word "DT", .regX]
  | setSound => [.word "ST", .regX]
  | addIndex => [.word "I", .regX]
  | loadGlyph => [.word "F", .regX]
  | storeDigits => [.word "B", .regX]
  | storeRegs => [.word "[I]", .regX]
  | loadRegs => [.regX, .word "[I]"]

/-- The assembly line of an operation with each piece written by `write`. -/
def line (write : Piece → String) (o : Operation) : String :=
  match o.operands with
  | [] => o.mnemonic
  | ps => o.mnemonic ++ " " ++ ", ".intercalate (ps.map write)

/-- The assembly line with the operands named and not filled in. -/
def template (o : Operation) : String := o.line Piece.template

end Operation

namespace Instruction

/-- The instruction as an assembly line. -/
def assembly (i : Instruction) : String := i.operation.line (Piece.fill i)

end Instruction

end ChipEight
