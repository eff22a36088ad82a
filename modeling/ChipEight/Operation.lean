/-!
The thirty-four operations of CHIP-8. An operation has a symbol, which names it among the
others, and a title, which shows the operands it takes where the mnemonic alone would be
ambiguous.
-/

namespace ChipEight

/-- What an instruction does; its operands are kept apart. -/
inductive Operation where
  | clear | ret | jump | call
  | skipEqByte | skipNeByte | skipEqReg
  | loadByte | addByte
  | loadReg | bitOr | bitAnd | bitXor | addReg | sub | shiftRight | subFrom | shiftLeft
  | skipNeReg
  | loadIndex | jumpOffset | random | draw
  | skipPressed | skipReleased
  | readDelay | waitKey | setDelay | setSound
  | addIndex | loadGlyph | storeDigits | storeRegs | loadRegs
  deriving DecidableEq, Repr

namespace Operation

/-- The name that tells an operation from every other. -/
def symbol : Operation → String
  | clear => "CLS"
  | ret => "RET"
  | jump => "JP"
  | call => "CALL"
  | skipEqByte => "SE_BYTE"
  | skipNeByte => "SNE_BYTE"
  | skipEqReg => "SE_REG"
  | loadByte => "LD_BYTE"
  | addByte => "ADD_BYTE"
  | loadReg => "LD_REG"
  | bitOr => "OR"
  | bitAnd => "AND"
  | bitXor => "XOR"
  | addReg => "ADD_REG"
  | sub => "SUB"
  | shiftRight => "SHR"
  | subFrom => "SUBN"
  | shiftLeft => "SHL"
  | skipNeReg => "SNE_REG"
  | loadIndex => "LD_I"
  | jumpOffset => "JP_V0"
  | random => "RND"
  | draw => "DRW"
  | skipPressed => "SKP"
  | skipReleased => "SKNP"
  | readDelay => "LD_VX_DT"
  | waitKey => "LD_VX_K"
  | setDelay => "LD_DT_VX"
  | setSound => "LD_ST_VX"
  | addIndex => "ADD_I"
  | loadGlyph => "LD_F"
  | storeDigits => "LD_B"
  | storeRegs => "LD_MEM_VX"
  | loadRegs => "LD_VX_MEM"

/-- The mnemonic, with the kinds of operand when several operations share it. -/
def title : Operation → String
  | clear => "CLS"
  | ret => "RET"
  | jump => "JP"
  | call => "CALL"
  | skipEqByte => "SE Vx, byte"
  | skipNeByte => "SNE Vx, byte"
  | skipEqReg => "SE Vx, Vy"
  | loadByte => "LD Vx, byte"
  | addByte => "ADD Vx, byte"
  | loadReg => "LD Vx, Vy"
  | bitOr => "OR"
  | bitAnd => "AND"
  | bitXor => "XOR"
  | addReg => "ADD Vx, Vy"
  | sub => "SUB"
  | shiftRight => "SHR"
  | subFrom => "SUBN"
  | shiftLeft => "SHL"
  | skipNeReg => "SNE Vx, Vy"
  | loadIndex => "LD I, addr"
  | jumpOffset => "JP V0, addr"
  | random => "RND"
  | draw => "DRW"
  | skipPressed => "SKP"
  | skipReleased => "SKNP"
  | readDelay => "LD Vx, DT"
  | waitKey => "LD Vx, K"
  | setDelay => "LD DT, Vx"
  | setSound => "LD ST, Vx"
  | addIndex => "ADD I, Vx"
  | loadGlyph => "LD F, Vx"
  | storeDigits => "LD B, Vx"
  | storeRegs => "LD [I], Vx"
  | loadRegs => "LD Vx, [I]"

end Operation

end ChipEight
