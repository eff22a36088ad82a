import ChipEight.Fault
import ChipEight.Operation

/-!
Instructions and how they are found in an opcode. The opcode table lists, for each operation, the
bits that select it and the value those bits must have; `decode` takes the first row that matches.
Only the low sixteen bits of an opcode are looked at, so any integer may be decoded: the operand
fields are remainders and quotients of the opcode, and the opcode itself is kept as it was given.
`Instruction.ofOpcode` refuses, with the opcode in its complaint, what is no instruction.
-/

namespace ChipEight

/-- An operation together with the opcode that holds its operands. -/
structure Instruction where
  operation : Operation
  opcode : Int
  deriving DecidableEq, Repr

/-- A row of the opcode table: `operation` is meant when the bits of `mask` read `pattern`. -/
structure OpcodeRow where
  mask : Nat
  pattern : Nat
  operation : Operation
  deriving DecidableEq, Repr

/-- The rows in the order in which they are tried. -/
def opcodeTable : List OpcodeRow := [
  ⟨0xFFFF, 0x00E0, .clear⟩,
  ⟨0xFFFF, 0x00EE, .ret⟩,
  ⟨0xF000, 0x1000, .jump⟩,
  ⟨0xF000, 0x2000, .call⟩,
  ⟨0xF000, 0x3000, .skipEqByte⟩,
  ⟨0xF000, 0x4000, .skipNeByte⟩,
  ⟨0xF00F, 0x5000, .skipEqReg⟩,
  ⟨0xF000, 0x6000, .loadByte⟩,
  ⟨0xF000, 0x7000, .addByte⟩,
  ⟨0xF00F, 0x8000, .loadReg⟩,
  ⟨0xF00F, 0x8001, .bitOr⟩,
  ⟨0xF00F, 0x8002, .bitAnd⟩,
  ⟨0xF00F, 0x8003, .bitXor⟩,
  ⟨0xF00F, 0x8004, .addReg⟩,
  ⟨0xF00F, 0x8005, .sub⟩,
  ⟨0xF00F, 0x8006, .shiftRight⟩,
  ⟨0xF00F, 0x8007, .subFrom⟩,
  ⟨0xF00F, 0x800E, .shiftLeft⟩,
  ⟨0xF00F, 0x9000, .skipNeReg⟩,
  ⟨0xF000, 0xA000, .loadIndex⟩,
  ⟨0xF000, 0xB000, .jumpOffset⟩,
  ⟨0xF000, 0xC000, .random⟩,
  ⟨0xF000, 0xD000, .draw⟩,
  ⟨0xF0FF, 0xE09E, .skipPressed⟩,
  ⟨0xF0FF, 0xE0A1, .skipReleased⟩,
  ⟨0xF0FF, 0xF007, .readDelay⟩,
  ⟨0xF0FF, 0xF00A, .waitKey⟩,
  ⟨0xF0FF, 0xF015, .setDelay⟩,
  ⟨0xF0FF, 0xF018, .setSound⟩,
  ⟨0xF0FF, 0xF01E, .addIndex⟩,
  ⟨0xF0FF, 0xF029, .loadGlyph⟩,
  ⟨0xF0FF, 0xF033, .storeDigits⟩,
  ⟨0xF0FF, 0xF055, .storeRegs⟩,
  ⟨0xF0FF, 0xF065, .loadRegs⟩]

/-- The low sixteen bits of an opcode, in two's complement. -/
def opcodeWord (opcode : Int) : Nat := (opcode % 65536).toNat

/-- The row says that the opcode is its operation. -/
def OpcodeRow.accepts (row : OpcodeRow) (opcode : Int) : Bool :=
  opcodeWord opcode &&& row.mask == row.pattern

/-- The instruction named by the first matching row of a table. -/
def decodeWith (table : List OpcodeRow) (opcode : Int) : Option Instruction :=
  (table.find? (·.accepts opcode)).map fun row => ⟨row.operation, opcode⟩

/-- The instruction an opcode stands for, if it stands for one. -/
def decode (opcode : Int) : Option Instruction := decodeWith opcodeTable opcode

namespace Instruction

/-- The instruction an opcode stands for, or the fault that says it stands for none. -/
def ofOpcode (opcode : Int) : Except Fault Instruction :=
  match decode opcode with
  | some i => .ok i
  | none => .error (.unknownOpcode opcode)

/-- The register named by the second nibble. -/
def x (i : Instruction) : Fin 16 := Fin.ofNat 16 (i.opcode / 256 % 16).toNat

/-- The register named by the third nibble. -/
def y (i : Instruction) : Fin 16 := Fin.ofNat 16 (i.opcode / 16 % 16).toNat

/-- The last nibble. -/
def n (i : Instruction) : Nat := (i.opcode % 16).toNat

/-- The low byte. -/
def kk (i : Instruction) : Int := i.opcode % 256

/-- The low twelve bits, an address. -/
def nnn (i : Instruction) : Int := i.opcode % 4096

end Instruction

end ChipEight
