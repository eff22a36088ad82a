import ChipEight.Fault
import ChipEight.Font

/-!
Main memory: 4096 bytes under addresses that wrap around, so every integer is an address and no
access fails. `read_write` says what a write does to every later read. Loading a program is the
one operation that can be refused, and then it changes nothing.
-/

namespace ChipEight

/-- 4096 bytes. -/
structure Memory where
  cells : Vector Byte 4096

namespace Memory

/-- How many cells there are. -/
def size : Nat := 4096

/-- Where a program starts. -/
def programStart : Nat := 0x200

/-- How many bytes a program can have. -/
def programLimit : Nat := size - programStart

/-- The cell an address means: addresses count modulo 4096. -/
def cell (address : Int) : Fin 4096 := ⟨(address % 4096).toNat, by omega⟩

/-- The byte at an address. -/
def read (m : Memory) (address : Int) : Byte := m.cells[cell address]

/-- Puts the low byte of a value at an address. -/
def write (m : Memory) (address value : Int) : Memory :=
  ⟨m.cells.set (cell address) (Byte.wrap value)⟩

/-- Bytes in a row from an address on. -/
def window (m : Memory) (address : Int) (count : Nat) : List Byte :=
  (List.range count).map fun (k : Nat) => m.read (address + k)

/-- Puts bytes in a row from a cell on. -/
def copy (m : Memory) (address : Nat) : List Byte → Memory
  | [] => m
  | b :: bs => copy (m.write address b.toInt) (address + 1) bs

/-- The font in front, zero everywhere else. -/
def initial : Memory := copy ⟨Vector.replicate 4096 0⟩ Font.start Font.glyphs

/-- Puts a program at an address if it ends inside the memory. -/
def load (m : Memory) (program : List Byte) (address : Nat) : Except Fault Memory :=
  let limit : Int := size - address
  if (program.length : Int) > limit then .error (.programTooLarge program.length limit)
  else .ok (m.copy address program)

@[simp] theorem read_write (m : Memory) (a b v : Int) :
    (m.write a v).read b = if cell a = cell b then Byte.wrap v else m.read b := by
  simp [read, write, Vector.getElem_set, Fin.ext_iff]

end Memory

end ChipEight
