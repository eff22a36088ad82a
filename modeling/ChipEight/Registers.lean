import ChipEight.Byte
import ChipEight.Text.Hexadecimal

/-!
The sixteen registers V0 to VF. VF is the flag: instructions report carries and collisions in it,
and it is kept apart from the other fifteen. `read_write` states that nothing of this shows when
the registers are reached by number.
-/

namespace ChipEight

/-- Fifteen general registers and the flag. A host may put any integer into the flag by name. -/
structure Registers where
  general : Vector Byte 15
  flag : Int
  deriving DecidableEq, Repr

/-- A number that is no register's. -/
structure RegisterError where
  number : Int
  deriving DecidableEq, Repr

/-- The wording of a register error. -/
def RegisterError.message (e : RegisterError) : String :=
  s!"V{e.number} is not a CHIP-8 register"

namespace Registers

/-- How many registers there are. -/
def count : Nat := 16

/-- The number of V0. -/
def firstNumber : Fin 16 := ⟨0, by decide⟩

/-- The number of the flag register. -/
def flagNumber : Fin 16 := ⟨15, by decide⟩

/-- All registers zero. -/
def zero : Registers := ⟨Vector.replicate 15 0, 0⟩

/-- The value of a register. -/
def read (r : Registers) (x : Fin 16) : Int :=
  if h : x.val < 15 then (r.general[x.val]).toInt else r.flag

/-- Puts the low byte of a value into a register. -/
def write (r : Registers) (x : Fin 16) (value : Int) : Registers :=
  if h : x.val < 15 then { r with general := r.general.set x.val (Byte.wrap value) }
  else { r with flag := (Byte.wrap value).toInt }

/-- The values of all registers, V0 first. -/
def toList (r : Registers) : List Int := r.general.toList.map Byte.toInt ++ [r.flag]

/-- The register with a number. -/
def find (number : Int) : Except RegisterError (Fin 16) :=
  if h : 0 ≤ number ∧ number < 16 then .ok ⟨number.toNat, by omega⟩ else .error ⟨number⟩

/-- The value of the register with a number. -/
def read? (r : Registers) (number : Int) : Except RegisterError Int :=
  (find number).map r.read

/-- Puts the low byte of a value into the register with a number. -/
def write? (r : Registers) (number value : Int) : Except RegisterError Registers :=
  (find number).map fun x => r.write x value

/-- The registers as one line, V0 first. -/
def describe (r : Registers) : String := "Registers(" ++ Hex.listing r.toList ++ ")"

@[simp] theorem read_write (r : Registers) (x y : Fin 16) (v : Int) :
    (r.write x v).read y = if x = y then v % 256 else r.read y := by
  have := Byte.toNat_wrap v
  unfold read write Byte.toInt
  by_cases hx : x.val < 15 <;> by_cases hy : y.val < 15 <;>
    simp [hx, hy, Vector.getElem_set, Fin.ext_iff, this] <;> grind

end Registers

end ChipEight
