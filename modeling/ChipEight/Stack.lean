import ChipEight.Fault
import ChipEight.Size
import ChipEight.Text.Hexadecimal

/-!
The return addresses of the subroutines being run. The stack owns a fixed number of slots, of which
the first `used` are in use; a slot keeps what it held after it falls out of use, and `addresses`,
the view that everything else looks at, never shows it.
-/

namespace ChipEight

/-- Slots for addresses, filled from the front. -/
structure Stack where
  slots : List Int
  used : Nat
  used_le : used ≤ slots.length
  deriving DecidableEq, Repr

namespace Stack

/-- How many addresses the machine's own stack can hold. -/
def machineDepth : Nat := 16

/-- An empty stack; a negative depth leaves no room. -/
def empty (depth : Int) : Stack := ⟨List.replicate depth.toNat 0, 0, Nat.zero_le _⟩

/-- An empty stack, if there can be so many slots. -/
def create (storage : Storage) (depth : Int) : Except SizeError Stack :=
  (Size.cells storage depth).map fun _ => empty depth

/-- The addresses pushed and not yet popped, oldest first. -/
def addresses (s : Stack) : List Int := s.slots.take s.used

/-- Adds an address, unless every slot is in use. -/
def push (s : Stack) (address : Int) : Except Fault Stack :=
  if h : s.used < s.slots.length then
    .ok ⟨s.slots.set s.used address, s.used + 1, by simpa using Nat.succ_le_of_lt h⟩
  else
    .error (.stackOverflow s.slots.length)

/-- Takes the newest address off, if there is one. -/
def pop (s : Stack) : Except Fault (Int × Stack) :=
  if h : 0 < s.used then
    have fits := s.used_le
    .ok (s.slots.get ⟨s.used - 1, by omega⟩, ⟨s.slots, s.used - 1, by omega⟩)
  else
    .error .stackUnderflow

/-- The stack as one line, oldest address first. -/
def describe (s : Stack) : String :=
  s!"Stack(sp={s.used}, addresses=" ++ Hex.listing s.addresses ++ ")"

end Stack

end ChipEight
