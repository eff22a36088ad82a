import ChipEight.Event
import ChipEight.Keys

/-!
The keypad of the host. A layout says which key a key code means; the keypad keeps the keys that are
down, in the order in which they went down. A key that goes down again while it is down stays where
it is, and a key goes up with the first of its codes that goes up.
-/

namespace ChipEight

/-- Pairs of a key code and the key it means; a later pair for a code replaces an earlier one. -/
abbrev Layout := List (Int × Int)

namespace Layout

/-- The key that a code means. -/
def key? (l : Layout) (code : Int) : Option Int := l.reverse.lookup code

/-- The sixteen keys on the digits and letters of a keyboard, ten of them also on its numeric pad.
-/
def standard : Layout := [
  (48, 0), (49, 1), (50, 2), (51, 3), (52, 4), (53, 5), (54, 6), (55, 7), (56, 8), (57, 9),
  (97, 10), (98, 11), (99, 12), (100, 13), (101, 14), (102, 15),
  (1073741913, 1), (1073741914, 2), (1073741915, 3), (1073741916, 4), (1073741917, 5),
  (1073741918, 6), (1073741919, 7), (1073741920, 8), (1073741921, 9), (1073741922, 0)]

end Layout

/-- A layout and the keys that are down, the earliest first. -/
structure Keypad where
  layout : Layout
  pressed : List Int
  deriving DecidableEq, Repr

namespace Keypad

/-- No key is down. -/
def idle (layout : Layout) : Keypad := ⟨layout, []⟩

/-- A key goes down. -/
def press (k : Keypad) (key : Int) : Keypad :=
  if k.pressed.contains key then k else { k with pressed := k.pressed ++ [key] }

/-- A key goes up. -/
def release (k : Keypad) (key : Int) : Keypad := { k with pressed := k.pressed.erase key }

/-- Follows an event and tells whether it was about a key of the layout. -/
def handle (k : Keypad) : Event → Keypad × Bool
  | .keyDown code =>
      match k.layout.key? code with
      | some key => (k.press key, true)
      | none => (k, false)
  | .keyUp code =>
      match k.layout.key? code with
      | some key => (k.release key, true)
      | none => (k, false)
  | _ => (k, false)

/-- What the machine can learn about the keypad. -/
def keys (k : Keypad) : Keys := Keys.ofList k.pressed

end Keypad

end ChipEight
