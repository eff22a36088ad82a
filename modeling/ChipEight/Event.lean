/-!
What a host hears from its window: keys going down and up, the wish to quit, and things the machine
has no use for. Keys are given by their codes.
-/

namespace ChipEight

/-- Something that happened in the window. -/
inductive Event where
  | keyDown (code : Int)
  | keyUp (code : Int)
  | quit
  | motion
  | click
  deriving DecidableEq, Repr

namespace Event

/-- The code of the escape key. -/
def escapeCode : Int := 27

/-- The code of the fifth function key. -/
def resetCode : Int := 1073741886

end Event

end ChipEight
