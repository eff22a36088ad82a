/-!
What a flag is given. The separator is no value: attached to a flag it is dropped, and the flag
counts as given and is left with nothing.
-/

namespace ChipEight

/-- The value of a flag, or nothing where the separator was attached to it. -/
inductive Given (α : Type) where
  | value (a : α)
  | nothing
  deriving DecidableEq, Repr

namespace Given

/-- The word that separates flags from values. -/
def separator : String := "--"

/-- What is left of a text attached to a flag. -/
def attached (text : String) : Given String :=
  if text = separator then .nothing else .value text

/-- The value, if there is one. -/
def value? {α : Type} : Given α → Option α
  | value a => some a
  | nothing => none

end Given

end ChipEight
