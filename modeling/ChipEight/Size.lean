/-!
How large a collection may be. A number is a size if it lies below `limit` and not below its
negative; a negative size asks for no cells at all. Cells take storage, and whether there is enough
of it for a row is for a `Storage` to say.
-/

namespace ChipEight

/-- Why a collection of some size cannot be made. -/
inductive SizeError where
  /-- The number is no size of anything. -/
  | unsized
  /-- The cells would take more storage than there is. -/
  | outOfMemory
  deriving DecidableEq, Repr

/-- The wording of a size error. -/
def SizeError.message : SizeError → String
  | unsized => "cannot fit 'int' into an index-sized integer"
  | outOfMemory => ""

/-- The storage there is: how many cells, and how many bytes, can be had at once. A row of none
takes no storage. -/
structure Storage where
  cells : Nat → Bool
  bytes : Nat → Bool
  cells_zero : cells 0 = true
  bytes_zero : bytes 0 = true

/-- Storage for everything. -/
def Storage.boundless : Storage := ⟨fun _ => true, fun _ => true, rfl, rfl⟩

namespace Size

/-- Sizes are less than this, and not less than its negative. -/
def limit : Int := 0x8000000000000000

/-- The number is the size of something. -/
def isSize (n : Int) : Bool := -limit ≤ n && n < limit

/-- How many cells a number asks for. -/
def cells (storage : Storage) (n : Int) : Except SizeError Nat :=
  if !isSize n then .error .unsized
  else if storage.cells n.toNat then .ok n.toNat
  else .error .outOfMemory

end Size

end ChipEight
