import ChipEight.Size

/-!
A rectangle of pixels that are lit or dark. Coordinates wrap around the edges, so every pair of
integers means a pixel as long as the rectangle has one. `lit` and `toggle` are the operations on
such a rectangle; `lit?` and `toggle?` also answer for sizes that leave no pixel to mean. A blank
rectangle is rows of dark pixels (`rows_blank`).
-/

namespace ChipEight

/-- Why a pixel could not be reached. -/
inductive PixelError where
  /-- A coordinate cannot wrap around a side of length zero. -/
  | noSide
  /-- A side of negative length has no pixels. -/
  | noPixel
  /-- The place on a side of negative length is so far away that it is no size of anything. -/
  | unsized
  deriving DecidableEq, Repr

/-- The wording of a pixel error. -/
def PixelError.message : PixelError → String
  | noSide => "integer modulo by zero"
  | noPixel => "list index out of range"
  | unsized => SizeError.unsized.message

/-- Rows of pixels from the top, each from the left; `true` is lit. -/
structure Framebuffer where
  width : Int
  height : Int
  rows : List (List Bool)
  deriving DecidableEq, Repr

namespace Framebuffer

/-- Width of the machine's screen. -/
def screenWidth : Nat := 64

/-- Height of the machine's screen. -/
def screenHeight : Nat := 32

/-- Width of a sprite. -/
def spriteWidth : Nat := 8

/-- All pixels dark. A row is made only where there is one. -/
def blank (width height : Int) : Framebuffer where
  width := width
  height := height
  rows :=
    if 0 < height then List.replicate height.toNat (List.replicate width.toNat false) else []

/-- All pixels dark, if there can be rows of this width and there is storage for all of them. -/
def create (storage : Storage) (width height : Int) : Except SizeError Framebuffer :=
  if 0 < height then do
    let row ← Size.cells storage width
    if storage.cells (height.toNat * row) then .ok (blank width height) else .error .outOfMemory
  else .ok (blank width height)

/-- The machine's screen before anything is drawn. -/
def screen : Framebuffer := blank screenWidth screenHeight

/-- Turns every pixel dark. -/
def clear (f : Framebuffer) : Framebuffer := blank f.width f.height

/-- The column a coordinate means. -/
def column (f : Framebuffer) (x : Int) : Nat := (x % f.width).toNat

/-- The row a coordinate means. -/
def row (f : Framebuffer) (y : Int) : Nat := (y % f.height).toNat

/-- Whether the pixel at a position is lit. -/
def lit (f : Framebuffer) (x y : Int) : Bool :=
  (f.rows.getD (f.row y) []).getD (f.column x) false

/-- Turns a lit pixel dark and a dark one lit. -/
def toggle (f : Framebuffer) (x y : Int) : Framebuffer :=
  { f with rows := f.rows.modify (f.row y) (·.modify (f.column x) not) }

/-- A coordinate can be brought into a side of this length. -/
def checkSide (side : Int) : Except PixelError Unit :=
  if side = 0 then .error .noSide else .ok ()

/-- A side of this length has the pixel that a coordinate means. On a side of negative length the
place is counted down from zero, and there is no pixel at it. -/
def checkPixel (coordinate side : Int) : Except PixelError Unit :=
  if 0 ≤ side then .ok ()
  else if Size.isSize (coordinate.fmod side) then .error .noPixel
  else .error .unsized

/-- Looks a pixel up, the row first. -/
def lit? (f : Framebuffer) (x y : Int) : Except PixelError Bool := do
  checkSide f.height
  checkPixel y f.height
  checkSide f.width
  checkPixel x f.width
  return f.lit x y

/-- Toggles a pixel and tells whether it was lit; both coordinates are brought inside first. -/
def toggle? (f : Framebuffer) (x y : Int) : Except PixelError (Bool × Framebuffer) := do
  checkSide f.width
  checkSide f.height
  checkPixel y f.height
  checkPixel x f.width
  return (f.lit x y, f.toggle x y)

/-- Toggles pixels one after another and tells whether any of them was lit at its turn. -/
def toggleAll (f : Framebuffer) (positions : List (Int × Int)) : Framebuffer × Bool :=
  positions.foldl (fun (g, hit) p => (g.toggle p.1 p.2, hit || g.lit p.1 p.2)) (f, false)

/-- Where the set bits of a sprite row fall, the leftmost pixel being the highest bit. -/
def spriteRow (x y : Int) (bits : UInt8) : List (Int × Int) :=
  let columns := (List.range spriteWidth).filter fun c => bits.toNat.testBit (7 - c)
  columns.map fun (c : Nat) => (x + c, y)

/-- Where the set bits of a sprite fall when its top left corner is at a position. -/
def spritePixels (x y : Int) (sprite : List UInt8) : List (Int × Int) :=
  (sprite.zipIdx).flatMap fun (bits, r) => spriteRow x (y + r) bits

/-- Draws a sprite by toggling its pixels and tells whether one of them was lit before. -/
def draw (f : Framebuffer) (x y : Int) (sprite : List UInt8) : Framebuffer × Bool :=
  f.toggleAll (spritePixels x y sprite)

theorem rows_blank (width height : Int) :
    (blank width height).rows = List.replicate height.toNat (List.replicate width.toNat false) := by
  unfold blank
  split
  · rfl
  · rename_i h
    rw [Int.toNat_of_nonpos (Int.not_lt.mp h)]
    rfl

end Framebuffer

end ChipEight
