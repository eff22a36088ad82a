import ChipEight.Framebuffer
import ChipEight.Display

/-!
The window shows a picture of lit and dark pixels on a surface, each as a square of `scale` by
`scale` surface pixels: the whole surface takes the background colour and then each lit pixel its
square in the foreground colour. `render` shows a picture; `render?` also asks whether the display
takes the numbers of each square, and where it does the two agree. `shown` reads a picture off the
surface again.
-/

namespace ChipEight

/-- A display, a size in pixels of the picture, the scale, two colours and the surface. -/
structure Window (σ : Type) where
  display : Display σ
  width : Int
  height : Int
  scale : Int
  background : Colour
  foreground : Colour
  surface : σ

/-- A square has a number that the display does not take. -/
inductive RenderError where
  | badSquare
  deriving DecidableEq, Repr

/-- The wording of a render error. -/
def RenderError.message : RenderError → String
  | badSquare => "rect argument is invalid"

namespace Window

variable {σ : Type}

/-- The usual length of the side of a square. -/
def standardScale : Int := 15

/-- The usual background. -/
def blue : Colour := ⟨80, 69, 155, 255⟩

/-- The usual foreground. -/
def lightBlue : Colour := ⟨136, 126, 203, 255⟩

/-- The size of the surface that a window asks for. -/
def surfaceSize (width height scale : Int) : Int × Int := (width * scale, height * scale)

/-- A window in its background colour. -/
def onSurface (display : Display σ) (width height scale : Int) (background foreground : Colour)
    (surface : σ) : Window σ :=
  ⟨display, width, height, scale, background, foreground, display.fill surface background⟩

/-- A window on a surface of the size it asks for. -/
def create (display : Display σ) (width height scale : Int) (background foreground : Colour) :
    Except SurfaceError (Window σ) :=
  let (w, h) := surfaceSize width height scale
  (display.create w h).map (onSurface display width height scale background foreground)

/-- The colour of a pixel of the surface. -/
def pixel? (w : Window σ) (x y : Nat) : Option Colour := w.display.pixel? w.surface x y

/-- The positions of the lit pixels of a picture, row by row. -/
def litPositions (picture : List (List Bool)) : List (Nat × Nat) :=
  picture.zipIdx.flatMap fun (row, y) =>
    (row.zipIdx.filter fun (lit, _) => lit).map fun (_, x) => (x, y)

/-- The square of a pixel. -/
def square (w : Window σ) (p : Nat × Nat) : Rectangle :=
  ⟨p.1 * w.scale, p.2 * w.scale, w.scale, w.scale⟩

/-- Paints the square of a pixel. -/
def paintSquare (w : Window σ) (s : σ) (p : Nat × Nat) : σ :=
  w.display.paint s w.foreground (w.square p)

/-- Shows a picture. -/
def render (w : Window σ) (picture : List (List Bool)) : Window σ :=
  { w with
    surface := (litPositions picture).foldl w.paintSquare (w.display.fill w.surface w.background) }

/-- Shows a picture if the display takes the square of each lit pixel. -/
def render? (w : Window σ) (picture : List (List Bool)) : Except RenderError (Window σ) :=
  if (litPositions picture).all fun p => w.display.takes (w.square p) then .ok (w.render picture)
  else .error .badSquare

/-- The sides of a cell when the surface is shared out evenly among the pixels of the picture. -/
def cellSize (w : Window Surface) : Nat × Nat :=
  (w.surface.width / w.width.toNat, w.surface.height / w.height.toNat)

/-- The picture as it can be read off the surface: a cell is lit if its lower right surface pixel
has the foreground colour. -/
def shown (w : Window Surface) : List (List Bool) :=
  let (width, height) := w.cellSize
  (List.range w.height.toNat).map fun y =>
    let row := w.surface.row? ((y + 1) * height - 1)
    (List.range w.width.toNat).map fun x =>
      row.bind (·.pixel? ((x + 1) * width - 1)) == some w.foreground

end Window

end ChipEight
