/-!
Pictures in colour. A surface is a ground in one colour with patches on it, of which the newest
covers the older ones, and what lies outside its rectangle cannot be seen. `pixel?` is the view;
`pixel?_plain` and `pixel?_paint` say what it shows of a surface in one colour and of a painted
rectangle.
-/

namespace ChipEight

/-- Red, green, blue and opacity. -/
structure Colour where
  red : Nat
  green : Nat
  blue : Nat
  alpha : Nat
  deriving DecidableEq, Repr

/-- The colour with these components, each of which must be a byte. -/
def Colour.ofComponents? (red green blue alpha : Int) : Option Colour :=
  if [red, green, blue, alpha].all fun c => 0 ≤ c && c < 256 then
    some ⟨red.toNat, green.toNat, blue.toNat, alpha.toNat⟩
  else none

/-- The wording where components make no colour. -/
def Colour.refusal : String := "invalid color argument"

/-- A number lies in a span. -/
def within (start length : Int) (k : Nat) : Bool := start ≤ k && k < start + length

/-- A rectangle by its left and its upper end and the lengths of its sides. -/
structure Rectangle where
  left : Int
  top : Int
  width : Int
  height : Int
  deriving DecidableEq, Repr

/-- A pixel lies in a rectangle. -/
def Rectangle.holds (r : Rectangle) (x y : Nat) : Bool :=
  within r.left r.width x && within r.top r.height y

/-- A number lies between the two ends of a side that begins at zero and may run either way. -/
def Between (side v : Int) : Prop := min 0 side ≤ v ∧ v ≤ max 0 side

/-- The numbers of a rectangle are no larger than the sides of a picture. -/
def Rectangle.Inside (width height : Int) (r : Rectangle) : Prop :=
  Between width r.left ∧ Between height r.top ∧ Between width r.width ∧ Between height r.height

/-- A rectangle in one colour. -/
structure Patch where
  colour : Colour
  area : Rectangle
  deriving DecidableEq, Repr

/-- A size, the colour of the ground and the patches on it, the newest first. -/
structure Surface where
  width : Nat
  height : Nat
  ground : Colour
  patches : List Patch
  deriving DecidableEq, Repr

/-- A row of pixels of a surface, with the patches that reach into it. -/
structure PixelRow where
  width : Nat
  ground : Colour
  patches : List Patch
  deriving DecidableEq, Repr

namespace PixelRow

/-- The colour of a pixel of the row: that of the newest patch on it, or of the ground. -/
def pixel? (r : PixelRow) (x : Nat) : Option Colour :=
  if x < r.width then
    let patch? := r.patches.find? fun p => within p.area.left p.area.width x
    some ((patch?.map Patch.colour).getD r.ground)
  else none

/-- The colours in the row from the left. -/
def colours (r : PixelRow) : List Colour := (List.range r.width).filterMap r.pixel?

end PixelRow

namespace Surface

/-- A surface in one colour. -/
def plain (width height : Nat) (c : Colour) : Surface := ⟨width, height, c, []⟩

/-- A row of pixels of the surface. -/
def row? (s : Surface) (y : Nat) : Option PixelRow :=
  if y < s.height then
    some ⟨s.width, s.ground, s.patches.filter fun p => within p.area.top p.area.height y⟩
  else none

/-- The colour of a pixel of the surface. -/
def pixel? (s : Surface) (x y : Nat) : Option Colour := (s.row? y).bind (·.pixel? x)

/-- The rows of pixels from the top. -/
def rows (s : Surface) : List PixelRow := (List.range s.height).filterMap s.row?

/-- Gives all pixels one colour. -/
def fill (s : Surface) (c : Colour) : Surface := plain s.width s.height c

/-- Gives the pixels inside a rectangle one colour. -/
def paint (s : Surface) (c : Colour) (area : Rectangle) : Surface :=
  { s with patches := ⟨c, area⟩ :: s.patches }

@[simp] theorem pixel?_plain (width height : Nat) (c : Colour) (x y : Nat) :
    (plain width height c).pixel? x y = if x < width ∧ y < height then some c else none := by
  by_cases hx : x < width <;> by_cases hy : y < height <;>
    simp [plain, pixel?, row?, PixelRow.pixel?, hx, hy]

@[simp] theorem pixel?_paint (s : Surface) (c : Colour) (area : Rectangle) (x y : Nat) :
    (s.paint c area).pixel? x y =
      (s.pixel? x y).map fun old => if area.holds x y then c else old := by
  unfold paint pixel? row? Rectangle.holds
  by_cases hy : y < s.height
  · simp only [hy, if_true, Option.bind_some, PixelRow.pixel?]
    by_cases hx : x < s.width
    · by_cases htop : within area.top area.height y <;>
        by_cases hleft : within area.left area.width x <;> simp [hx, htop, hleft]
    · simp [hx]
  · simp [hy]

end Surface

end ChipEight
