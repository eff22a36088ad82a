import ChipEight.Surface

/-!
What a window asks of a display. A display makes surfaces of some kind, gives all pixels of one a
colour, and paints rectangles; `pixel?` is what can be seen of a surface. Two laws say what the
display is relied on for: filling reaches every pixel of a surface, and painting a rectangle changes
the pixels that it covers and no others. A display that has a surface of some size takes the
rectangles whose numbers are no larger.

There are two displays of `Surface`. The exact one has no bounds. The other one is given numbers of
two words and keeps the lower word of them, with its sign, and what it has room for is bounded.
-/

namespace ChipEight

/-- Why there is no surface of some size. -/
inductive SurfaceError where
  /-- The display does not take the size. -/
  | unsized
  | negativeSide
  | outOfMemory
  deriving DecidableEq, Repr

/-- The wording of a surface error. -/
def SurfaceError.message : SurfaceError → String
  | unsized => "size needs to be (number width, number height)"
  | negativeSide => "Invalid resolution for Surface"
  | outOfMemory => "Out of memory"

/-- A display with surfaces of some kind. -/
structure Display (σ : Type) where
  /-- A surface of a width and a height. -/
  create : Int → Int → Except SurfaceError σ
  width : σ → Nat
  height : σ → Nat
  /-- The colour of a pixel, if there is one at the position. -/
  pixel? : σ → Nat → Nat → Option Colour
  fill : σ → Colour → σ
  /-- The display takes a rectangle. -/
  takes : Rectangle → Bool
  paint : σ → Colour → Rectangle → σ
  /-- The pixels that are painted for a rectangle. -/
  covers : Rectangle → Nat → Nat → Bool
  takes_inside : ∀ w h s area, create w h = .ok s → area.Inside w h → takes area = true
  sides_fill : ∀ s c, width (fill s c) = width s ∧ height (fill s c) = height s
  sides_paint : ∀ s c area, width (paint s c area) = width s ∧ height (paint s c area) = height s
  pixel?_fill : ∀ s c x y,
    pixel? (fill s c) x y = if x < width s ∧ y < height s then some c else none
  pixel?_paint : ∀ s c area x y,
    pixel? (paint s c area) x y = (pixel? s x y).map fun old => if covers area x y then c else old

namespace Display

/-- The display has a surface of every size that is not negative. -/
def Ample {σ : Type} (d : Display σ) : Prop :=
  ∀ width height, 0 ≤ width → 0 ≤ height → ∃ s, d.create width height = .ok s

/-- The colour of a surface that nothing has been painted on. -/
def black : Colour := ⟨0, 0, 0, 255⟩

/-- The display that takes every number and paints exactly the given rectangle, as far as the
surface goes. -/
def exact : Display Surface where
  create width height :=
    if width < 0 ∨ height < 0 then .error .negativeSide
    else .ok (.plain width.toNat height.toNat black)
  width := Surface.width
  height := Surface.height
  pixel? := Surface.pixel?
  fill := Surface.fill
  takes _ := true
  paint := Surface.paint
  covers := Rectangle.holds
  takes_inside _ _ _ _ _ _ := rfl
  sides_fill _ _ := ⟨rfl, rfl⟩
  sides_paint _ _ _ := ⟨rfl, rfl⟩
  pixel?_fill s c := Surface.pixel?_plain s.width s.height c
  pixel?_paint := Surface.pixel?_paint

theorem ample_exact : exact.Ample := by
  intro width height hwidth hheight
  exact ⟨_, if_neg (by omega)⟩

/-! ### Numbers of two words -/

/-- How many values a word has. -/
def wordSize : Nat := 0x100000000

/-- Half as many as there are values of two words. -/
def takenLimit : Int := 0x8000000000000000

/-- How many bytes a row of pixels may have. -/
def rowLimit : Nat := 0x80000000

/-- How many bytes a picture may have. -/
def pictureLimit : Nat := 0x800000000

/-- How many bytes a pixel has. -/
def pixelBytes : Nat := 4

/-- The number has two words. -/
def isTaken (v : Int) : Bool := -takenLimit ≤ v && v < takenLimit

/-- The lower word of a number. -/
def keep (v : Int) : Int := v.bmod wordSize

/-- What is kept of a rectangle. -/
def keepArea (area : Rectangle) : Rectangle :=
  ⟨keep area.left, keep area.top, keep area.width, keep area.height⟩

/-- There is room for a picture of a size. -/
def hasRoom (width height : Nat) : Bool :=
  pixelBytes * width < rowLimit && pixelBytes * width * height < pictureLimit

/-- A number between the ends of a side has two words if the side has. -/
theorem isTaken_of_between {side v : Int} (h : isTaken side = true) (hv : Between side v) :
    isTaken v = true := by
  rw [isTaken, Bool.and_eq_true, decide_eq_true_eq, decide_eq_true_eq] at *
  obtain ⟨hlow, hhigh⟩ := hv
  omega

/-- A surface of two words. -/
def createWords (width height : Int) : Except SurfaceError Surface :=
  if !(isTaken width && isTaken height) then .error .unsized
  else if keep width < 0 ∨ keep height < 0 then .error .negativeSide
  else if !hasRoom (keep width).toNat (keep height).toNat then .error .outOfMemory
  else .ok (.plain (keep width).toNat (keep height).toNat black)

theorem isTaken_of_createWords {width height : Int} {s : Surface}
    (h : createWords width height = .ok s) : isTaken width = true ∧ isTaken height = true := by
  rw [createWords] at h
  cases hsize : isTaken width && isTaken height with
  | false => simp [hsize] at h
  | true => exact Bool.and_eq_true_iff.mp hsize

/-- The display that takes numbers of two words and paints what it keeps of a rectangle. -/
def words : Display Surface where
  create := createWords
  width := Surface.width
  height := Surface.height
  pixel? := Surface.pixel?
  fill := Surface.fill
  takes area := [area.left, area.top, area.width, area.height].all isTaken
  paint s c area := s.paint c (keepArea area)
  covers area := (keepArea area).holds
  takes_inside w h _ area hcreate hinside := by
    obtain ⟨hwidth, hheight⟩ := isTaken_of_createWords hcreate
    obtain ⟨hleft, htop, hacross, hdown⟩ := hinside
    simp [isTaken_of_between hwidth hleft, isTaken_of_between hheight htop,
      isTaken_of_between hwidth hacross, isTaken_of_between hheight hdown]
  sides_fill _ _ := ⟨rfl, rfl⟩
  sides_paint _ _ _ := ⟨rfl, rfl⟩
  pixel?_fill s c := Surface.pixel?_plain s.width s.height c
  pixel?_paint s c area := s.pixel?_paint c (keepArea area)

end Display

end ChipEight
