import ChipEight.Proofs.Picture

/-!
What a window shows. The squares of the pixels of a picture lie side by side without a gap: a
surface pixel is in the square of the pixel that its coordinates give when they are divided by the
scale (`within_square_iff`), and in no other. All of them lie on the surface of a window that has
been opened for the screen, and none of them is refused (`render?_of_openWindow`). On a display that paints the squares as they are
each surface pixel tells of one pixel of the picture whether it is there and lit, squares that reach
over the edge of the surface included, and nothing is left of what was on the surface before
(`render?_scales`).
-/

namespace ChipEight

/-- Numbers that are not negative and lie within a word arrive as they are. -/
theorem Display.keep_of_lt {v : Int} (hpos : 0 ≤ v) (h : v < 0x80000000) :
    isTaken v = true ∧ keep v = v := by
  refine ⟨?_, Int.bmod_eq_of_le ?_ ?_⟩
  · rw [isTaken, Bool.and_eq_true, decide_eq_true_eq, decide_eq_true_eq, takenLimit]
    omega
  · simp only [wordSize]
    omega
  · simp only [wordSize]
    omega

/-- A span as long as the scale, and as many of them from the edge as a number says, holds the
places that give this number when they are divided by the scale. -/
theorem within_square_iff {n : Nat} (hn : 0 < n) (a k : Nat) :
    within (a * n : Nat) n k = true ↔ k / n = a := by
  rw [Nat.div_eq_iff hn]
  simp only [within, Bool.and_eq_true, decide_eq_true_eq]
  omega

variable {σ : Type}

namespace Window

/-- The picture has a row there and a pixel in it, and the pixel is lit. -/
def LitAt (picture : List (List Bool)) (x y : Nat) : Prop :=
  (picture[y]?.bind fun row => row[x]?) = some true

instance (picture : List (List Bool)) (x y : Nat) : Decidable (LitAt picture x y) :=
  inferInstanceAs (Decidable (_ = _))

theorem mem_litPositions {picture : List (List Bool)} {x y : Nat} :
    (x, y) ∈ litPositions picture ↔ LitAt picture x y := by
  simp only [litPositions, LitAt, List.mem_flatMap, List.mem_map, List.mem_filter, Prod.exists,
    List.mk_mem_zipIdx_iff_getElem?, Option.bind_eq_some_iff, Prod.mk.injEq]
  constructor
  · rintro ⟨row, _, hrow, lit, _, ⟨hlit, rfl⟩, rfl, rfl⟩
    exact ⟨row, hrow, hlit⟩
  · rintro ⟨row, hrow, hlit⟩
    exact ⟨row, y, hrow, true, x, ⟨hlit, rfl⟩, rfl, rfl⟩

/-- As many steps from the edge as a side has, or fewer, do not leave the side. -/
theorem between_mul {a n : Nat} (h : a ≤ n) (scale : Int) :
    Between (n * scale) (a * scale) := by
  have hle : (a : Int) ≤ n := Int.ofNat_le.mpr h
  rcases Int.le_total 0 scale with hscale | hscale
  · have hpos : 0 ≤ (a : Int) * scale := Int.mul_nonneg (Int.natCast_nonneg a) hscale
    have hside : (a : Int) * scale ≤ n * scale := Int.mul_le_mul_of_nonneg_right hle hscale
    rw [Between]
    omega
  · have hneg : (a : Int) * scale ≤ 0 :=
      Int.mul_nonpos_of_nonneg_of_nonpos (Int.natCast_nonneg a) hscale
    have hside : (n : Int) * scale ≤ a * scale := Int.mul_le_mul_of_nonpos_right hle hscale
    rw [Between]
    omega

/-- A window that could be opened can show every screen, whatever is on its surface: the display
takes each square, so that showing a screen is never refused. -/
theorem render?_of_openWindow {display : Display σ} {scale : Int} {w : Window σ}
    (hopen : Host.openWindow display (.value scale) = .ok w) {f : Framebuffer} (hf : f.IsScreen)
    (s : σ) : ({ w with surface := s } : Window σ).render? f.rows =
      .ok (({ w with surface := s } : Window σ).render f.rows) := by
  obtain ⟨surface, hcreate, rfl⟩ := Host.onSurface_of_openWindow hopen
  refine if_pos (List.all_eq_true.mpr ?_)
  rintro ⟨x, y⟩ hp
  obtain ⟨row, hrow, hpixel⟩ := Option.bind_eq_some_iff.mp (mem_litPositions.mp hp)
  have hy : y < 32 := hf.rows ▸ (List.getElem?_eq_some_iff.mp hrow).1
  have hx : x < 64 :=
    hf.row row (List.mem_of_getElem? hrow) ▸ (List.getElem?_eq_some_iff.mp hpixel).1
  have hwidth : Between (64 * scale) (1 * scale) := between_mul (by decide) scale
  have hheight : Between (32 * scale) (1 * scale) := between_mul (by decide) scale
  rw [Int.one_mul] at hwidth hheight
  exact display.takes_inside _ _ _ _ hcreate
    ⟨between_mul (Nat.le_of_lt hx) scale, between_mul (Nat.le_of_lt hy) scale, hwidth, hheight⟩

/-- The display takes the squares of the lit pixels and paints exactly them. -/
def Undistorted (w : Window σ) (picture : List (List Bool)) : Prop :=
  ∀ p ∈ litPositions picture, w.display.takes (w.square p) = true ∧
    ∀ x y, w.display.covers (w.square p) x y = (w.square p).holds x y

theorem undistorted_exact {w : Window Surface} (h : w.display = .exact)
    (picture : List (List Bool)) : w.Undistorted picture := by
  intro p _
  rw [h]
  exact ⟨rfl, fun _ _ => rfl⟩

/-- The display of two words paints squares as they are that have no numbers beyond a word. -/
theorem undistorted_words {w : Window Surface} (h : w.display = .words) {picture : List (List Bool)}
    (hscale : 1 ≤ w.scale) (hword : ∀ p ∈ litPositions picture,
      p.1 * w.scale < 0x80000000 ∧ p.2 * w.scale < 0x80000000 ∧ w.scale < 0x80000000) :
    w.Undistorted picture := by
  intro p hp
  obtain ⟨hleft, htop, hside⟩ := hword p hp
  have hpos (a : Nat) : (0 : Int) ≤ a * w.scale :=
    Int.mul_nonneg (Int.natCast_nonneg a) (by omega)
  obtain ⟨htakenLeft, hkeptLeft⟩ := Display.keep_of_lt (hpos p.1) hleft
  obtain ⟨htakenTop, hkeptTop⟩ := Display.keep_of_lt (hpos p.2) htop
  obtain ⟨htakenSide, hkeptSide⟩ := Display.keep_of_lt (by omega : 0 ≤ w.scale) hside
  have hkept : Display.keepArea (w.square p) = w.square p := by
    simp only [Display.keepArea, square, hkeptLeft, hkeptTop, hkeptSide]
  rw [h]
  refine ⟨?_, fun x y => ?_⟩
  · simp [Display.words, square, htakenLeft, htakenTop, htakenSide]
  · change (Display.keepArea (w.square p)).holds x y = _
    rw [hkept]

variable {w : Window σ} {picture : List (List Bool)}

/-- A surface pixel is painted if the pixel of the picture is lit in whose square it lies. -/
theorem Undistorted.inked_iff (h : w.Undistorted picture) {n : Nat} (hn : 0 < n)
    (hscale : w.scale = n) (x y : Nat) :
    w.inked (litPositions picture) x y = true ↔ LitAt picture (x / n) (y / n) := by
  have hinside (p : Nat × Nat) : (w.square p).holds x y = true ↔ p = (x / n, y / n) := by
    rw [Rectangle.holds, Bool.and_eq_true]
    simp only [square, hscale]
    rw [← Int.natCast_mul, ← Int.natCast_mul, within_square_iff hn, within_square_iff hn]
    exact ⟨fun h => Prod.ext h.1.symm h.2.symm, fun h => by rw [h]; exact ⟨rfl, rfl⟩⟩
  rw [← mem_litPositions, inked, List.any_eq_true]
  constructor
  · rintro ⟨p, hp, hcovers⟩
    rw [(h p hp).2, hinside] at hcovers
    exact hcovers ▸ hp
  · intro hp
    exact ⟨_, hp, by rw [(h _ hp).2, hinside]⟩

/-- Each pixel of the surface shows the pixel of the picture whose square it is in: it has the
foreground colour if the picture has a row there, the row has an entry and the entry is lit, and
the background colour if not. The picture may have any rows, the surface any size, and what it
showed before does not matter. -/
theorem render?_scales (hdisplay : w.Undistorted picture) (hscale : 1 ≤ w.scale) :
    ∃ w', w.render? picture = .ok w' ∧
      w.display.width w'.surface = w.display.width w.surface ∧
      w.display.height w'.surface = w.display.height w.surface ∧
      (∀ x y : Nat, x < w.display.width w.surface → y < w.display.height w.surface →
        let lit := LitAt picture (x / w.scale.toNat) (y / w.scale.toNat)
        w'.pixel? x y = some (if lit then w.foreground else w.background) ∧
          (w.foreground ≠ w.background → (w'.pixel? x y = some w.foreground ↔ lit))) ∧
      ∀ old : σ, w.display.width old = w.display.width w.surface →
        w.display.height old = w.display.height w.surface →
        ∃ w'', ({ w with surface := old } : Window σ).render? picture = .ok w'' ∧
          ∀ x y, w''.pixel? x y = w'.pixel? x y := by
  obtain ⟨n, hn⟩ := Int.eq_ofNat_of_zero_le (Int.le_trans (by decide) hscale)
  have hpos : 0 < n := by omega
  have hside : w.scale.toNat = n := by omega
  have htaken : (litPositions picture).all (fun p => w.display.takes (w.square p)) = true :=
    List.all_eq_true.mpr fun p hp => (hdisplay p hp).1
  obtain ⟨hwidth, hheight⟩ := w.sides_render picture
  refine ⟨w.render picture, if_pos htaken, hwidth, hheight, fun x y hx hy => ?_,
    fun old hw hh => ⟨_, if_pos htaken, w.render_congr picture hw hh⟩⟩
  have hpixel : (w.render picture).pixel? x y =
      some (if LitAt picture (x / n) (y / n) then w.foreground else w.background) := by
    rw [pixel?_render, if_pos ⟨hx, hy⟩]
    simp only [hdisplay.inked_iff hpos hn]
  intro lit
  simp only [lit, hside, hpixel]
  refine ⟨trivial, fun hcolours => ?_⟩
  by_cases hlit : LitAt picture (x / n) (y / n)
  · simp [hlit]
  · simp [hlit, Ne.symm hcolours]

/-- A window on a surface that is smaller than its picture and has something on it. -/
def smallWindow : Window Surface where
  display := .words
  width := 64
  height := 32
  scale := 3
  background := blue
  foreground := lightBlue
  surface := (Surface.plain 7 5 ⟨0, 0, 0, 255⟩).paint ⟨255, 0, 0, 255⟩ ⟨3, 3, 2, 2⟩

/-- A picture whose second row is shorter than the first. -/
def raggedPicture : List (List Bool) := [[false, true, true], [true]]

/-- A square that reaches over the edge is seen as far as the surface goes, and what was there is
painted over where the short row has no pixel. -/
theorem render?_scales_ragged :
    ∃ w', smallWindow.render? raggedPicture = .ok w' ∧
      w'.pixel? 6 2 = some lightBlue ∧ w'.pixel? 3 3 = some blue := by
  have hundistorted : smallWindow.Undistorted raggedPicture :=
    undistorted_words rfl (by decide) (by decide)
  obtain ⟨w', hrender, -, -, hpixels, -⟩ := render?_scales hundistorted (by decide)
  exact ⟨w', hrender, (hpixels 6 2 (by decide) (by decide)).1,
    (hpixels 3 3 (by decide) (by decide)).1⟩

end Window

end ChipEight
