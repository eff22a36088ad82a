import ChipEight.Proofs.CarriedOut
import ChipEight.Proofs.Footprint

/-!
Drawing, pixel by pixel. A sprite is drawn by toggling one position after another, and as no two of
its positions mean the same pixel, every pixel is toggled once or not at all: the new screen is the
old one with the sprite's pixels flipped, and a hit is a pixel of the sprite that was lit before,
although each is looked up only at its turn (`draw_pixels`).
-/

namespace ChipEight

namespace Framebuffer

/-- Two positions mean the same pixel of the machine's screen. -/
def SamePixel (p q : Int × Int) : Prop := p.1 % 64 = q.1 % 64 ∧ p.2 % 32 = q.2 % 32

instance (p q : Int × Int) : Decidable (SamePixel p q) := inferInstanceAs (Decidable (_ ∧ _))

variable {f : Framebuffer}

/-! ### Positions and pixels -/

theorem IsScreen.samePixel_iff (h : f.IsScreen) (p q : Int × Int) :
    SamePixel p q ↔ f.column p.1 = f.column q.1 ∧ f.row p.2 = f.row q.2 := by
  rw [SamePixel, h.column_eq, h.column_eq, h.row_eq, h.row_eq]
  omega

/-- Positions that mean the same pixel show the same. -/
theorem IsScreen.lit_congr (h : f.IsScreen) {p q : Int × Int} (hsame : SamePixel p q) :
    f.lit p.1 p.2 = f.lit q.1 q.2 := by
  obtain ⟨hcolumn, hrow⟩ := (h.samePixel_iff p q).mp hsame
  rw [lit, lit, hcolumn, hrow]

/-- Toggling flips the pixel that is meant and no other. -/
theorem IsScreen.lit_toggle (h : f.IsScreen) (p q : Int × Int) :
    (f.toggle p.1 p.2).lit q.1 q.2 = (f.lit q.1 q.2 ^^ decide (SamePixel p q)) := by
  obtain ⟨r, hr, b, hb⟩ := h.exists_pixel q.1 q.2
  have hlit : f.lit q.1 q.2 = b := by simp [lit, hr, hb]
  have hdraw : (f.toggle p.1 p.2).lit q.1 q.2 =
      ((f.rows.modify (f.row p.2) (·.modify (f.column p.1) not)).getD (f.row q.2) []).getD
        (f.column q.1) false := rfl
  rw [hlit, hdraw]
  simp only [h.samePixel_iff]
  by_cases hrow : f.row p.2 = f.row q.2
  · by_cases hcolumn : f.column p.1 = f.column q.1 <;>
      simp [hrow, hcolumn, hr, hb]
  · simp [hrow, hr, hb]

/-! ### Toggling in a row -/

theorem foldl_toggle (f : Framebuffer) (hit : Bool) (ps : List (Int × Int)) :
    ps.foldl (fun (g, hit) p => (g.toggle p.1 p.2, hit || g.lit p.1 p.2)) (f, hit) =
      ((f.toggleAll ps).1, hit || (f.toggleAll ps).2) := by
  induction ps generalizing f hit with
  | nil => simp [toggleAll]
  | cons p ps ih =>
    rw [toggleAll, List.foldl_cons, List.foldl_cons, ih, ih]
    simp [Bool.or_assoc]

theorem toggleAll_cons (f : Framebuffer) (p : Int × Int) (ps : List (Int × Int)) :
    f.toggleAll (p :: ps) =
      (((f.toggle p.1 p.2).toggleAll ps).1,
        f.lit p.1 p.2 || ((f.toggle p.1 p.2).toggleAll ps).2) := by
  rw [toggleAll, List.foldl_cons, foldl_toggle, Bool.false_or]

/-- Positions that mean different pixels. -/
def Apart (ps : List (Int × Int)) : Prop := ps.Pairwise fun p q => ¬ SamePixel p q

/-- Toggling different pixels flips each of them. -/
theorem IsScreen.lit_toggleAll (h : f.IsScreen) {ps : List (Int × Int)} (hps : Apart ps)
    (q : Int × Int) :
    (f.toggleAll ps).1.lit q.1 q.2 = (f.lit q.1 q.2 ^^ decide (∃ p ∈ ps, SamePixel p q)) := by
  induction ps generalizing f with
  | nil => simp [toggleAll]
  | cons p ps ih =>
    obtain ⟨hp, hrest⟩ := List.pairwise_cons.mp hps
    rw [toggleAll_cons, ih (h.toggle p.1 p.2) hrest, h.lit_toggle]
    by_cases hsame : SamePixel p q
    · have hnone : ¬ ∃ p' ∈ ps, SamePixel p' q := by
        rintro ⟨p', hp', hsame'⟩
        exact hp p' hp' ⟨hsame.1.trans hsame'.1.symm, hsame.2.trans hsame'.2.symm⟩
      simp [hsame, hnone]
    · simp [hsame]

/-- As no pixel comes twice, a hit is a pixel that was lit before any was toggled. -/
theorem IsScreen.hit_toggleAll (h : f.IsScreen) {ps : List (Int × Int)} (hps : Apart ps) :
    (f.toggleAll ps).2 = true ↔ ∃ p ∈ ps, f.lit p.1 p.2 = true := by
  induction ps generalizing f with
  | nil => simp [toggleAll]
  | cons p ps ih =>
    obtain ⟨hp, hrest⟩ := List.pairwise_cons.mp hps
    have hlater : ∀ p' ∈ ps, (f.toggle p.1 p.2).lit p'.1 p'.2 = f.lit p'.1 p'.2 := by
      intro p' hp'
      simp [h.lit_toggle, hp p' hp']
    rw [toggleAll_cons, Bool.or_eq_true, ih (h.toggle p.1 p.2) hrest]
    simp only [List.mem_cons, exists_eq_or_imp]
    refine or_congr_right (exists_congr fun p' => and_congr_right fun hp' => ?_)
    rw [hlater p' hp']

/-! ### Sprites -/

theorem mem_spritePixels {x y : Int} {sprite : List UInt8} {p : Int × Int} :
    p ∈ spritePixels x y sprite ↔
      ∃ (r : Nat) (bits : UInt8) (c : Nat), sprite[r]? = some bits ∧ c < spriteWidth ∧
        bits.toNat.testBit (7 - c) = true ∧ p = (x + c, y + r) := by
  simp only [spritePixels, spriteRow, List.mem_flatMap, List.mem_map, List.mem_filter,
    List.mem_range, Prod.exists, List.mem_zipIdx_iff_getElem?]
  constructor
  · rintro ⟨bits, r, hr, c, ⟨hc, hbit⟩, rfl⟩
    exact ⟨r, bits, c, hr, hc, hbit, rfl⟩
  · rintro ⟨r, bits, c, hr, hc, hbit, rfl⟩
    exact ⟨bits, r, hr, c, ⟨hc, hbit⟩, rfl⟩

/-- A sprite that is no higher than the screen takes no pixel twice. -/
theorem apart_spritePixels (x y : Int) {sprite : List UInt8} (hlen : sprite.length ≤ screenHeight) :
    Apart (spritePixels x y sprite) := by
  rw [Apart, spritePixels, List.pairwise_flatMap]
  constructor
  · rintro ⟨bits, r⟩ -
    change List.Pairwise _ (spriteRow x (y + r) bits)
    rw [spriteRow, List.pairwise_map]
    refine (List.pairwise_lt_range.filter _).imp_of_mem ?_
    intro c c' hc hc' hlt hsame
    have hbound := List.mem_range.mp (List.mem_filter.mp hc').1
    simp only [spriteWidth] at hbound
    have hcolumn : (x + c) % 64 = (x + c') % 64 := hsame.1
    omega
  · rw [List.pairwise_iff_getElem]
    intro r r' hr hr' hlt p hp q hq hsame
    simp only [List.getElem_zipIdx, Nat.zero_add, spriteRow, List.mem_map] at hp hq
    obtain ⟨c, -, rfl⟩ := hp
    obtain ⟨c', -, rfl⟩ := hq
    simp only [List.length_zipIdx, screenHeight] at hr' hlen
    have hrow : (y + r) % 32 = (y + r') % 32 := hsame.2
    omega

theorem IsScreen.lit_draw (h : f.IsScreen) (x y : Int) {sprite : List UInt8}
    (hlen : sprite.length ≤ screenHeight) (px py : Int) :
    (f.draw x y sprite).1.lit px py =
      (f.lit px py ^^ decide (∃ p ∈ spritePixels x y sprite, SamePixel p (px, py))) :=
  h.lit_toggleAll (apart_spritePixels x y hlen) (px, py)

/-- A sprite hits if it takes a pixel of the screen that is lit. -/
theorem IsScreen.hit_draw (h : f.IsScreen) (x y : Int) {sprite : List UInt8}
    (hlen : sprite.length ≤ screenHeight) :
    (f.draw x y sprite).2 = true ↔
      ∃ px py, (0 ≤ px ∧ px < 64 ∧ 0 ≤ py ∧ py < 32) ∧
        (∃ p ∈ spritePixels x y sprite, SamePixel p (px, py)) ∧ f.lit px py = true := by
  rw [Framebuffer.draw, h.hit_toggleAll (apart_spritePixels x y hlen)]
  constructor
  · rintro ⟨p, hp, hlit⟩
    have hsame : SamePixel p (p.1 % 64, p.2 % 32) :=
      ⟨(Int.emod_emod_of_dvd _ (by decide)).symm, (Int.emod_emod_of_dvd _ (by decide)).symm⟩
    exact ⟨p.1 % 64, p.2 % 32, by omega, ⟨p, hp, hsame⟩, (h.lit_congr hsame).symm.trans hlit⟩
  · rintro ⟨px, py, -, ⟨p, hp, hsame⟩, hlit⟩
    exact ⟨p, hp, (h.lit_congr hsame).trans hlit⟩

end Framebuffer

theorem Memory.getElem?_window {memory : Memory} {address : Int} {count r : Nat} {b : Byte} :
    (memory.window address count)[r]? = some b ↔ r < count ∧ memory.read (address + r) = b := by
  by_cases hr : r < count <;> simp [window, hr]

namespace Machine

open Framebuffer

variable {i : Instruction} {m m' : Machine}

/-- The drawing of a sprite flips a pixel: counted around the edges from where its upper left corner
stands, the pixel is in one of its rows and of its eight columns, and there is a set bit. -/
def Flips (m : Machine) (i : Instruction) (px py : Int) : Prop :=
  (py - m.v i.y) % 32 < i.n ∧ (px - m.v i.x) % 64 < 8 ∧
    (m.memory.read (m.index + (py - m.v i.y) % 32)).toNat.testBit
      (7 - (px - m.v i.x) % 64).toNat = true

instance (m : Machine) (i : Instruction) (px py : Int) : Decidable (m.Flips i px py) :=
  inferInstanceAs (Decidable (_ ∧ _))

/-- The positions of a sprite that is read from I on mean the pixels that its drawing flips. -/
theorem exists_samePixel_iff (m : Machine) (i : Instruction) (px py : Int) :
    (∃ p ∈ spritePixels (m.v i.x) (m.v i.y) (m.memory.window m.index i.n),
      SamePixel p (px, py)) ↔ m.Flips i px py := by
  have hn : i.n < 16 := by
    rw [Instruction.n]
    omega
  constructor
  · rintro ⟨p, hp, hcolumn, hrow⟩
    obtain ⟨r, bits, c, hbits, hc, hbit, rfl⟩ := mem_spritePixels.mp hp
    obtain ⟨hr, rfl⟩ := Memory.getElem?_window.mp hbits
    simp only [spriteWidth] at hc
    dsimp only at hcolumn hrow
    have hdown : (py - m.v i.y) % 32 = r := by omega
    have hright : (px - m.v i.x) % 64 = c := by omega
    have hplace : (7 - (c : Int)).toNat = 7 - c := by omega
    rw [Flips, hdown, hright, hplace]
    exact ⟨by omega, by omega, hbit⟩
  · rintro ⟨hr, hc, hbit⟩
    obtain ⟨r, hdown⟩ : ∃ r : Nat, (py - m.v i.y) % 32 = r :=
      ⟨((py - m.v i.y) % 32).toNat, by omega⟩
    obtain ⟨c, hright⟩ : ∃ c : Nat, (px - m.v i.x) % 64 = c :=
      ⟨((px - m.v i.x) % 64).toNat, by omega⟩
    rw [hdown] at hr hbit
    rw [hright] at hc hbit
    have hplace : (7 - (c : Int)).toNat = 7 - c := by omega
    rw [hplace] at hbit
    refine ⟨(m.v i.x + c, m.v i.y + r), ?_, by dsimp only; omega, by dsimp only; omega⟩
    exact mem_spritePixels.mpr ⟨r, _, c, Memory.getElem?_window.mpr ⟨by omega, rfl⟩,
      by simp only [spriteWidth]; omega, hbit, rfl⟩

/-- The screen with the sprite of an instruction drawn on it, and whether that was a hit. -/
def drawn (m : Machine) (i : Instruction) : Framebuffer × Bool :=
  m.screen.draw (m.v i.x) (m.v i.y) (m.memory.window m.index i.n)

theorem length_window_le (m : Machine) (i : Instruction) :
    (m.memory.window m.index i.n).length ≤ screenHeight := by
  simp only [Memory.window, List.length_map, List.length_range, screenHeight, Instruction.n]
  omega

theorem lit_drawn (hscreen : m.screen.IsScreen) (i : Instruction) (px py : Int) :
    (m.drawn i).1.lit px py = (m.screen.lit px py ^^ decide (m.Flips i px py)) := by
  rw [drawn, hscreen.lit_draw _ _ (m.length_window_le i)]
  simp only [exists_samePixel_iff]

theorem hit_drawn (hscreen : m.screen.IsScreen) (i : Instruction) :
    (m.drawn i).2 = true ↔ ∃ px py, (0 ≤ px ∧ px < 64 ∧ 0 ≤ py ∧ py < 32) ∧ m.Flips i px py ∧
      m.screen.lit px py = true := by
  rw [drawn, hscreen.hit_draw _ _ (m.length_window_le i)]
  simp only [exists_samePixel_iff]

/-- What a machine is like when a sprite has been drawn on its screen. -/
structure Drawn (m : Machine) (i : Instruction) (m' : Machine) : Prop where
  screen : m'.screen.IsScreen
  pixel : ∀ px py, m'.screen.lit px py = (m.screen.lit px py ^^ decide (m.Flips i px py))
  hit : m'.v Registers.flagNumber = 1 ↔ ∃ px py, (0 ≤ px ∧ px < 64 ∧ 0 ≤ py ∧ py < 32) ∧
    m.Flips i px py ∧ m.screen.lit px py = true
  flag : m'.v Registers.flagNumber = 0 ∨ m'.v Registers.flagNumber = 1
  registers : ∀ r, r ≠ Registers.flagNumber → m'.v r = m.v r
  drew : m'.drew = true
  rest : m' = { m with
    screen := m'.screen, registers := m'.registers, drew := m'.drew, buzzer := m'.buzzer }

/-- Drawing a sprite flips its pixels, tells in the flag whether one of them was lit, and changes
nothing else. -/
theorem draw_pixels (h : m.CarriedOut i m') (hop : i.operation = .draw) : m.Drawn i m' := by
  have hscreen := h.inBounds.screen
  have hexec : ∀ keys random, m.execute keys random i = .ok (m.drawSprite i.x i.y i.n) := by
    intro keys random
    simp only [execute, hop]
  have hflag : m'.v Registers.flagNumber = (m.drawn i).2.toInt % 256 := by
    rw [h.v_of_execute hexec]
    exact v_assign_self _ _ _
  have hregisters : ∀ r, r ≠ Registers.flagNumber → m'.v r = m.v r := by
    intro r hr
    rw [h.v_of_execute hexec]
    exact v_assign_of_ne _ hr _
  obtain ⟨b, rfl⟩ := h.eq_of_execute hexec
  refine ⟨hscreen.draw _ _ _, lit_drawn hscreen i, ?_, ?_, hregisters, rfl, rfl⟩
  · rw [hflag, ← hit_drawn hscreen i]
    cases (m.drawn i).2 <;> simp
  · rw [hflag]
    cases (m.drawn i).2 <;> simp

/-- A machine just switched on that has drawn the glyph of zero over the right edge of the screen,
at the column that VF held. -/
def overEdge : Machine :=
  (start 0).serve [.execute 0x6F3E false (holding []), .execute 0xDF05 false (holding [])]

/-- VF is zero now. The same glyph, drawn there, meets what has come around the edge: it puts out
the first pixel of the line, lights the third and leaves the last but one alone. -/
theorem draw_pixels_overEdge :
    let m' := (overEdge.perform false (holding []) ⟨.draw, 0xDF05⟩).machine
    m'.screen.lit 62 0 = true ∧ m'.screen.lit 0 0 = false ∧ m'.screen.lit 2 0 = true ∧
      m'.v Registers.flagNumber = 1 := by
  intro m'
  have hreach : overEdge.Reachable := ⟨0, _, rfl⟩
  have hdrawn := draw_pixels (CarriedOut.alone (i := ⟨.draw, 0xDF05⟩) hreach false (holding [])) rfl
  refine ⟨?_, ?_, ?_, hdrawn.hit.mpr ⟨0, 0, by decide, by decide +kernel, by decide +kernel⟩⟩
  · rw [hdrawn.pixel]
    decide +kernel
  · rw [hdrawn.pixel]
    decide +kernel
  · rw [hdrawn.pixel]
    decide +kernel

end Machine

end ChipEight
