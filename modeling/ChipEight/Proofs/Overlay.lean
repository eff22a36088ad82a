import Mathlib.Data.List.Forall2
import Mathlib.Data.List.Perm.Basic
import ChipEight.Proofs.Sprites

/-!
Sprites on top of each other. A drawing flips the pixels that it lights on a dark screen, whatever
it meets, so a row of drawings leaves the exclusive or of the screen and all their pictures
(`lit_drawAll`). This is all that the screen shows of them: neither their order matters, nor does a
picture that comes twice, nor does a place that is moved around the screen (`drawAll_overlay`).
-/

namespace ChipEight

namespace Framebuffer

variable {f g : Framebuffer}

/-! ### Screens by their pixels -/

theorem IsScreen.lit_natCast (h : f.IsScreen) {x y : Nat} (hy : y < f.rows.length)
    (hx : x < f.rows[y].length) : f.lit x y = f.rows[y][x] := by
  have hrow : f.row y = y := by
    rw [h.rows] at hy
    rw [h.row_eq]
    omega
  have hcolumn : f.column x = x := by
    rw [h.row _ (List.getElem_mem hy)] at hx
    rw [h.column_eq]
    omega
  simp [lit, hrow, hcolumn, hx, hy]

/-- Two screens that show the same are the same. -/
theorem IsScreen.ext (hf : f.IsScreen) (hg : g.IsScreen)
    (h : ∀ x y, f.lit x y = g.lit x y) : f = g := by
  have hrows : f.rows = g.rows := by
    refine List.ext_getElem (hf.rows.trans hg.rows.symm) fun y hy hy' => ?_
    have hwidth := (hf.row _ (List.getElem_mem hy)).trans (hg.row _ (List.getElem_mem hy')).symm
    refine List.ext_getElem hwidth fun x hx hx' => ?_
    rw [← hf.lit_natCast hy hx, ← hg.lit_natCast hy' hx', h]
  obtain ⟨width, height, rows⟩ := f
  obtain ⟨width', height', rows'⟩ := g
  obtain rfl : width = width' := hf.width.trans hg.width.symm
  obtain rfl : height = height' := hf.height.trans hg.height.symm
  obtain rfl : rows = rows' := hrows
  rfl

/-- No pixel of the screen is lit before anything is drawn. -/
@[simp] theorem lit_screen (x y : Int) : screen.lit x y = false := by
  obtain ⟨r, hr, b, hb⟩ := isScreen_screen.exists_pixel x y
  have hrow : r = List.replicate 64 false :=
    List.eq_of_mem_replicate (List.mem_of_getElem? hr)
  have hpixel : b = false := List.eq_of_mem_replicate (hrow ▸ List.mem_of_getElem? hb)
  simp [lit, hr, hb, hpixel]

/-! ### Pictures on top of each other -/

/-- The exclusive or of what pictures show at a position. -/
def overlay (pictures : List Framebuffer) (x y : Int) : Bool :=
  (pictures.map (·.lit x y)).foldr xor false

@[simp] theorem overlay_nil (x y : Int) : overlay [] x y = false := rfl

@[simp] theorem overlay_cons (p : Framebuffer) (pictures : List Framebuffer) (x y : Int) :
    overlay (p :: pictures) x y = (p.lit x y ^^ overlay pictures x y) := rfl

theorem overlay_perm {pictures pictures' : List Framebuffer} (h : pictures'.Perm pictures)
    (x y : Int) : overlay pictures' x y = overlay pictures x y := by
  have hcomm : LeftCommutative xor := ⟨Bool.xor_left_comm⟩
  exact (h.map _).foldr_eq false

end Framebuffer

/-- A sprite to be drawn: where it is read from, what two registers say of its place, and the
instruction that draws it there. -/
structure Drawing where
  index : Int
  left : Int
  top : Int
  instruction : Instruction
  draws : instruction.operation = .draw
  apart : instruction.x ≠ instruction.y

namespace Drawing

open Framebuffer

/-- The machine with I and the two registers set for the drawing. -/
def posed (d : Drawing) (m : Machine) : Machine :=
  (({ m with index := d.index }).assign d.instruction.x d.left).assign d.instruction.y d.top

/-- The drawing as it comes out on a machine. -/
def on (d : Drawing) (m : Machine) (tracing : Bool) (env : Surroundings) : Outcome :=
  (d.posed m).perform tracing env d.instruction

variable {d e : Drawing} {m : Machine}

theorem v_posed_x (d : Drawing) (m : Machine) : (d.posed m).v d.instruction.x = d.left % 256 := by
  rw [posed, Machine.v_assign_of_ne _ d.apart, Machine.v_assign_self]

theorem v_posed_y (d : Drawing) (m : Machine) : (d.posed m).v d.instruction.y = d.top % 256 :=
  Machine.v_assign_self ..

/-- A drawing completes, whatever it is told, and has drawn its sprite. -/
theorem on_eq (d : Drawing) (m : Machine) (tracing : Bool) (env : Surroundings) :
    d.on m tracing env =
      ⟨(d.posed m).drawSprite d.instruction.x d.instruction.y d.instruction.n,
        (d.posed m).trace tracing d.instruction, none⟩ := by
  have hexec : (d.posed m).execute env.keys env.random d.instruction =
      .ok ((d.posed m).drawSprite d.instruction.x d.instruction.y d.instruction.n) := by
    simp only [Machine.execute, d.draws]
  rw [on, Machine.perform, hexec]
  rfl

@[simp] theorem failure_on (d : Drawing) (m : Machine) (tracing : Bool) (env : Surroundings) :
    (d.on m tracing env).failure = none := by
  rw [on_eq]

@[simp] theorem memory_on (d : Drawing) (m : Machine) (tracing : Bool) (env : Surroundings) :
    (d.on m tracing env).machine.memory = m.memory := by
  rw [on_eq]
  rfl

theorem screen_on (d : Drawing) (m : Machine) (tracing : Bool) (env : Surroundings) :
    (d.on m tracing env).machine.screen = ((d.posed m).drawn d.instruction).1 := by
  rw [on_eq]
  rfl

/-- The picture that a drawing makes on a dark screen. -/
def picture (d : Drawing) (m : Machine) (tracing : Bool) (env : Surroundings) : Framebuffer :=
  (d.on { m with screen := Framebuffer.screen } tracing env).machine.screen

/-- Which pixels a drawing flips depends on the drawing and on the memory alone. -/
theorem flips_posed_iff (d : Drawing) (m : Machine) (x y : Int) :
    (d.posed m).Flips d.instruction x y ↔
      (y - d.top % 256) % 32 < d.instruction.n ∧ (x - d.left % 256) % 64 < 8 ∧
        (m.memory.read (d.index + (y - d.top % 256) % 32)).toNat.testBit
          (7 - (x - d.left % 256) % 64).toNat = true := by
  rw [Machine.Flips, v_posed_x, v_posed_y]
  rfl

section

variable {tracing : Bool} {env : Surroundings}

theorem isScreen_on (h : m.screen.IsScreen) : (d.on m tracing env).machine.screen.IsScreen := by
  rw [screen_on]
  exact IsScreen.draw (f := (d.posed m).screen) h _ _ _

theorem lit_on (h : m.screen.IsScreen) (x y : Int) :
    (d.on m tracing env).machine.screen.lit x y =
      (m.screen.lit x y ^^ decide ((d.posed m).Flips d.instruction x y)) := by
  rw [screen_on]
  exact Machine.lit_drawn (m := d.posed m) h d.instruction x y

theorem isScreen_picture (d : Drawing) (m : Machine) : (d.picture m tracing env).IsScreen :=
  isScreen_on isScreen_screen

/-- A picture shows the pixels that its drawing flips. -/
theorem lit_picture (d : Drawing) (m : Machine) (tracing : Bool) (env : Surroundings) (x y : Int) :
    (d.picture m tracing env).lit x y = decide ((d.posed m).Flips d.instruction x y) := by
  rw [picture, lit_on isScreen_screen]
  simp [flips_posed_iff]

theorem picture_congr (d : Drawing) {m' : Machine} (h : m'.memory = m.memory) :
    d.picture m' tracing env = d.picture m tracing env := by
  refine (d.isScreen_picture m').ext (d.isScreen_picture m) fun x y => ?_
  simp [lit_picture, flips_posed_iff, h]

end

/-- The same drawing, at a place that is as many screens away as one likes. -/
structure Moved (d e : Drawing) : Prop where
  index : e.index = d.index
  instruction : e.instruction = d.instruction
  left : ∃ k : Int, e.left = d.left + 64 * k
  top : ∃ k : Int, e.top = d.top + 32 * k

/-- Around the screen is where it was. -/
theorem Moved.picture (h : d.Moved e) (m : Machine) (tracing : Bool) (env : Surroundings) :
    e.picture m tracing env = d.picture m tracing env := by
  refine (e.isScreen_picture m).ext (d.isScreen_picture m) fun x y => ?_
  obtain ⟨j, hleft⟩ := h.left
  obtain ⟨k, htop⟩ := h.top
  have hright : (x - e.left % 256) % 64 = (x - d.left % 256) % 64 := by omega
  have hdown : (y - e.top % 256) % 32 = (y - d.top % 256) % 32 := by omega
  have hflips : (e.posed m).Flips e.instruction x y ↔ (d.posed m).Flips d.instruction x y := by
    rw [flips_posed_iff, flips_posed_iff, h.index, h.instruction, hright, hdown]
  simp [lit_picture, hflips]

end Drawing

namespace Machine

open Framebuffer

variable {m : Machine} {tracing : Bool} {env : Surroundings}

/-- The machine that a row of drawings leaves. -/
def drawAll (m : Machine) (tracing : Bool) (env : Surroundings) (ds : List Drawing) : Machine :=
  ds.foldl (fun m d => (d.on m tracing env).machine) m

@[simp] theorem drawAll_nil (m : Machine) : m.drawAll tracing env [] = m := rfl

@[simp] theorem drawAll_cons (m : Machine) (d : Drawing) (ds : List Drawing) :
    m.drawAll tracing env (d :: ds) = (d.on m tracing env).machine.drawAll tracing env ds := rfl

/-- The pictures that drawings make on a dark screen, from the memory of this machine. -/
def pictures (m : Machine) (tracing : Bool) (env : Surroundings) (ds : List Drawing) :
    List Framebuffer :=
  ds.map fun d => d.picture m tracing env

@[simp] theorem pictures_nil (m : Machine) : m.pictures tracing env [] = [] := rfl

@[simp] theorem pictures_cons (m : Machine) (d : Drawing) (ds : List Drawing) :
    m.pictures tracing env (d :: ds) = d.picture m tracing env :: m.pictures tracing env ds := rfl

theorem pictures_congr {m' : Machine} (h : m'.memory = m.memory) (ds : List Drawing) :
    m'.pictures tracing env ds = m.pictures tracing env ds :=
  List.map_congr_left fun d _ => d.picture_congr h

/-- Drawings that are moved around the screen make the same pictures. -/
theorem pictures_of_moved (m : Machine) {ds ds' : List Drawing}
    (h : List.Forall₂ Drawing.Moved ds ds') :
    m.pictures tracing env ds' = m.pictures tracing env ds := by
  induction h with
  | nil => rfl
  | cons hd _ ih => rw [pictures_cons, pictures_cons, hd.picture, ih]

@[simp] theorem memory_drawAll (m : Machine) (ds : List Drawing) :
    (m.drawAll tracing env ds).memory = m.memory := by
  induction ds generalizing m with
  | nil => rfl
  | cons d ds ih => rw [drawAll_cons, ih, Drawing.memory_on]

theorem isScreen_drawAll (h : m.screen.IsScreen) (tracing : Bool) (env : Surroundings)
    (ds : List Drawing) : (m.drawAll tracing env ds).screen.IsScreen := by
  induction ds generalizing m with
  | nil => exact h
  | cons d ds ih => exact ih (Drawing.isScreen_on h)

/-- A row of drawings lays its pictures over the screen. -/
theorem lit_drawAll (h : m.screen.IsScreen) (ds : List Drawing) (x y : Int) :
    (m.drawAll tracing env ds).screen.lit x y =
      (m.screen.lit x y ^^ overlay (m.pictures tracing env ds) x y) := by
  induction ds generalizing m with
  | nil => simp
  | cons d ds ih =>
    have hpictures : (d.on m tracing env).machine.pictures tracing env ds =
        m.pictures tracing env ds := pictures_congr (d.memory_on m tracing env) ds
    rw [drawAll_cons, ih (Drawing.isScreen_on h), Drawing.lit_on h, hpictures,
      ← d.lit_picture m tracing env, pictures_cons, overlay_cons, Bool.xor_assoc]

/-- Drawings with the same overlay leave the same screen. -/
theorem screen_drawAll_congr (h : m.screen.IsScreen) {ds ds' : List Drawing}
    (hoverlay : ∀ x y, overlay (m.pictures tracing env ds') x y =
      overlay (m.pictures tracing env ds) x y) :
    (m.drawAll tracing env ds').screen = (m.drawAll tracing env ds).screen := by
  refine (isScreen_drawAll h _ _ ds').ext (isScreen_drawAll h _ _ ds) fun x y => ?_
  rw [lit_drawAll h, lit_drawAll h, hoverlay]

/-- Every drawing completes, and a row of them leaves the exclusive or of the screen and of the
pictures that each makes on a dark one. So they may come in any order; all of them once more, in any
order again, restore the screen; and none of them minds being moved by whole screens. -/
theorem drawAll_overlay (h : m.screen.IsScreen) (tracing : Bool) (env : Surroundings)
    (ds : List Drawing) :
    (∀ (d : Drawing) (n : Machine), (d.on n tracing env).failure = none) ∧
      (∀ x y, (m.drawAll tracing env ds).screen.lit x y =
        (m.screen.lit x y ^^ overlay (m.pictures tracing env ds) x y)) ∧
      (∀ ds' : List Drawing, ds'.Perm ds →
        (m.drawAll tracing env ds').screen = (m.drawAll tracing env ds).screen ∧
          ((m.drawAll tracing env ds).drawAll tracing env ds').screen = m.screen) ∧
      ∀ ds' : List Drawing, List.Forall₂ Drawing.Moved ds ds' →
        (m.drawAll tracing env ds').screen = (m.drawAll tracing env ds).screen := by
  refine ⟨fun d n => d.failure_on n tracing env, lit_drawAll h ds, fun ds' hperm => ?_,
    fun ds' hmoved => ?_⟩
  · have hoverlay : ∀ x y, overlay (m.pictures tracing env ds') x y =
        overlay (m.pictures tracing env ds) x y := overlay_perm (hperm.map _)
    refine ⟨screen_drawAll_congr h hoverlay, ?_⟩
    have hdrawn := isScreen_drawAll h tracing env ds
    refine (isScreen_drawAll hdrawn _ _ ds').ext h fun x y => ?_
    rw [lit_drawAll hdrawn, lit_drawAll h, pictures_congr (memory_drawAll m ds), hoverlay,
      Bool.xor_assoc, Bool.xor_self, Bool.xor_false]
  · refine screen_drawAll_congr h fun x y => ?_
    rw [pictures_of_moved m hmoved]

/-- The glyph of one, over the lower right corner. -/
def oneInCorner : Drawing := ⟨5, 60, 30, ⟨.draw, 0xD015⟩, rfl, by decide⟩

/-- The same one, a screen further to the right and two further down. -/
def oneMoved : Drawing := ⟨5, 124, 94, ⟨.draw, 0xD015⟩, rfl, by decide⟩

/-- Four rows from the last cell on, over the right edge. -/
def lastCell : Drawing := ⟨0xFFF, 62, 31, ⟨.draw, 0xDE24⟩, rfl, by decide⟩

/-- On a screen with the glyph of zero over its right edge, where the first pixel of that glyph is
taken by both drawings and a later one by the second alone. -/
theorem drawAll_overlay_corner :
    let both := overEdge.drawAll false (holding []) [oneInCorner, lastCell]
    both.screen.lit 62 0 = true ∧ both.screen.lit 0 0 = false ∧
      (overEdge.drawAll false (holding []) [lastCell, oneInCorner]).screen = both.screen ∧
      (both.drawAll false (holding []) [lastCell, oneInCorner]).screen = overEdge.screen ∧
      (overEdge.drawAll false (holding []) [oneMoved, lastCell]).screen = both.screen := by
  intro both
  have hscreen : overEdge.screen.IsScreen := (Reachable.inBounds ⟨0, _, rfl⟩).screen
  have hmoved : oneInCorner.Moved oneMoved := ⟨rfl, rfl, ⟨1, rfl⟩, ⟨2, rfl⟩⟩
  have hstill : lastCell.Moved lastCell := ⟨rfl, rfl, ⟨0, rfl⟩, ⟨0, rfl⟩⟩
  obtain ⟨-, hlit, hperm, hmove⟩ :=
    drawAll_overlay hscreen false (holding []) [oneInCorner, lastCell]
  obtain ⟨horder, htwice⟩ := hperm [lastCell, oneInCorner] (List.Perm.swap ..)
  refine ⟨?_, ?_, horder, htwice, hmove _ (.cons hmoved (.cons hstill .nil))⟩
  · rw [hlit]
    decide +kernel
  · rw [hlit]
    decide +kernel

end Machine

end ChipEight
