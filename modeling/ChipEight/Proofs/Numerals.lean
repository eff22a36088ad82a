import ChipEight.Proofs.Saving
import ChipEight.Proofs.Sprites

/-!
Showing a number. A value is put into memory as three decimal digits and brought into V0, V1 and V2
from there (`InDigits`); a digit is turned into the address of its glyph; and the glyph is drawn
where it is asked for (`InBounds.lit_glyph`). Only the glyphs hang on what stands in memory.
-/

namespace ChipEight

/-- A digit of a number below a thousand: the hundreds, the tens or the ones. -/
def decimalDigit (value : Int) : Fin 3 → Int
  | 0 => value / 100
  | 1 => value / 10 % 10
  | 2 => value % 10

theorem isDigit_decimalDigit {value : Int} (h : IsByte value) (k : Fin 3) :
    0 ≤ decimalDigit value k ∧ decimalDigit value k ≤ 9 := by
  obtain ⟨hlow, hhigh⟩ := h
  match k with
  | 0 | 1 | 2 =>
    simp only [decimalDigit]
    omega

theorem sum_decimalDigit (value : Int) :
    100 * decimalDigit value 0 + 10 * decimalDigit value 1 + decimalDigit value 2 = value := by
  simp only [decimalDigit]
  omega

namespace Font

/-- The glyph of a digit shows at a pixel: counted around the edges from where its upper left corner
stands, the pixel is in one of its five rows and of its eight columns, and there is a set bit. -/
def shows (digit right down : Int) : Bool :=
  down % 32 < 5 && right % 64 < 8 &&
    (glyphs.getD (5 * digit + down % 32).toNat 0).toNat.testBit (7 - right % 64).toNat

end Font

/-- The font stands in the first cells. -/
def Memory.HoldsFont (m : Memory) : Prop :=
  ∀ (k : Nat) (hk : k < Font.glyphs.length), m.read k = Font.glyphs[k]

namespace Machine

variable {m : Machine} {x : Fin 16} {r : Request}

/-! ### Digits -/

theorem memory_storeDigits (m : Machine) (value : Int) :
    (m.storeDigits value).memory =
      (List.finRange 3).foldl (fun memory k => memory.write (m.index + k) (decimalDigit value k))
        m.memory := by
  have hfirst : m.index + ((0 : Fin 3).val : Int) = m.index := Int.add_zero _
  change _ = ((m.memory.write (m.index + (0 : Fin 3).val) _).write _ _).write _ _
  rw [hfirst]
  rfl

/-- The digits go into different cells, whatever I is. -/
theorem read_storeDigits (m : Machine) (value : Int) (k : Fin 3) :
    (m.storeDigits value).memory.read (m.index + k) = Byte.wrap (decimalDigit value k) := by
  rw [memory_storeDigits]
  exact m.memory.read_foldl_write_row (by decide) m.index (decimalDigit value)
    (List.nodup_finRange 3) (List.mem_finRange k)

theorem respond_storeDigits (h : m.GetsTo .storeDigits x r) :
    ∃ b, m.respond r = { (m.found r).storeDigits ((m.found r).v x) with buzzer := b } :=
  h.respond fun i _ _ hop hx => by simp only [execute, hop, hx]

/-- A value stands in the first three registers, digit by digit, and the only cells to have changed
are the three from I on. -/
structure InDigits (m : Machine) (value : Int) (m' : Machine) : Prop where
  digit : ∀ k : Fin 16, k ≤ 2 → 0 ≤ m'.v k ∧ m'.v k ≤ 9
  sum : 100 * m'.v 0 + 10 * m'.v 1 + m'.v 2 = value
  memory : ∀ a, ¬ Memory.Within m.index 3 a → m'.memory.read a = m.memory.read a

theorem InBounds.inDigits (hm : m.InBounds) (h : m.GetsTo .storeDigits x r) {load : Request}
    (hload : (m.respond r).GetsTo .loadRegs 2 load) :
    m.InDigits ((m.found r).v x) ((m.respond r).respond load) := by
  have hdigits := isDigit_decimalDigit ((hm.found r).registers x)
  have hvalues (k : Fin 3) : ((m.respond r).respond load).v (k.castLE (by decide)) =
      decimalDigit ((m.found r).v x) k := by
    obtain ⟨b, hrespond⟩ := respond_storeDigits h
    have hle : k.castLE (by decide) ≤ (2 : Fin 16) := Nat.le_of_lt_succ k.isLt
    rw [v_respond_loadRegs hload, if_pos hle, hrespond]
    change (((m.found r).storeDigits _).memory.read ((m.found r).index + k)).toInt = _
    have hbyte := hdigits k
    rw [read_storeDigits, Byte.toInt_wrap_of_isByte ⟨hbyte.1, by omega⟩]
  refine ⟨fun k hk => ?_, ?_, fun a ha => ?_⟩
  · have hk' : k.val < 3 := Nat.lt_succ_of_le hk
    exact hvalues ⟨k, hk'⟩ ▸ hdigits ⟨k, hk'⟩
  · have hsum := sum_decimalDigit ((m.found r).v x)
    rw [← hvalues 0, ← hvalues 1, ← hvalues 2] at hsum
    exact hsum
  · obtain ⟨i, hi, hop, -⟩ := h
    have hstores : i.stores = 3 := by simp only [Instruction.stores, hop]
    rw [memory_respond_loadRegs hload]
    exact (respond_keeps hi).1 a (hstores ▸ ha)

/-! ### Glyphs -/

theorem respond_loadGlyph (h : m.GetsTo .loadGlyph x r) :
    ∃ b, m.respond r =
      { m.found r with index := Font.start + (m.found r).v x * Font.glyphSize, buzzer := b } :=
  h.respond (n := { m.found r with index := Font.start + (m.found r).v x * Font.glyphSize })
    fun i _ _ hop hx => by simp only [execute, hop, hx]

/-- A sprite of five rows that is read from where a glyph stands is the glyph. -/
theorem flips_iff_shows (hfont : m.memory.HoldsFont) {digit : Int}
    (hdigit : 0 ≤ digit ∧ digit ≤ 15) (hindex : m.index = 5 * digit) {i : Instruction}
    (hn : i.n = 5) (px py : Int) :
    m.Flips i px py ↔ Font.shows digit (px - m.v i.x) (py - m.v i.y) = true := by
  have hread (down : Int) (hdown : 0 ≤ down ∧ down < 5) :
      m.memory.read (5 * digit + down) = Font.glyphs.getD (5 * digit + down).toNat 0 := by
    have hlength : Font.glyphs.length = 80 := rfl
    have hk : (5 * digit + down).toNat < Font.glyphs.length := by omega
    have hplace : ((5 * digit + down).toNat : Int) = 5 * digit + down := by omega
    rw [List.getD_eq_getElem?_getD, List.getElem?_eq_getElem hk, ← hfont _ hk, hplace]
    rfl
  rw [Flips, Font.shows, hn, hindex, Bool.and_eq_true, Bool.and_eq_true, decide_eq_true_iff,
    decide_eq_true_iff, and_assoc]
  refine and_congr_right fun hdown => ?_
  rw [hread _ ⟨by omega, hdown⟩]

/-- With the address of its glyph in I, a digit is shown by the next sprite of five rows. -/
theorem InBounds.lit_glyph (hm : m.InBounds) (hfont : m.memory.HoldsFont)
    (h : m.GetsTo .loadGlyph x r) (hdigit : (m.found r).v x ≤ 15) {draw : Request} {i : Instruction}
    (hi : (m.respond r).requested draw = some i) (hop : i.operation = .draw) (hn : i.n = 5)
    (px py : Int) :
    ((m.respond r).respond draw).screen.lit px py =
      (m.screen.lit px py ^^ Font.shows ((m.found r).v x)
        (px - ((m.respond r).found draw).v i.x) (py - ((m.respond r).found draw).v i.y)) := by
  obtain ⟨hlow, -⟩ := (hm.found r).registers x
  obtain ⟨b, haimed⟩ := respond_loadGlyph h
  obtain ⟨b', hdrawn⟩ := respond_of_execute hi
    (n := ((m.respond r).found draw).drawSprite i.x i.y i.n) fun keys random => by
      simp only [Machine.execute, hop]
  have hmemory : ((m.respond r).found draw).memory = m.memory := by
    rw [found_memory, haimed]
    exact m.found_memory r
  have hindex : ((m.respond r).found draw).index = 5 * (m.found r).v x := by
    rw [found_index, haimed]
    change (0 : Int) + (m.found r).v x * 5 = _
    omega
  have hscreen : ((m.respond r).found draw).screen = m.screen := by
    rw [found_screen, haimed]
    exact m.found_screen r
  rw [hdrawn]
  change (((m.respond r).found draw).drawn i).1.lit px py = _
  rw [lit_drawn (((hm.respond r).found draw).screen), hscreen]
  simp only [flips_iff_shows (hmemory ▸ hfont) ⟨hlow, hdigit⟩ hindex hn, Bool.decide_eq_true]

/-- A number can be shown, in every machine inside its bounds. Its digits, stored and loaded, are in
V0, V1 and V2, whatever register it comes from and wherever I stands. As long as the font is in its
place, a digit in a register has its glyph drawn by a sprite of five rows: the screen is flipped
where the glyph shows, counted from where the instruction says, and nowhere else. -/
theorem digits_glyphs_shown (hm : m.InBounds) :
    (∀ x store, m.GetsTo .storeDigits x store → ∀ load, (m.respond store).GetsTo .loadRegs 2 load →
      m.InDigits ((m.found store).v x) ((m.respond store).respond load)) ∧
    (m.memory.HoldsFont → ∀ d aim, m.GetsTo .loadGlyph d aim → (m.found aim).v d ≤ 15 →
      ∀ draw i, (m.respond aim).requested draw = some i → i.operation = .draw → i.n = 5 →
        let n := (m.respond aim).found draw
        ∀ px py, ((m.respond aim).respond draw).screen.lit px py =
          (m.screen.lit px py ^^
            Font.shows ((m.found aim).v d) (px - n.v i.x) (py - n.v i.y))) :=
  ⟨fun _ _ hstore _ hload => hm.inDigits hstore hload,
    fun hfont _ _ haim hdigit _ _ hi hop hn => hm.lit_glyph hfont haim hdigit hi hop hn⟩

/-- A machine just switched on with 231 in V1, a digit in V5 and the last pixel but one of the
screen in VA and VB. -/
def showing : Machine :=
  (start 0).serve [.execute 0x61E7 false (holding []), .execute 0x650F false (holding []),
    .execute 0x6A3E false (holding []), .execute 0x6B1E false (holding [])]

/-- The digits of V1, by way of the cells in front, where the font is; and the glyph of V5, around
the corner of a dark screen: the fourth pixel of its first row and the first of its last are set,
the second of its last is not. -/
theorem digits_glyphs_shown_showing :
    let spelled := (showing.respond (.execute 0xF133 false (holding []))).respond
      (.execute 0xF265 false (holding []))
    let shown := (showing.respond (.execute 0xF529 false (holding []))).respond
      (.execute 0xDAB5 false (holding []))
    100 * spelled.v 0 + 10 * spelled.v 1 + spelled.v 2 = 231 ∧
      shown.screen.lit 1 30 = true ∧ shown.screen.lit 62 2 = true ∧
      shown.screen.lit 63 2 = false := by
  intro spelled shown
  have hshowing : showing.InBounds := Reachable.inBounds ⟨0, _, rfl⟩
  obtain ⟨hdigits, hglyphs⟩ := digits_glyphs_shown hshowing
  have hstore : showing.GetsTo .storeDigits 1 (.execute 0xF133 false (holding [])) :=
    ⟨⟨.storeDigits, 0xF133⟩, by decide +kernel, rfl, rfl⟩
  have hload (m : Machine) : m.GetsTo .loadRegs 2 (.execute 0xF265 false (holding [])) :=
    ⟨⟨.loadRegs, 0xF265⟩, by change decode 0xF265 = _; decide +kernel, rfl, rfl⟩
  have haim : showing.GetsTo .loadGlyph 5 (.execute 0xF529 false (holding [])) :=
    ⟨⟨.loadGlyph, 0xF529⟩, by decide +kernel, rfl, rfl⟩
  have hfont : showing.memory.HoldsFont := by
    unfold Memory.HoldsFont
    decide +kernel
  have hdraw : decode 0xDAB5 = some ⟨.draw, 0xDAB5⟩ := by decide +kernel
  have hpixel := hglyphs hfont 5 _ haim (by decide +kernel) (.execute 0xDAB5 false (holding [])) _
    hdraw rfl rfl
  refine ⟨(hdigits 1 _ hstore _ (hload _)).sum.trans ?_, (hpixel 1 30).trans ?_,
    (hpixel 62 2).trans ?_, (hpixel 63 2).trans ?_⟩
  all_goals decide +kernel

end Machine

end ChipEight
