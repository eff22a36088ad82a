import ChipEight.Machine.Execute

/-!
What the operations of the machine's parts do, said once for each so that nothing later opens them:
which values a store can hold after an operation, when a stack refuses, and how far the timers can
get in an update.
-/

namespace ChipEight

/-- The values of eight bits. -/
abbrev IsByte (v : Int) : Prop := 0 ≤ v ∧ v ≤ 0xFF

/-- The values of sixteen bits. -/
abbrev IsWord (v : Int) : Prop := 0 ≤ v ∧ v ≤ 0xFFFF

theorem isByte_emod (v : Int) : IsByte (v % 256) := ⟨by omega, by omega⟩

theorem isWord_emod (v : Int) : IsWord (v % 65536) := ⟨by omega, by omega⟩

namespace Byte

theorem isByte_toInt (b : Byte) : IsByte b.toInt := by
  have := b.toNat_lt
  rw [toInt]
  exact ⟨by omega, by omega⟩

theorem toInt_wrap (v : Int) : (wrap v).toInt = v % 256 := toNat_wrap v

theorem toInt_wrap_of_isByte {v : Int} (h : IsByte v) : (wrap v).toInt = v := by
  rw [toInt_wrap]
  omega

end Byte

/-! ### Registers -/

namespace Registers

theorem toList_eq_map_read (r : Registers) : r.toList = (List.finRange 16).map r.read := by
  refine List.ext_getElem (by simp [toList]) fun k hk hk' => ?_
  rw [List.length_map, List.length_finRange] at hk'
  simp only [toList, List.getElem_map, List.getElem_finRange, read]
  by_cases h : k < 15
  · rw [List.getElem_append_left (by simpa using h), List.getElem_map, dif_pos (by simpa using h)]
    simp
  · rw [List.getElem_append_right (by simpa using h), dif_neg (by simpa using h)]
    simp

/-- Every register holds a byte. -/
def Bytes (r : Registers) : Prop := ∀ x, IsByte (r.read x)

theorem bytes_zero : zero.Bytes := by
  intro x
  rw [read, zero]
  split
  · exact Byte.isByte_toInt _
  · exact ⟨Int.le_refl 0, by decide⟩

/-- Whatever is written, a byte arrives. -/
theorem Bytes.write {r : Registers} (h : r.Bytes) (x : Fin 16) (v : Int) : (r.write x v).Bytes := by
  intro y
  rw [read_write]
  split
  · exact isByte_emod v
  · exact h y

theorem Bytes.foldl_write {r : Registers} (h : r.Bytes) (value : Fin 16 → Int) (l : List (Fin 16)) :
    (l.foldl (fun r k => r.write k (value k)) r).Bytes := by
  induction l generalizing r with
  | nil => exact h
  | cons k l ih => exact ih (h.write k (value k))

end Registers

/-! ### The stack -/

namespace Stack

/-- Sixteen slots with sixteen bits in each, whether it is in use or not. -/
structure Words (s : Stack) : Prop where
  depth : s.slots.length = 16
  word : ∀ a ∈ s.slots, IsWord a
  used : s.used ≤ 16 := depth ▸ s.used_le

theorem words_empty : (empty machineDepth).Words := by
  refine { depth := List.length_replicate, word := ?_ }
  intro a ha
  rw [List.eq_of_mem_replicate ha]
  exact ⟨by omega, by omega⟩

theorem push_of_lt {s : Stack} (h : s.used < s.slots.length) (a : Int) :
    ∃ s', s.push a = .ok s' ∧ s'.slots = s.slots.set s.used a ∧ s'.used = s.used + 1 :=
  ⟨_, dif_pos h, rfl, rfl⟩

theorem push_of_full {s : Stack} (h : s.used = s.slots.length) (a : Int) :
    s.push a = .error (.stackOverflow s.slots.length) :=
  dif_neg (by omega)

/-- A push either succeeds with a slot to spare or refuses with none. -/
theorem push_cases (s : Stack) (a : Int) :
    (∃ s', s.push a = .ok s' ∧ s.used < s.slots.length ∧
      s'.slots = s.slots.set s.used a ∧ s'.used = s.used + 1) ∨
    (s.push a = .error (.stackOverflow s.slots.length) ∧ s.used = s.slots.length) := by
  rcases Nat.lt_or_eq_of_le s.used_le with h | h
  · obtain ⟨s', hs, hslots, hused⟩ := push_of_lt h a
    exact .inl ⟨s', hs, h, hslots, hused⟩
  · exact .inr ⟨push_of_full h a, h⟩

/-- A pop either gives the newest address back or finds none. -/
theorem pop_cases (s : Stack) :
    (∃ a s', s.pop = .ok (a, s') ∧ 0 < s.used ∧ s.slots[s.used - 1]? = some a ∧
      s'.slots = s.slots ∧ s'.used = s.used - 1) ∨
    (s.pop = .error .stackUnderflow ∧ s.used = 0) := by
  have := s.used_le
  rcases Nat.eq_zero_or_pos s.used with h | h
  · exact .inr ⟨dif_neg (by omega), h⟩
  · exact .inl ⟨_, _, dif_pos h, h, List.getElem?_eq_getElem (by omega), rfl, rfl⟩

/-- A push is refused exactly if every slot is in use. -/
theorem push_error_iff {s : Stack} {a : Int} {f : Fault} :
    s.push a = .error f ↔ s.used = s.slots.length ∧ f = .stackOverflow s.slots.length := by
  rcases s.push_cases a with ⟨s', hs, hlt, -, -⟩ | ⟨hs, hfull⟩
  · have hne : s.used ≠ s.slots.length := by omega
    simp [hs, hne]
  · simp [hs, hfull, eq_comm]

/-- A pop is refused exactly if no slot is in use. -/
theorem pop_error_iff {s : Stack} {f : Fault} :
    s.pop = .error f ↔ s.used = 0 ∧ f = .stackUnderflow := by
  rcases s.pop_cases with ⟨a, s', hs, hpos, -, -, -⟩ | ⟨hs, hzero⟩
  · have hne : s.used ≠ 0 := by omega
    simp [hs, hne]
  · simp [hs, hzero, eq_comm]

@[simp] theorem length_addresses (s : Stack) : s.addresses.length = s.used := by
  rw [addresses, List.length_take, Nat.min_eq_left s.used_le]

/-- A push puts an address behind the others. -/
theorem addresses_push {s s' : Stack} {a : Int} (h : s.push a = .ok s') :
    s'.addresses = s.addresses ++ [a] ∧ s'.slots.length = s.slots.length := by
  rcases s.push_cases a with ⟨t, ht, hlt, hslots, hused⟩ | ⟨he, -⟩
  · obtain rfl : t = s' := by rw [h] at ht; exact (Except.ok.inj ht).symm
    unfold addresses
    rw [hslots, hused, List.length_set, List.take_add_one, List.take_set_of_le (Nat.le_refl _),
      List.getElem?_set_self hlt]
    exact ⟨rfl, rfl⟩
  · rw [he] at h; cases h

/-- A pop takes the last address away and leaves the others. -/
theorem addresses_pop {s s' : Stack} {a : Int} (h : s.pop = .ok (a, s')) :
    s.addresses = s'.addresses ++ [a] ∧ s'.slots.length = s.slots.length := by
  rcases s.pop_cases with ⟨b, t, ht, hpos, hget, hslots, hused⟩ | ⟨he, -⟩
  · rw [h] at ht
    obtain ⟨rfl, rfl⟩ := Prod.mk.inj (Except.ok.inj ht)
    obtain ⟨k, hk⟩ : ∃ k, s.used = k + 1 := ⟨s.used - 1, by omega⟩
    rw [hk, Nat.add_sub_cancel] at hget
    unfold addresses
    rw [hslots, hused, hk, Nat.add_sub_cancel, List.take_add_one, hget]
    exact ⟨rfl, rfl⟩
  · rw [he] at h; cases h

theorem Words.push {s s' : Stack} (h : s.Words) {a : Int} (ha : IsWord a) (hs : s.push a = .ok s') :
    s'.Words := by
  rcases s.push_cases a with ⟨t, ht, -, hslots, -⟩ | ⟨he, -⟩
  · obtain rfl : t = s' := by rw [hs] at ht; exact (Except.ok.inj ht).symm
    refine { depth := by rw [hslots, List.length_set, h.depth], word := ?_ }
    intro b hb
    rw [hslots] at hb
    rcases List.mem_or_eq_of_mem_set hb with hb | rfl
    · exact h.word b hb
    · exact ha
  · rw [he] at hs; cases hs

theorem Words.pop {s s' : Stack} (h : s.Words) {a : Int} (hs : s.pop = .ok (a, s')) :
    s'.Words ∧ IsWord a := by
  rcases s.pop_cases with ⟨b, t, ht, -, hget, hslots, -⟩ | ⟨he, -⟩
  · rw [hs] at ht
    obtain ⟨rfl, rfl⟩ := Prod.mk.inj (Except.ok.inj ht)
    exact ⟨{ depth := hslots ▸ h.depth, word := hslots ▸ h.word },
      h.word _ (List.mem_of_getElem? hget)⟩
  · rw [he] at hs; cases hs

end Stack

/-! ### The screen -/

namespace Framebuffer

/-- A full screen: 32 rows of 64 pixels. -/
structure IsScreen (f : Framebuffer) : Prop where
  width : f.width = 64
  height : f.height = 32
  rows : f.rows.length = 32
  row : ∀ r ∈ f.rows, r.length = 64

theorem isScreen_screen : screen.IsScreen := by
  refine ⟨rfl, rfl, List.length_replicate, ?_⟩
  intro r hr
  rw [List.eq_of_mem_replicate hr]
  exact List.length_replicate

theorem IsScreen.column_eq {f : Framebuffer} (h : f.IsScreen) (x : Int) :
    f.column x = (x % 64).toNat := by
  rw [column, h.width]

theorem IsScreen.row_eq {f : Framebuffer} (h : f.IsScreen) (y : Int) :
    f.row y = (y % 32).toNat := by
  rw [Framebuffer.row, h.height]

/-- Every position means a pixel. -/
theorem IsScreen.exists_pixel {f : Framebuffer} (h : f.IsScreen) (x y : Int) :
    ∃ r, f.rows[f.row y]? = some r ∧ ∃ b, r[f.column x]? = some b := by
  have hrow : f.row y < f.rows.length := by
    rw [h.row_eq, h.rows]
    omega
  have hcolumn : f.column x < f.rows[f.row y].length := by
    rw [h.column_eq, h.row _ (List.getElem_mem hrow)]
    omega
  exact ⟨_, List.getElem?_eq_getElem hrow, _, List.getElem?_eq_getElem hcolumn⟩

theorem IsScreen.clear {f : Framebuffer} (h : f.IsScreen) : f.clear.IsScreen := by
  unfold Framebuffer.clear
  rw [h.width, h.height]
  exact isScreen_screen

theorem IsScreen.toggle {f : Framebuffer} (h : f.IsScreen) (x y : Int) : (f.toggle x y).IsScreen := by
  refine ⟨h.width, h.height, ?_, ?_⟩
  · rw [← h.rows]
    exact List.length_modify ..
  · intro r hr
    obtain ⟨k, hk, rfl⟩ := List.getElem_of_mem hr
    unfold Framebuffer.toggle at hk ⊢
    rw [List.length_modify] at hk
    have hrow := h.row _ (List.getElem_mem hk)
    rw [List.getElem_modify]
    split
    · rw [List.length_modify, hrow]
    · exact hrow

theorem IsScreen.foldl_toggle {f : Framebuffer} (h : f.IsScreen) (hit : Bool)
    (ps : List (Int × Int)) :
    (ps.foldl (fun (g, hit) p => (g.toggle p.1 p.2, hit || g.lit p.1 p.2)) (f, hit)).1.IsScreen := by
  induction ps generalizing f hit with
  | nil => exact h
  | cons p ps ih => exact ih (h.toggle p.1 p.2) _

theorem IsScreen.draw {f : Framebuffer} (h : f.IsScreen) (x y : Int) (sprite : List UInt8) :
    (f.draw x y sprite).1.IsScreen :=
  h.foldl_toggle _ _

end Framebuffer

/-! ### The timers -/

/-- One of the two timers. -/
inductive Timer where
  | delay | sound
  deriving DecidableEq, Repr

namespace Timers

variable {time rate : Type}

/-- Both timers hold a byte. -/
structure Bytes (t : Timers time rate) : Prop where
  delay : IsByte t.delay
  sound : IsByte t.sound

theorem Bytes.tick {t : Timers time rate} (h : t.Bytes) {n : Int} (hn : 0 ≤ n) : (t.tick n).Bytes := by
  obtain ⟨⟨hd0, hd⟩, ⟨hs0, hs⟩⟩ := h
  unfold Timers.tick
  exact ⟨⟨by dsimp only; omega, by dsimp only; omega⟩, ⟨by dsimp only; omega, by dsimp only; omega⟩⟩

/-- The timers once a reading has been taken down and no tick been applied. -/
def heard [Clockwork time rate] (t : Timers time rate) (now : time) : Timers time rate :=
  { t with last := now, elapsed := Clockwork.add rate t.elapsed (Clockwork.sub rate now t.last) }

/-- The ticks in the time that has been heard of. -/
def found [Clockwork time rate] (t : Timers time rate) (now : time) : Except ClockFault Int :=
  Clockwork.ticks (t.heard now).elapsed t.rate

/-- The timers once the ticks that were found have been applied. -/
def counted [Clockwork time rate] (t : Timers time rate) (now : time) (k : Int) : Timers time rate :=
  let rest := Clockwork.sub rate (t.heard now).elapsed (Clockwork.span k t.rate)
  { t.heard now with elapsed := rest }.tick k

theorem update_of_error [Clockwork time rate] {t : Timers time rate} {now : time} {f : ClockFault}
    (h : t.found now = .error f) : t.update now = (t.heard now, .error f) := by
  rw [found, heard] at h
  rw [update, h]
  rfl

theorem update_of_ok [Clockwork time rate] {t : Timers time rate} {now : time} {k : Int}
    (h : t.found now = .ok k) :
    t.update now = (if 0 < k then t.counted now k else t.heard now, .ok k) := by
  rw [found, heard] at h
  rw [update, h]
  by_cases hk : 0 < k
  · rw [if_pos hk]
    exact if_pos hk
  · rw [if_neg hk]
    exact if_neg hk

theorem snd_update [Clockwork time rate] (t : Timers time rate) (now : time) :
    (t.update now).2 = t.found now := by
  rcases h : t.found now with f | k
  · rw [update_of_error h]
  · rw [update_of_ok h]

/-- The ticks that an update applies, told from those it has found: time that runs backwards applies
none. -/
def applied : Except ClockFault Int → Int
  | .ok found => max 0 found
  | .error _ => 0

theorem applied_nonneg (found : Except ClockFault Int) : 0 ≤ applied found := by
  cases found with
  | error f => exact Int.le_refl 0
  | ok k => exact Int.le_max_left 0 k

/-- The value of one of the timers. -/
def value (t : Timers time rate) : Timer → Int
  | .delay => t.delay
  | .sound => t.sound

theorem value_heard [Clockwork time rate] (t : Timers time rate) (now : time) (c : Timer) :
    (t.heard now).value c = t.value c := by
  cases c <;> rfl

/-- An update counts a timer down by the ticks it applies. -/
theorem value_update [Clockwork time rate] {t : Timers time rate} {c : Timer} (h : 0 ≤ t.value c)
    (now : time) : (t.update now).1.value c = max 0 (t.value c - applied (t.update now).2) := by
  rcases hfound : t.found now with f | k
  · rw [update_of_error hfound]
    change (t.heard now).value c = max 0 (t.value c - 0)
    rw [value_heard]
    omega
  · rw [update_of_ok hfound]
    change (if 0 < k then t.counted now k else t.heard now).value c = max 0 (t.value c - max 0 k)
    by_cases hk : 0 < k
    · rw [if_pos hk, Int.max_eq_right (Int.le_of_lt hk)]
      calc (t.counted now k).value c = max 0 ((t.heard now).value c - k) := by cases c <;> rfl
        _ = max 0 (t.value c - k) := by rw [value_heard]
    · rw [if_neg hk, value_heard]
      omega

theorem Bytes.value {t : Timers time rate} (h : t.Bytes) (c : Timer) : IsByte (t.value c) := by
  cases c with
  | delay => exact h.delay
  | sound => exact h.sound

theorem Bytes.update [Clockwork time rate] {t : Timers time rate} (h : t.Bytes) (now : time) :
    (t.update now).1.Bytes := by
  have hbyte (c : Timer) : IsByte ((t.update now).1.value c) := by
    have happlied := applied_nonneg (t.update now).2
    obtain ⟨hlow, hhigh⟩ := h.value c
    rw [value_update hlow]
    exact ⟨by omega, by omega⟩
  exact ⟨hbyte .delay, hbyte .sound⟩

end Timers

end ChipEight
