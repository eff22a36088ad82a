import ChipEight.Machine.Dump
import ChipEight.Proofs.Bounds
import ChipEight.Proofs.Faults
import ChipEight.Proofs.Hexadecimal

/-!
Reading the state of a machine back from its text. A colon stands behind every label and nowhere
else, so that the text falls apart into what is written between the labels (`splitOn_dump`); and a
number in hexadecimal stands behind an `x`, which is no digit and in no label (`numbers?_listing`).
Inside the bounds of the machine no number has a sign, and each can be told from its text
(`Shown.read?_dump`). Two machines then have the same text exactly if they agree on what it shows
(`dump_eq_iff`).
-/

namespace ChipEight

/-! ### Numbers in a text -/

/-- Digits end before the first character that is none. -/
theorem takeWhile_before {p : Char → Bool} {digits text : List Char} (h : ∀ c ∈ digits, p c)
    (hstop : text.head?.all fun c => !p c) : (digits ++ text).takeWhile p = digits := by
  rw [List.takeWhile_append_of_pos h]
  cases text with
  | nil => exact List.append_nil _
  | cons c text => rw [List.takeWhile_cons_of_neg (by simpa using hstop), List.append_nil]

/-- The decimal number that a text begins with. -/
def leadingDecimal (text : List Char) : Int := Nat.ofDigitChars 10 (text.takeWhile Char.isDigit) 0

theorem not_mem_repr {c : Char} (hc : c.isDigit = false) (n : Nat) : c ∉ n.repr.toList := by
  rw [Nat.toList_repr]
  intro hmem
  have hdigit := Nat.isDigit_of_mem_toDigits (by decide) (by decide) hmem
  exact absurd (hdigit.symm.trans hc) (by decide)

theorem leadingDecimal_toString {v : Int} (hv : 0 ≤ v) {text : List Char}
    (hstop : text.head?.all fun c => !c.isDigit) :
    leadingDecimal ((toString v).toList ++ text) = v := by
  obtain ⟨n, rfl⟩ := Int.eq_ofNat_of_zero_le hv
  have hdigits : (toString (n : Int)).toList = Nat.toDigits 10 n := Nat.toList_repr
  rw [leadingDecimal, hdigits,
    takeWhile_before (fun c hc => Nat.isDigit_of_mem_toDigits (by decide) (by decide) hc) hstop,
    Nat.ofDigitChars_toDigits (by decide) (by decide)]

namespace Hex

/-- The numbers in a text, each behind an `x` and without a sign. -/
def numbers? : List Char → Option (List Int)
  | [] => some []
  | 'x' :: text =>
    (value? (text.takeWhile fun c => (digit? c).isSome)).bind fun v =>
      (numbers? text).map ((v : Int) :: ·)
  | _ :: text => numbers? text

theorem numbers?_append {front : List Char} (h : 'x' ∉ front) (text : List Char) :
    numbers? (front ++ text) = numbers? text := by
  induction front with
  | nil => rfl
  | cons c front ih =>
    rw [List.cons_append, numbers?, ih fun hmem => h (List.mem_cons_of_mem _ hmem)]
    rintro rfl
    exact h List.mem_cons_self

/-- A text without numbers. -/
theorem numbers?_of_not_mem {text : List Char} (h : 'x' ∉ text) : numbers? text = some [] := by
  rw [← List.append_nil text, numbers?_append h]
  rfl

/-- Digits behind an `x` are read up to what is no digit any more. -/
theorem numbers?_digits {ds : List Char} {v : Nat} (h : value? ds = some v) {text : List Char}
    (hstop : text.head?.all fun c => !(digit? c).isSome) :
    numbers? ('x' :: (ds ++ text)) = (numbers? text).map ((v : Int) :: ·) := by
  rw [numbers?, takeWhile_before (isSome_digit?_of_value? h) hstop, h,
    numbers?_append (not_mem_of_value? h (by decide))]
  rfl

/-- Four digits and no more are written for a number of sixteen bits, and they give it back. -/
theorem padded_word {v : Int} (h : IsWord v) :
    (padded 4 v).length = 4 ∧ value? (padded 4 v).toList = some v.toNat := by
  rw [padded_eq_fixed (by decide) (by omega), fixed, ← String.length_toList, String.toList_ofList]
  exact ⟨length_lowDigits 4 _, value?_lowDigits_of_lt (by omega)⟩

theorem toList_tagged {v : Int} (hv : 0 ≤ v) :
    (tagged v).toList = '0' :: 'x' :: Nat.toDigits 16 v.toNat := by
  obtain ⟨n, rfl⟩ := Int.eq_ofNat_of_zero_le hv
  have hsign : sign (n : Int) = [] := if_neg (by omega)
  rw [tagged, hsign, String.toList_ofList]
  rfl

theorem numbers?_tagged {v : Int} (hv : 0 ≤ v) (text : List Char) :
    numbers? (("'" ++ tagged v ++ "'").toList ++ text) = (numbers? text).map (v :: ·) := by
  have hquoted : ("'" ++ tagged v ++ "'").toList ++ text =
      "'0".toList ++ 'x' :: (Nat.toDigits 16 v.toNat ++ '\x27' :: text) := by
    simp [toList_tagged hv]
  have hquote : numbers? ('\x27' :: text) = numbers? text :=
    numbers?_append (show 'x' ∉ ['\x27'] by decide) text
  have hstop : ('\x27' :: text).head?.all fun c => !(digit? c).isSome :=
    show (!(digit? '\x27').isSome) = true by decide
  rw [hquoted, numbers?_append (by decide), numbers?_digits (value?_toDigits _) hstop, hquote,
    Int.toNat_of_nonneg hv]

theorem numbers?_row {vs : List Int} (h : ∀ v ∈ vs, 0 ≤ v) (text : List Char) :
    numbers? ((", ".intercalate (vs.map fun v => "'" ++ tagged v ++ "'")).toList ++ text) =
      (numbers? text).map (vs ++ ·) := by
  induction vs with
  | nil => simp
  | cons v vs ih =>
    have hv := h v List.mem_cons_self
    have hvs := ih fun w hw => h w (List.mem_cons_of_mem _ hw)
    cases vs with
    | nil => exact numbers?_tagged hv text
    | cons w ws =>
      -- the text behind the first number is the rest of the row, which a comma parts from it
      have hcomma (rest : List Char) : numbers? (", ".toList ++ rest) = numbers? rest :=
        numbers?_append (by decide) rest
      rw [List.map_cons] at hvs
      rw [List.map_cons, List.map_cons, String.intercalate_cons_cons, String.toList_append,
        String.toList_append, List.append_assoc, List.append_assoc, numbers?_tagged hv, hcomma,
        hvs, Option.map_map]
      rfl

/-- Numbers in a row are read off their listing. -/
theorem numbers?_listing {vs : List Int} (h : ∀ v ∈ vs, 0 ≤ v) {text : List Char}
    (htext : 'x' ∉ text) : numbers? ((listing vs).toList ++ text) = some vs := by
  have hlisting : (listing vs).toList ++ text = "[".toList ++
      ((", ".intercalate (vs.map fun v => "'" ++ tagged v ++ "'")).toList ++ ']' :: text) := by
    simp [listing]
  rw [hlisting, numbers?_append (by decide), numbers?_row h,
    numbers?_of_not_mem (by simpa using htext)]
  simp

end Hex

/-! ### Colons -/

/-- No colon stands in the text. -/
def Unlabelled (s : String) : Prop := ':' ∉ s.toList

instance (s : String) : Decidable (Unlabelled s) := inferInstanceAs (Decidable (_ ∉ _))

theorem unlabelled_append {s t : String} :
    Unlabelled (s ++ t) ↔ Unlabelled s ∧ Unlabelled t := by
  simp [Unlabelled]

theorem Unlabelled.between {s t u : String} (ht : Unlabelled t) (hs : Unlabelled s)
    (hu : Unlabelled u) : Unlabelled (s ++ t ++ u) :=
  unlabelled_append.mpr ⟨unlabelled_append.mpr ⟨hs, ht⟩, hu⟩

theorem unlabelled_intercalate {separator : String} (hseparator : Unlabelled separator)
    {pieces : List String} (h : ∀ s ∈ pieces, Unlabelled s) :
    Unlabelled (separator.intercalate pieces) := by
  induction pieces with
  | nil => simp [Unlabelled]
  | cons s pieces ih =>
    have hs := h s List.mem_cons_self
    have hpieces := ih fun t ht => h t (List.mem_cons_of_mem _ ht)
    cases pieces with
    | nil => rwa [String.intercalate_singleton]
    | cons t pieces =>
      rw [String.intercalate_cons_cons]
      exact hseparator.between hs hpieces

theorem unlabelled_repr (n : Nat) : Unlabelled n.repr := not_mem_repr (by decide) n

theorem unlabelled_toString (v : Int) : Unlabelled (toString v) := by
  cases v with
  | ofNat n => exact unlabelled_repr n
  | negSucc n => exact unlabelled_append.mpr ⟨by decide, unlabelled_repr (n + 1)⟩

namespace Hex

theorem colon_not_mem_sign (v : Int) : ':' ∉ sign v := by
  unfold sign
  split <;> decide

theorem colon_not_mem_magnitude (v : Int) : ':' ∉ magnitude v :=
  not_mem_of_value? (value?_toDigits _) (by decide)

theorem unlabelled_padded (width : Nat) (v : Int) : Unlabelled (padded width v) := by
  simp [Unlabelled, padded, colon_not_mem_sign, colon_not_mem_magnitude]

theorem unlabelled_tagged (v : Int) : Unlabelled (tagged v) := by
  simp [Unlabelled, tagged, colon_not_mem_sign, colon_not_mem_magnitude]

theorem unlabelled_listing (vs : List Int) : Unlabelled (listing vs) := by
  have hrow : Unlabelled (", ".intercalate (vs.map fun v => "'" ++ tagged v ++ "'")) := by
    refine unlabelled_intercalate (by decide) fun s hs => ?_
    obtain ⟨v, -, rfl⟩ := List.mem_map.mp hs
    exact (unlabelled_tagged v).between (by decide) (by decide)
  exact hrow.between (by decide) (by decide)

end Hex

theorem Registers.unlabelled_describe (r : Registers) : Unlabelled r.describe :=
  (Hex.unlabelled_listing r.toList).between (by decide) (by decide)

theorem Stack.unlabelled_describe (s : Stack) : Unlabelled s.describe := by
  have hused : Unlabelled ("Stack(sp=" ++ s.used.repr ++ ", addresses=") :=
    (unlabelled_repr s.used).between (by decide) (by decide)
  exact (Hex.unlabelled_listing s.addresses).between hused (by decide)

namespace Machine

theorem unlabelled_flagText (flag : Bool) : Unlabelled (flagText flag) := by
  cases flag <;> decide

/-! ### What the text shows -/

/-- What the text of a machine shows of it. -/
structure Shown where
  pc : Int
  index : Int
  registers : List Int
  /-- The return addresses on the stack, oldest first. -/
  addresses : List Int
  delay : Int
  sound : Int
  drew : Bool
  waiting : Bool
  buzzer : Bool
  deriving DecidableEq, Repr

def shown (m : Machine) : Shown where
  pc := m.pc
  index := m.index
  registers := (List.finRange 16).map m.v
  addresses := m.stack.addresses
  delay := m.timers.delay
  sound := m.timers.sound
  drew := m.drew
  waiting := m.waiting
  buzzer := m.buzzer

/-- The labels of the text, each with the value in front of it, and the last value. -/
def pieces (m : Machine) : List String :=
  ["PC_REGISTER",
    "0x" ++ Hex.padded 4 m.pc ++ " | IDX_REGISTER",
    "0x" ++ Hex.padded 4 m.index ++ " | VARIABLE_REGISTERS",
    m.registers.describe ++ "\nSTACK",
    m.stack.describe ++ "\nDELAY_TIMER",
    toString m.timers.delay ++ " | SOUND_TIMER",
    toString m.timers.sound ++ "\nDRAW",
    flagText m.drew ++ " | BLOCKED",
    flagText m.waiting ++ " | BUZZER",
    flagText m.buzzer]

theorem dump_eq_intercalate (m : Machine) : m.dump = ":".intercalate m.pieces := by
  unfold pieces dump
  simp only [String.intercalate_cons_cons, String.intercalate_singleton, String.append_assoc]
  rfl

theorem unlabelled_pieces (m : Machine) : ∀ s ∈ m.pieces, Unlabelled s := by
  simp only [pieces, List.forall_mem_cons, unlabelled_append, Hex.unlabelled_padded,
    m.registers.unlabelled_describe, m.stack.unlabelled_describe, unlabelled_toString,
    unlabelled_flagText, and_true, true_and]
  decide

/-- The text falls apart at its colons. -/
theorem splitOn_dump (m : Machine) : m.dump.toList.splitOn ':' = m.pieces.map String.toList := by
  have hcolon : ∀ text ∈ m.pieces.map String.toList, ':' ∉ text := by
    rintro _ htext
    obtain ⟨s, hs, rfl⟩ := List.mem_map.mp htext
    exact m.unlabelled_pieces s hs
  have hcons : m.pieces.map String.toList ≠ [] := List.cons_ne_nil _ _
  rw [dump_eq_intercalate, String.toList_intercalate]
  exact List.splitOn_intercalate ':' hcolon hcons

namespace Shown

/-- The only number in a text. -/
def number? (text : List Char) : Option Int :=
  match Hex.numbers? text with
  | some [v] => some v
  | _ => none

/-- The flag that a text begins with. -/
def leadingFlag (text : List Char) : Bool := text.head? == some 'T'

/-- What a text shows of the machine whose text it is. -/
def read? (text : String) : Option Shown :=
  match text.toList.splitOn ':' with
  | [_, pc, index, registers, addresses, delay, sound, drew, waiting, buzzer] => do
    return {
      pc := ← number? pc
      index := ← number? index
      registers := ← Hex.numbers? registers
      addresses := ← Hex.numbers? addresses
      delay := leadingDecimal delay
      sound := leadingDecimal sound
      drew := leadingFlag drew
      waiting := leadingFlag waiting
      buzzer := leadingFlag buzzer }
  | _ => none

theorem number?_padded {v : Int} (h : IsWord v) {label : String} (hlabel : 'x' ∉ label.toList)
    (hstop : label.toList.head?.all fun c => !(Hex.digit? c).isSome) :
    number? ("0x" ++ Hex.padded 4 v ++ label).toList = some v := by
  have htext : ("0x" ++ Hex.padded 4 v ++ label).toList =
      ['0'] ++ 'x' :: ((Hex.padded 4 v).toList ++ label.toList) := by
    simp
  rw [number?, htext, Hex.numbers?_append (by decide),
    Hex.numbers?_digits (Hex.padded_word h).2 hstop, Hex.numbers?_of_not_mem hlabel,
    Option.map_some, Int.toNat_of_nonneg h.1]

theorem numbers?_registers {r : Registers} (h : r.Bytes) {label : String}
    (hlabel : 'x' ∉ label.toList) :
    Hex.numbers? (r.describe ++ label).toList = some ((List.finRange 16).map r.read) := by
  have hpos : ∀ v ∈ r.toList, 0 ≤ v := by
    rw [Registers.toList_eq_map_read]
    rintro _ hmem
    obtain ⟨x, -, rfl⟩ := List.mem_map.mp hmem
    exact (h x).1
  have htext : (r.describe ++ label).toList =
      "Registers(".toList ++ ((Hex.listing r.toList).toList ++ ')' :: label.toList) := by
    simp [Registers.describe]
  rw [htext, Hex.numbers?_append (by decide),
    Hex.numbers?_listing hpos (by simpa using hlabel), Registers.toList_eq_map_read]

theorem numbers?_stack {s : Stack} (h : s.Words) {label : String} (hlabel : 'x' ∉ label.toList) :
    Hex.numbers? (s.describe ++ label).toList = some s.addresses := by
  have hpos : ∀ v ∈ s.addresses, 0 ≤ v := fun v hv => (h.word v (List.mem_of_mem_take hv)).1
  have hused : 'x' ∉ (s!"Stack(sp={s.used}, addresses=").toList := by
    have hdigits : 'x' ∉ s.used.repr.toList := not_mem_repr (by decide) s.used
    change 'x' ∉ ("Stack(sp=" ++ s.used.repr ++ ", addresses=").toList
    simp only [String.toList_append, List.mem_append, not_or]
    exact ⟨⟨by decide, hdigits⟩, by decide⟩
  have htext : (s.describe ++ label).toList =
      (s!"Stack(sp={s.used}, addresses=").toList ++
        ((Hex.listing s.addresses).toList ++ ')' :: label.toList) := by
    simp [Stack.describe]
  rw [htext, Hex.numbers?_append hused, Hex.numbers?_listing hpos (by simpa using hlabel)]

theorem leadingFlag_flagText (flag : Bool) (label : String) :
    leadingFlag (flagText flag ++ label).toList = flag := by
  cases flag <;> simp [leadingFlag, flagText]

/-- What the text shows can be read back. -/
theorem read?_dump {m : Machine} (h : m.InBounds) : read? m.dump = some m.shown := by
  have hpc : number? ("0x" ++ Hex.padded 4 m.pc ++ " | IDX_REGISTER").toList = some m.pc :=
    number?_padded h.pc (by decide) (by decide)
  have hindex : number? ("0x" ++ Hex.padded 4 m.index ++ " | VARIABLE_REGISTERS").toList =
      some m.index := number?_padded h.index (by decide) (by decide)
  have hregisters : Hex.numbers? (m.registers.describe ++ "\nSTACK").toList =
      some ((List.finRange 16).map m.v) := numbers?_registers h.registers (by decide)
  have haddresses : Hex.numbers? (m.stack.describe ++ "\nDELAY_TIMER").toList =
      some m.stack.addresses := numbers?_stack h.stack (by decide)
  have hdelay : leadingDecimal (toString m.timers.delay ++ " | SOUND_TIMER").toList =
      m.timers.delay := by
    rw [String.toList_append]
    exact leadingDecimal_toString h.timers.delay.1 (by decide)
  have hsound : leadingDecimal (toString m.timers.sound ++ "\nDRAW").toList =
      m.timers.sound := by
    rw [String.toList_append]
    exact leadingDecimal_toString h.timers.sound.1 (by decide)
  -- behind the last flag there is no label
  have hbuzzer := leadingFlag_flagText m.buzzer ""
  rw [String.append_empty] at hbuzzer
  rw [read?, splitOn_dump]
  simp only [pieces, List.map_cons, List.map_nil, hpc, hindex, hregisters, haddresses, hdelay,
    hsound, leadingFlag_flagText, hbuzzer]
  rfl

end Shown

theorem shown_eq_iff {m m' : Machine} :
    m.shown = m'.shown ↔ m.pc = m'.pc ∧ m.index = m'.index ∧ (∀ x, m.v x = m'.v x) ∧
      m.stack.addresses = m'.stack.addresses ∧ m.timers.delay = m'.timers.delay ∧
      m.timers.sound = m'.timers.sound ∧ m.drew = m'.drew ∧ m.waiting = m'.waiting ∧
      m.buzzer = m'.buzzer := by
  have hregisters : (List.finRange 16).map m.v = (List.finRange 16).map m'.v ↔
      ∀ x, m.v x = m'.v x := by
    simp [List.map_inj_left, List.mem_finRange]
  rw [shown, shown, Shown.mk.injEq, hregisters]

/-- The text is made of nothing but what it shows. -/
theorem dump_congr {m m' : Machine} (h : m.shown = m'.shown) : m.dump = m'.dump := by
  obtain ⟨hpc, hindex, hregisters, haddresses, hdelay, hsound, hdrew, hwaiting, hbuzzer⟩ :=
    shown_eq_iff.mp h
  have hrow : m.registers.toList = m'.registers.toList := by
    rw [Registers.toList_eq_map_read, Registers.toList_eq_map_read]
    exact List.map_congr_left fun x _ => hregisters x
  have hused : m.stack.used = m'.stack.used := by
    rw [← Stack.length_addresses, haddresses, Stack.length_addresses]
  unfold dump Registers.describe Stack.describe
  rw [hpc, hindex, hrow, hused, haddresses, hdelay, hsound, hdrew, hwaiting, hbuzzer]

theorem dump_begins (m : Machine) :
    ∃ rest, m.dump = "PC_REGISTER:0x" ++ Hex.padded 4 m.pc ++ " | IDX_REGISTER:0x" ++
      Hex.padded 4 m.index ++ " | VARIABLE_REGISTERS:" ++ rest := by
  unfold dump
  simp only [String.append_assoc]
  exact ⟨_, rfl⟩

/-- Two machines have the same text exactly if they agree on what it shows: the program counter, the
index register, the registers, the return addresses, the timers and the flags. All of it can be read
back, the depth of the stack with the addresses, and the program counter and the index register
stand at the front with four hexadecimal digits each. -/
theorem dump_eq_iff {m m' : Machine} (hm : m.Reachable) (hm' : m'.Reachable) :
    (m.dump = m'.dump ↔ m.pc = m'.pc ∧ m.index = m'.index ∧ (∀ x, m.v x = m'.v x) ∧
      m.stack.addresses = m'.stack.addresses ∧ m.timers.delay = m'.timers.delay ∧
      m.timers.sound = m'.timers.sound ∧ m.drew = m'.drew ∧ m.waiting = m'.waiting ∧
      m.buzzer = m'.buzzer) ∧
    Shown.read? m.dump = some m.shown ∧ m.shown.addresses.length = m.stack.used ∧
    ∃ pc index rest : String,
      m.dump = "PC_REGISTER:0x" ++ pc ++ " | IDX_REGISTER:0x" ++ index ++
        " | VARIABLE_REGISTERS:" ++ rest ∧
      pc.length = 4 ∧ Hex.value? pc.toList = some m.pc.toNat ∧
      index.length = 4 ∧ Hex.value? index.toList = some m.index.toNat := by
  have hread := Shown.read?_dump hm.inBounds
  have hread' := Shown.read?_dump hm'.inBounds
  refine ⟨?_, hread, m.stack.length_addresses, ?_⟩
  · rw [← shown_eq_iff]
    refine ⟨fun h => ?_, dump_congr⟩
    rw [h, hread'] at hread
    exact (Option.some.inj hread).symm
  · obtain ⟨rest, hrest⟩ := m.dump_begins
    obtain ⟨hpc, hpcvalue⟩ := Hex.padded_word hm.inBounds.pc
    obtain ⟨hindex, hindexvalue⟩ := Hex.padded_word hm.inBounds.index
    exact ⟨_, _, rest, hrest, hpc, hpcvalue, hindex, hindexvalue⟩

/-- A machine that has set a register, a timer, the index register and the flag register, and is
about to call a subroutine at 20C. -/
def calling : Machine :=
  (start 0).serve
    (.load .boundless (.bytes [0x60, 0x09, 0xF0, 0x15, 0xA1, 0x23, 0x6F, 0xFF, 0x22, 0x0C]) ::
      List.replicate 4 (.cycle false (holding [])))

theorem dump_eq_iff_calling :
    let called := (calling.cycle false (holding [])).machine
    called.dump ≠ calling.dump ∧
      Shown.read? called.dump = some {
        pc := 0x20C, index := 0x123, registers := 9 :: List.replicate 14 0 ++ [0xFF],
        addresses := [0x20A], delay := 9, sound := 0, drew := false, waiting := false,
        buzzer := false } := by
  intro called
  have hreach : calling.Reachable := ⟨0, _, rfl⟩
  have hcalled : called.Reachable := hreach.cycle false (holding [])
  have hpc : called.pc ≠ calling.pc := by decide +kernel
  have hshown : called.shown = {
      pc := 0x20C, index := 0x123, registers := 9 :: List.replicate 14 0 ++ [0xFF],
      addresses := [0x20A], delay := 9, sound := 0, drew := false, waiting := false,
      buzzer := false } := by
    decide +kernel
  obtain ⟨hsame, hread, -⟩ := dump_eq_iff hcalled hreach
  exact ⟨fun h => hpc (hsame.mp h).1, hread.trans (congrArg some hshown)⟩

end Machine

end ChipEight
