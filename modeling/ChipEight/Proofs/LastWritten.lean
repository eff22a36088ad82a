import ChipEight.Proofs.Loading

/-!
Registers and memory remember what was written last, as a value does that every step replaces or
leaves (`value_foldl`). So it is with a register, the flag among them although it is kept apart, and
numbers that are no register's change nothing (`assignAll_zero`); and so it is with the cell of an
address, which is reached by one write at a time through addresses that wrap, and by loading, which
puts bytes in the place of as many cells in a row (`serveAll_initial`).
-/

namespace ChipEight

/-- A value that is there from the beginning is in the end what was said last, or what it was. -/
theorem value_foldl {σ α β : Type} {step : σ → α → σ} (value : σ → β) {said : α → Option β}
    (hstep : ∀ s a, value (step s a) = (said a).getD (value s)) (l : List α) (s : σ) :
    value (l.foldl step s) = (lastSaid said l).getD (value s) := by
  have hsome (s : σ) (a : α) : some (value (step s a)) = (said a).or (some (value s)) := by
    rw [hstep, Option.or_some]
  have hlast := option_foldl (fun s => some (value s)) hsome l s
  rw [Option.or_some] at hlast
  exact Option.some_inj.mp hlast

/-! ### Registers -/

/-- A value for the register with a number, which may be any number. -/
structure Assignment where
  number : Int
  value : Int
  deriving DecidableEq, Repr

/-- The numbers that are some register's. -/
abbrev IsRegister (number : Int) : Prop := 0 ≤ number ∧ number < 16

namespace Assignment

/-- The value that a number is given, as a byte. -/
def given? (number : Int) (a : Assignment) : Option Int :=
  if a.number = number then some (a.value % 256) else none

/-- How an assignment is refused. -/
def refusal? (a : Assignment) : Option RegisterError :=
  if IsRegister a.number then none else some ⟨a.number⟩

end Assignment

namespace Registers

/-- Assigns a value, or refuses to and leaves the registers as they were. -/
def assign (r : Registers) (a : Assignment) : Option RegisterError × Registers :=
  match r.write? a.number a.value with
  | .ok r' => (none, r')
  | .error e => (some e, r)

/-- Assigns values one after another and gives the refusals with what the registers are in the
end. -/
def assignAll (r : Registers) : List Assignment → List (Option RegisterError) × Registers
  | [] => ([], r)
  | a :: later =>
    let rest := assignAll (r.assign a).2 later
    ((r.assign a).1 :: rest.1, rest.2)

theorem read?_of_register (r : Registers) (x : Fin 16) : r.read? x.val = .ok (r.read x) := by
  rw [read?, find_val]
  rfl

theorem find_of_not {number : Int} (h : ¬ IsRegister number) : find number = .error ⟨number⟩ :=
  dif_neg h

theorem isRegister_iff {number : Int} : IsRegister number ↔ ∃ x : Fin 16, number = x.val := by
  refine ⟨fun h => ⟨⟨number.toNat, by omega⟩, by simp only; omega⟩, ?_⟩
  rintro ⟨x, rfl⟩
  exact ⟨by omega, by omega⟩

/-- An assignment goes to the register with its number, or it is refused and changes nothing. -/
theorem assign_cases (r : Registers) (a : Assignment) :
    (∃ x : Fin 16, a.number = x.val ∧ r.assign a = (none, r.write x a.value)) ∨
      (¬ IsRegister a.number ∧ r.assign a = (some ⟨a.number⟩, r)) := by
  by_cases h : IsRegister a.number
  · obtain ⟨x, hx⟩ := isRegister_iff.mp h
    refine .inl ⟨x, hx, ?_⟩
    rw [assign, write?, hx, find_val]
    rfl
  · refine .inr ⟨h, ?_⟩
    rw [assign, write?, find_of_not h]
    rfl

theorem fst_assign (r : Registers) (a : Assignment) : (r.assign a).1 = a.refusal? := by
  rcases r.assign_cases a with ⟨x, hx, hassign⟩ | ⟨hnone, hassign⟩
  · rw [hassign, Assignment.refusal?, if_pos (isRegister_iff.mpr ⟨x, hx⟩)]
  · rw [hassign, Assignment.refusal?, if_neg hnone]

theorem assign_of_not (r : Registers) {a : Assignment} (h : ¬ IsRegister a.number) :
    (r.assign a).2 = r := by
  rcases r.assign_cases a with ⟨x, hx, -⟩ | ⟨-, hassign⟩
  · exact absurd (isRegister_iff.mpr ⟨x, hx⟩) h
  · rw [hassign]

/-- A register has after an assignment what it is given, or what it had. -/
theorem read_assign (x : Fin 16) (r : Registers) (a : Assignment) :
    (r.assign a).2.read x = (a.given? x.val).getD (r.read x) := by
  rcases r.assign_cases a with ⟨y, hy, hassign⟩ | ⟨hnone, hassign⟩
  · rw [hassign, read_write, Assignment.given?, hy]
    by_cases hxy : y = x
    · rw [if_pos hxy, if_pos (congrArg (fun z : Fin 16 => (z.val : Int)) hxy)]
      rfl
    · have hne : (y.val : Int) ≠ x.val := fun h => hxy (Fin.ext (Int.ofNat_inj.mp h))
      rw [if_neg hxy, if_neg hne]
      rfl
  · have hne : a.number ≠ x.val := fun h => hnone (isRegister_iff.mpr ⟨x, h⟩)
    rw [hassign, Assignment.given?, if_neg hne]
    rfl

theorem fst_assignAll (r : Registers) (history : List Assignment) :
    (r.assignAll history).1 = history.map Assignment.refusal? := by
  induction history generalizing r with
  | nil => rfl
  | cons a later ih => exact congr (congrArg List.cons (r.fst_assign a)) (ih _)

theorem snd_assignAll (r : Registers) (history : List Assignment) :
    (r.assignAll history).2 = history.foldl (fun r a => (r.assign a).2) r := by
  induction history generalizing r with
  | nil => rfl
  | cons a later ih => exact ih _

/-- A register has in the end what it was given last, or what it had. -/
theorem read_assignAll (r : Registers) (history : List Assignment) (x : Fin 16) :
    (r.assignAll history).2.read x =
      (lastSaid (Assignment.given? x.val) history).getD (r.read x) := by
  rw [snd_assignAll]
  exact value_foldl (fun r : Registers => r.read x) (read_assign x) history r

/-- What is refused might as well not have been asked for. -/
theorem snd_assignAll_filter (r : Registers) (history : List Assignment) :
    (r.assignAll (history.filter fun a => IsRegister a.number)).2 = (r.assignAll history).2 := by
  induction history generalizing r with
  | nil => rfl
  | cons a later ih =>
    by_cases h : IsRegister a.number
    · rw [List.filter_cons_of_pos (by simpa using h)]
      exact ih _
    · rw [List.filter_cons_of_neg (by simpa using h), ih]
      change _ = ((r.assign a).2.assignAll later).2
      rw [r.assign_of_not h]

theorem read_zero (x : Fin 16) : zero.read x = 0 := by
  revert x
  decide

/-- Sixteen registers for bytes. Whatever has been assigned, to whichever numbers, the numbers that
are no register's have been refused one by one and have changed nothing; each register has the low
byte of what it was given last, or zero; no other number can be read; the flag is the last
register; and in a row they come in the order of their numbers. -/
theorem assignAll_zero (history : List Assignment) :
    let r := (zero.assignAll history).2
    (zero.assignAll history).1 = history.map Assignment.refusal? ∧
      r = (zero.assignAll (history.filter fun a => IsRegister a.number)).2 ∧
      (∀ number, r.read? number =
        if IsRegister number then .ok ((lastSaid (Assignment.given? number) history).getD 0)
        else .error ⟨number⟩) ∧
      r.read? 15 = .ok r.flag ∧
      r.toList.map .ok = (List.range 16).map fun (k : Nat) => r.read? k := by
  intro r
  refine ⟨zero.fst_assignAll history, (zero.snd_assignAll_filter history).symm, fun number => ?_,
    r.read?_of_register flagNumber, ?_⟩
  · by_cases h : IsRegister number
    · obtain ⟨x, rfl⟩ := isRegister_iff.mp h
      rw [if_pos h, r.read?_of_register, read_assignAll, read_zero]
    · rw [if_neg h, read?, find_of_not h]
      rfl
  · have hrow : List.range 16 = (List.finRange 16).map Fin.val := by decide
    rw [toList_eq_map_read, hrow, List.map_map, List.map_map]
    exact List.map_congr_left fun x _ => (r.read?_of_register x).symm

end Registers

/-! ### Memory -/

/-- What can be put into memory: the low byte of a value, or the bytes of a source in a row. -/
inductive MemoryRequest where
  | write (address value : Int)
  | load (storage : Storage) (source : ProgramSource) (address : Nat)

/-- The bytes of a source that has bytes and fits behind an address. -/
def ProgramSource.fitting? (storage : Storage) (s : ProgramSource) (address : Nat) :
    Option (List Byte) :=
  (s.toBytes storage).toOption.filter fun data => address + data.length ≤ 4096

theorem ProgramSource.fitting?_of_toBytes {storage : Storage} (s : ProgramSource) {data : List Byte}
    (h : s.toBytes storage = .ok data) (address : Nat) :
    s.fitting? storage address = if address + data.length ≤ 4096 then some data else none := by
  simp [fitting?, h, Except.toOption, Option.filter_some]

/-- The values that a request stores, each with its address, in the order in which it does. -/
def MemoryRequest.stores : MemoryRequest → List (Int × Int)
  | .write address value => [(address, value)]
  | .load storage source address =>
      (((source.fitting? storage address).getD []).zipIdx address).map fun (b, a) =>
        ((a : Int), b.toInt)

/-- The low byte of the value stored last at an address that means the same cell. -/
def lastStored (history : List MemoryRequest) (address : Int) : Option Int :=
  lastSaid (fun (a, value) => if a % 4096 = address % 4096 then some (value % 256) else none)
    (history.flatMap MemoryRequest.stores)

/-! A row of bytes stands for any number of cells: a place may have none, and a row can become
longer or shorter. -/

namespace Row

/-- The byte in the place that an address means, if there is one. -/
def read? (row : List Byte) (address : Int) : Option Byte := row[(address % 4096).toNat]?

/-- Puts the low byte of a value into the place that an address means, if there is one. -/
def write? (row : List Byte) (address value : Int) : Option (List Byte) :=
  if (address % 4096).toNat < row.length then
    some (row.set (address % 4096).toNat (Byte.wrap value))
  else none

/-- Puts bytes where as many stand from a place on; what there is behind the end comes on top. -/
def splice (row : List Byte) (place : Nat) (data : List Byte) : List Byte :=
  row.take place ++ data ++ row.drop (place + data.length)

/-- The row that a request leaves, unless it finds no place. -/
def respond? (row : List Byte) : MemoryRequest → Option (List Byte)
  | .write address value => write? row address value
  | .load storage source address =>
      match source.fitting? storage address with
      | some data => some (splice row address data)
      | none => some row

/-- Zeros with the font in front. -/
def initial : List Byte := splice (List.replicate 4096 0) Font.start Font.glyphs

end Row

namespace Memory

/-- The memory that a request leaves. -/
def respond (m : Memory) : MemoryRequest → Memory
  | .write address value => m.write address value
  | .load storage source address => m.attempt storage source address

/-- The memory that a row of requests leaves. -/
def serveAll (m : Memory) (history : List MemoryRequest) : Memory := history.foldl respond m

/-- Loading puts in what fits. -/
theorem attempt_eq (m : Memory) (storage : Storage) (s : ProgramSource) (address : Nat) :
    m.attempt storage s address =
      match s.fitting? storage address with
      | some data => m.copy address data
      | none => m := by
  rcases hbytes : s.toBytes storage with e | data
  · rw [attempt, loadFrom_eq, ProgramSource.fitting?, hbytes]
    rfl
  · rcases m.loadFrom_of_toBytes hbytes address with ⟨hroom, htaken⟩ | ⟨hlong, hrefused⟩
    · rw [attempt, htaken, s.fitting?_of_toBytes hbytes, if_pos (by omega)]
    · rw [attempt, hrefused, s.fitting?_of_toBytes hbytes, if_neg (by omega)]

theorem fits_of_fitting? {storage : Storage} {s : ProgramSource} {address : Nat}
    {data : List Byte} (h : s.fitting? storage address = some data) :
    address + data.length ≤ 4096 := by
  simpa using (Option.filter_eq_some_iff.mp h).2

/-! #### One store after another -/

/-- Copying stores the bytes one by one. -/
theorem copy_eq_foldl (m : Memory) (address : Nat) (data : List Byte) :
    m.copy address data = ((data.zipIdx address).map fun (b, a) => ((a : Int), b.toInt)).foldl
      (fun m (a, value) => m.write a value) m := by
  induction data generalizing m address with
  | nil => rfl
  | cons b data ih => exact ih _ _

theorem respond_eq (m : Memory) (r : MemoryRequest) :
    m.respond r = r.stores.foldl (fun m (a, value) => m.write a value) m := by
  cases r with
  | write address value => rfl
  | load storage source address =>
    rw [respond, attempt_eq, MemoryRequest.stores]
    cases source.fitting? storage address with
    | none => rfl
    | some data => exact m.copy_eq_foldl address data

theorem serveAll_eq (m : Memory) (history : List MemoryRequest) :
    m.serveAll history =
      (history.flatMap MemoryRequest.stores).foldl (fun m (a, value) => m.write a value) m := by
  rw [serveAll, List.foldl_flatMap]
  congr 1
  exact funext₂ respond_eq

/-- An address has what was stored last in its cell, or what was there before. -/
theorem read_serveAll (m : Memory) (history : List MemoryRequest) (address : Int) :
    ((m.serveAll history).read address).toInt =
      (lastStored history address).getD (m.read address).toInt := by
  rw [serveAll_eq]
  refine value_foldl (fun m : Memory => (m.read address).toInt) (fun m (a, value) => ?_) _ m
  by_cases h : a % 4096 = address % 4096
  · simp only [read_write, cell_eq_iff, if_pos h, Byte.toInt_wrap, Option.getD_some]
  · simp only [read_write, cell_eq_iff, if_neg h, Option.getD_none]

/-! #### Rows -/

theorem cells_write (m : Memory) (address value : Int) :
    (m.write address value).cells.toList =
      m.cells.toList.set (address % 4096).toNat (Byte.wrap value) := by
  simp [write, cell, Vector.toList_set]

theorem splice_cons (row : List Byte) (place : Nat) (b : Byte) (data : List Byte)
    (h : place < row.length) :
    Row.splice row place (b :: data) = Row.splice (row.set place b) (place + 1) data := by
  simp only [Row.splice, List.length_cons]
  rw [List.take_add_one, List.take_set_of_le (Nat.le_refl _), List.getElem?_set_self h,
    List.drop_set_of_lt (by omega)]
  simp [Nat.add_comm, Nat.add_left_comm]

theorem cells_copy (m : Memory) {address : Nat} {data : List Byte}
    (hroom : address + data.length ≤ 4096) :
    (m.copy address data).cells.toList = Row.splice m.cells.toList address data := by
  induction data generalizing m address with
  | nil => simp [copy, Row.splice]
  | cons b data ih =>
    rw [List.length_cons] at hroom
    have hplace : address < m.cells.toList.length := by
      rw [Vector.length_toList]
      omega
    have haddress : ((address : Int) % 4096).toNat = address := by omega
    rw [copy, ih _ (by omega), cells_write, haddress, splice_cons _ _ _ _ hplace]
    congr 2
    exact Byte.wrap_toNat b

theorem cells_initial : initial.cells.toList = Row.initial := by
  rw [initial, cells_copy _ (by decide)]
  rfl

/-- A row that is a memory's cells finds the place of every address. -/
theorem read?_cells (m : Memory) (address : Int) :
    Row.read? m.cells.toList address = some (m.read address) := by
  have hplace : (address % 4096).toNat < m.cells.toList.length := by
    rw [Vector.length_toList]
    omega
  rw [Row.read?, List.getElem?_eq_getElem hplace]
  rfl

theorem respond?_cells (m : Memory) (r : MemoryRequest) :
    Row.respond? m.cells.toList r = some (m.respond r).cells.toList := by
  cases r with
  | write address value =>
    have hplace : (address % 4096).toNat < m.cells.toList.length := by
      rw [Vector.length_toList]
      omega
    rw [Row.respond?, Row.write?, if_pos hplace, respond, cells_write]
  | load storage source address =>
    rw [Row.respond?, respond, attempt_eq]
    rcases hfits : source.fitting? storage address with _ | data
    · rfl
    · exact congrArg some (m.cells_copy (fits_of_fitting? hfits)).symm

theorem foldlM_respond?_cells (m : Memory) (history : List MemoryRequest) :
    history.foldlM Row.respond? m.cells.toList = some (m.serveAll history).cells.toList := by
  induction history generalizing m with
  | nil => rfl
  | cons r later ih =>
    rw [List.foldlM_cons, respond?_cells]
    exact ih (m.respond r)

/-- The font stands in front, and zeros behind it. -/
theorem read_initial (address : Int) :
    initial.read address = Font.glyphs.getD (address % 4096).toNat 0 := by
  have hlength : Font.glyphs.length = 80 := rfl
  have hrow : Row.initial = Font.glyphs ++ List.replicate 4016 0 := by
    rw [Row.initial, Row.splice, List.drop_replicate, hlength, Font.start, List.take_zero,
      List.nil_append]
  have hread := read?_cells initial address
  rw [cells_initial, Row.read?, hrow] at hread
  rw [List.getD_eq_getElem?_getD]
  rcases Nat.lt_or_ge (address % 4096).toNat 80 with hfront | hback
  · rw [List.getElem?_append_left (hlength ▸ hfront)] at hread
    rw [hread]
    rfl
  · rw [List.getElem?_append_right (hlength ▸ hback), List.getElem?_replicate,
      if_pos (by omega)] at hread
    rw [List.getElem?_eq_none (hlength ▸ hback)]
    exact (Option.some_inj.mp hread).symm

/-- Memory maps every integer to a byte. Whatever has been written and loaded, an address has the
low byte of what was stored last at an address that means the same cell, or what the font or the
zeros behind it put there. On a row of bytes, where a place could be missing and loading could
change the length, the same requests always find their places and leave as many bytes. -/
theorem serveAll_initial (history : List MemoryRequest) :
    let m := initial.serveAll history
    history.foldlM Row.respond? Row.initial = some m.cells.toList ∧
      m.cells.toList.length = 4096 ∧
      ∀ address, Row.read? m.cells.toList address = some (m.read address) ∧
        (m.read address).toInt = (lastStored history address).getD
          (Font.glyphs.getD (address % 4096).toNat 0).toInt := by
  intro m
  refine ⟨?_, Vector.length_toList, fun address => ⟨m.read?_cells address, ?_⟩⟩
  · rw [← cells_initial]
    exact initial.foldlM_respond?_cells history
  · rw [read_serveAll, read_initial]

end Memory

end ChipEight
