import ChipEight.Proofs.Parts

/-!
The stack as a list. To everything that is asked of it, a stack answers as a plain list does that
grows at its end up to a fixed length: `Shows` relates the two, `Shows.reply` takes one question and
`Shows.askAll` a row of them. What slots out of use hold is seen in no answer. A stack of any depth
that the storage lets through starts out as the empty list (`askAll_create`).
-/

namespace ChipEight

/-- What can be asked of a stack. -/
inductive StackRequest where
  | push (value : Int)
  | pop
  deriving DecidableEq, Repr

/-- What is answered: nothing to a push, a value to a pop, or a fault. -/
abbrev StackAnswer := Except Fault (Option Int)

/-- Asks one thing after the other and gives the answers, with what there is in the end. -/
def askAll {σ : Type} (reply : σ → StackRequest → StackAnswer × σ) :
    σ → List StackRequest → List StackAnswer × σ
  | s, [] => ([], s)
  | s, r :: later =>
    let rest := askAll reply (reply s r).2 later
    ((reply s r).1 :: rest.1, rest.2)

/-- What a list answers that can have so many elements. A fault leaves it as it was. -/
def boundedReply (room : Int) (l : List Int) : StackRequest → StackAnswer × List Int
  | .push value =>
      if l.length = room then (.error (.stackOverflow room), l) else (.ok none, l ++ [value])
  | .pop =>
      match l.getLast? with
      | none => (.error .stackUnderflow, l)
      | some value => (.ok (some value), l.dropLast)

theorem Size.isSize_iff {n : Int} :
    isSize n = true ↔ -0x8000000000000000 ≤ n ∧ n < 0x8000000000000000 := by
  rw [isSize, Bool.and_eq_true, decide_eq_true_eq, decide_eq_true_eq]
  rfl

namespace Stack

/-- What a stack answers. A fault leaves it as it was. -/
def reply (s : Stack) : StackRequest → StackAnswer × Stack
  | .push value =>
      match s.push value with
      | .ok s' => (.ok none, s')
      | .error f => (.error f, s)
  | .pop =>
      match s.pop with
      | .ok (value, s') => (.ok (some value), s')
      | .error f => (.error f, s)

/-- The slots in use show a list, out of so many slots. -/
structure Shows (room : Int) (s : Stack) (l : List Int) : Prop where
  addresses : s.addresses = l
  room : s.slots.length = room

namespace Shows

variable {room : Int} {s : Stack} {l : List Int}

theorem used_eq (h : Shows room s l) : s.used = l.length := by
  rw [← length_addresses, h.addresses]

theorem length_le (h : Shows room s l) : (l.length : Int) ≤ room := by
  rw [← h.used_eq, ← h.room]
  exact Int.ofNat_le.mpr s.used_le

/-- Only what is in use is written down. -/
theorem describe_eq (h : Shows room s l) :
    s.describe = s!"Stack(sp={l.length}, addresses=" ++ Hex.listing l ++ ")" := by
  rw [describe, h.used_eq, h.addresses]

theorem push (h : Shows room s l) (value : Int) :
    (s.reply (.push value)).1 = (boundedReply room l (.push value)).1 ∧
      Shows room (s.reply (.push value)).2 (boundedReply room l (.push value)).2 := by
  have hused := h.used_eq
  have hroom := h.room
  rcases hpush : s.push value with f | s'
  · obtain ⟨hfull, rfl⟩ := push_error_iff.mp hpush
    have hlength : (l.length : Int) = room := by omega
    simp only [reply, hpush, boundedReply, if_pos hlength, hroom]
    exact ⟨trivial, h⟩
  · obtain ⟨haddresses, hslots⟩ := addresses_push hpush
    have hfree : (l.length : Int) ≠ room := by
      intro hlength
      have herror : s.push value = .error _ := push_of_full (by omega) value
      rw [hpush] at herror
      cases herror
    simp only [reply, hpush, boundedReply, if_neg hfree]
    exact ⟨trivial, by rw [haddresses, h.addresses], by rw [hslots, hroom]⟩

theorem pop (h : Shows room s l) :
    (s.reply .pop).1 = (boundedReply room l .pop).1 ∧
      Shows room (s.reply .pop).2 (boundedReply room l .pop).2 := by
  have hused := h.used_eq
  rcases hpop : s.pop with f | ⟨value, s'⟩
  · obtain ⟨hempty, rfl⟩ := pop_error_iff.mp hpop
    obtain rfl : l = [] := List.length_eq_zero_iff.mp (hused.symm.trans hempty)
    simp only [reply, hpop, boundedReply, List.getLast?_nil]
    exact ⟨trivial, h⟩
  · obtain ⟨haddresses, hslots⟩ := addresses_pop hpop
    obtain rfl : s'.addresses ++ [value] = l := haddresses.symm.trans h.addresses
    simp only [reply, hpop, boundedReply, List.getLast?_append, List.dropLast_concat]
    exact ⟨rfl, rfl, by rw [hslots, h.room]⟩

/-- One answer is the list's answer, and what is left shows what the list is then. -/
theorem reply (h : Shows room s l) (r : StackRequest) :
    (s.reply r).1 = (boundedReply room l r).1 ∧
      Shows room (s.reply r).2 (boundedReply room l r).2 := by
  cases r with
  | push value => exact h.push value
  | pop => exact h.pop

theorem askAll (h : Shows room s l) (requests : List StackRequest) :
    (askAll Stack.reply s requests).1 = (askAll (boundedReply room) l requests).1 ∧
      Shows room (askAll Stack.reply s requests).2 (askAll (boundedReply room) l requests).2 := by
  induction requests generalizing s l with
  | nil => exact ⟨rfl, h⟩
  | cons r later ih =>
    obtain ⟨hanswer, hnext⟩ := h.reply r
    obtain ⟨hanswers, hlast⟩ := ih hnext
    exact ⟨congr (congrArg List.cons hanswer) hanswers, hlast⟩

end Shows

theorem shows_empty (depth : Int) : Shows (max depth 0) (empty depth) [] := by
  refine ⟨rfl, ?_⟩
  rw [empty, List.length_replicate]
  omega

section

variable {storage : Storage} {depth : Int}

/-- A stack of some depth is made, or there is no storage for its slots, or the depth is no size. -/
theorem create_cases (storage : Storage) (depth : Int) :
    (create storage depth = .ok (empty depth) ∧ Size.isSize depth = true ∧
      storage.cells depth.toNat = true) ∨
    (create storage depth = .error .outOfMemory ∧ Size.isSize depth = true ∧
      storage.cells depth.toNat = false) ∨
    (create storage depth = .error .unsized ∧ Size.isSize depth = false) := by
  rw [create, Size.cells]
  cases Size.isSize depth with
  | false => exact .inr (.inr ⟨rfl, rfl⟩)
  | true =>
    cases storage.cells depth.toNat with
    | false => exact .inr (.inl ⟨rfl, rfl, rfl⟩)
    | true => exact .inl ⟨rfl, rfl, rfl⟩

theorem create_ok_iff {s : Stack} :
    create storage depth = .ok s ↔
      (Size.isSize depth = true ∧ storage.cells depth.toNat = true) ∧ s = empty depth := by
  rcases create_cases storage depth with ⟨h, hsize, hcells⟩ | ⟨h, -, hfull⟩ | ⟨h, hsize⟩
  · simp [h, hsize, hcells, eq_comm]
  · simp [h, hfull]
  · simp [h, hsize]

theorem create_error_iff {e : SizeError} :
    create storage depth = .error e ↔ (Size.isSize depth = false ∧ e = .unsized) ∨
      (Size.isSize depth = true ∧ storage.cells depth.toNat = false ∧ e = .outOfMemory) := by
  rcases create_cases storage depth with ⟨h, hsize, hcells⟩ | ⟨h, hsize, hfull⟩ | ⟨h, hsize⟩
  · simp [h, hsize, hcells]
  · simp [h, hsize, hfull, @eq_comm _ e]
  · simp [h, hsize, @eq_comm _ e]

end

/-- A stack is a bounded list. Whatever storage there is, there is a stack of every depth that is a
size and for whose slots there is storage, and a negative depth leaves no room; another depth is
refused. Whatever is pushed and popped, in which order ever, the answers are those of the list,
faults included; the stack has in use what the list holds, never more than its room; and that is
what is written down of it, the oldest first. -/
theorem askAll_create (storage : Storage) (depth : Int) :
    ((∃ s, create storage depth = .ok s) ↔
      (-0x8000000000000000 ≤ depth ∧ depth < 0x8000000000000000) ∧
        storage.cells depth.toNat = true) ∧
    (∀ e, create storage depth = .error e ↔
      (¬ (-0x8000000000000000 ≤ depth ∧ depth < 0x8000000000000000) ∧ e = .unsized) ∨
      ((-0x8000000000000000 ≤ depth ∧ depth < 0x8000000000000000) ∧
        storage.cells depth.toNat = false ∧ e = .outOfMemory)) ∧
    ∀ s, create storage depth = .ok s → ∀ requests,
      let l := (askAll (boundedReply (max depth 0)) [] requests).2
      let s' := (askAll reply s requests).2
      (askAll reply s requests).1 = (askAll (boundedReply (max depth 0)) [] requests).1 ∧
        s'.addresses = l ∧ s'.used = l.length ∧ (l.length : Int) ≤ max depth 0 ∧
        s'.describe = s!"Stack(sp={l.length}, addresses=" ++ Hex.listing l ++ ")" := by
  simp only [← Size.isSize_iff, Bool.not_eq_true]
  refine ⟨?_, fun e => create_error_iff, fun s hs requests => ?_⟩
  · simp only [create_ok_iff, exists_and_left, exists_eq, and_true]
  · obtain ⟨-, rfl⟩ := create_ok_iff.mp hs
    obtain ⟨hanswers, hlast⟩ := (shows_empty depth).askAll requests
    exact ⟨hanswers, hlast.addresses, hlast.used_eq, hlast.length_le, hlast.describe_eq⟩

/-- Fills a stack of two slots, is refused a third value and takes one back. -/
def fillTwo : List StackRequest := [.push 0x202, .push 0x204, .push 0x206, .pop]

/-- The slot that has fallen out of use does not show. -/
theorem askAll_create_fillTwo :
    (∃ s, create .boundless 2 = .ok s) ∧
      (askAll reply (empty 2) fillTwo).1 =
        [.ok none, .ok none, .error (.stackOverflow 2), .ok (some 0x204)] ∧
      (askAll reply (empty 2) fillTwo).2.describe =
        "Stack(sp=1, addresses=" ++ Hex.listing [0x202] ++ ")" := by
  obtain ⟨hexists, -, hfollow⟩ := askAll_create .boundless 2
  obtain ⟨hanswers, -, -, -, hdescribe⟩ := hfollow (empty 2) rfl fillTwo
  exact ⟨hexists.mpr (by decide), hanswers, hdescribe⟩

/-- A depth that is no size is not taken for none, however far it lies below zero. -/
theorem create_below_sizes :
    (-0x8000000000000001 : Int) < 0 ∧
      create .boundless (-0x8000000000000001) = .error .unsized ∧
      create .boundless 0 = .ok (empty 0) :=
  ⟨by decide, rfl, rfl⟩

end Stack

end ChipEight
