import ChipEight.Proofs.Keypad

/-!
The order of the keys. A key is held since the first press of one of its codes that no release has
followed (`HeldSince`), at one place among the events (`HeldSince.unique`); further presses, by the
same code or by another one, do not move it. The keypad has its keys in the order of these places
(`InOrder`, kept by each kind of event), so the key that it gives as the first one is the one that
is held longest (`handleAll_order`).
-/

namespace ChipEight

/-- A start that no stop has followed means that a start was the last of both kinds to come. -/
theorem Since.iff_last {start stop : Event → Prop} {events : List Event} :
    Since start stop events ↔ Since start (fun e => start e ∨ stop e) events := by
  induction events using List.reverseRecOn with
  | nil => exact iff_of_false not_nil not_nil
  | append_singleton events e ih =>
    rw [concat_iff, concat_iff, ih]
    by_cases hstart : start e <;> simp [hstart]

namespace Layout

/-- The event is about a key: one of its codes goes down or up. -/
def About (l : Layout) (key : Int) (e : Event) : Prop := l.Presses key e ∨ l.Releases key e

/-- The place among the events of the first press of a key since its last release: no release has
come after it, and to every press before it there has been one. -/
structure HeldSince (l : Layout) (events : List Event) (key : Int) (n : Nat) : Prop where
  pressed : ∃ e, events[n]? = some e ∧ l.Presses key e
  kept : ∀ e ∈ events.drop (n + 1), ¬ l.Releases key e
  first : ¬ Since (l.Presses key) (l.Releases key) (events.take n)

/-- Both keys are held, the one since an earlier event than the other. -/
def Earlier (l : Layout) (events : List Event) (key key' : Int) : Prop :=
  ∃ n n', l.HeldSince events key n ∧ l.HeldSince events key' n' ∧ n < n'

variable {l : Layout} {events : List Event} {key key' : Int} {n n' : Nat} {e : Event}

namespace HeldSince

theorem lt_length (h : l.HeldSince events key n) : n < events.length := by
  obtain ⟨e, he, -⟩ := h.pressed
  exact (List.getElem?_eq_some_iff.mp he).1

/-- A key is held since a press as long as no release follows. -/
theorem since_take (h : l.HeldSince events key n) (hlt : n < n') :
    Since (l.Presses key) (l.Releases key) (events.take n') := by
  obtain ⟨e, he, hpress⟩ := h.pressed
  obtain ⟨hn, rfl⟩ := List.getElem?_eq_some_iff.mp he
  refine ⟨events.take n, _, (events.take n').drop (n + 1), ?_, hpress, fun e' he' => ?_⟩
  · have hn' : n < (events.take n').length := by
      rw [List.length_take]
      omega
    calc events.take n' = (events.take n').take n ++ (events.take n').drop n :=
          (List.take_append_drop n _).symm
      _ = events.take n ++ events[n] :: (events.take n').drop (n + 1) := by
          rw [List.take_take, Nat.min_eq_left (Nat.le_of_lt hlt), List.drop_eq_getElem_cons hn',
            List.getElem_take]
  · rw [List.drop_take] at he'
    exact h.kept e' (List.mem_of_mem_take he')

theorem since (h : l.HeldSince events key n) :
    Since (l.Presses key) (l.Releases key) events := by
  have htake := h.since_take h.lt_length
  rwa [List.take_length] at htake

/-- There is only one such place. -/
theorem unique (h : l.HeldSince events key n) (h' : l.HeldSince events key n') : n = n' := by
  rcases Nat.lt_trichotomy n n' with hlt | heq | hlt
  · exact absurd (h.since_take hlt) h'.first
  · exact heq
  · exact absurd (h'.since_take hlt) h.first

/-- An event that does not release the key leaves it held since the same place. -/
theorem concat (h : l.HeldSince events key n) (he : ¬ l.Releases key e) :
    l.HeldSince (events ++ [e]) key n := by
  have hlt := h.lt_length
  refine ⟨?_, ?_, ?_⟩
  · rw [List.getElem?_append_left hlt]
    exact h.pressed
  · rw [List.drop_append_of_le_length hlt]
    intro e' he'
    rcases List.mem_append.mp he' with he' | he'
    · exact h.kept e' he'
    · rwa [List.mem_singleton.mp he']
  · rw [List.take_append_of_le_length (Nat.le_of_lt hlt)]
    exact h.first

/-- A key that is pressed while it is not held is held since then. -/
theorem of_presses (he : l.Presses key e)
    (hfree : ¬ Since (l.Presses key) (l.Releases key) events) :
    l.HeldSince (events ++ [e]) key events.length := by
  refine ⟨⟨e, ?_, he⟩, ?_, ?_⟩
  · exact List.getElem?_concat_length
  · simp
  · rwa [List.take_left]

end HeldSince

/-- A key that is held is held since one of the events. -/
theorem exists_heldSince (h : Since (l.Presses key) (l.Releases key) events) :
    ∃ n, l.HeldSince events key n := by
  induction events using List.reverseRecOn with
  | nil => exact absurd h Since.not_nil
  | append_singleton events e ih =>
    by_cases hheld : Since (l.Presses key) (l.Releases key) events
    · obtain ⟨n, hn⟩ := ih hheld
      have hkept : ¬ l.Releases key e :=
        (Since.concat_iff.mp h).elim Presses.not_releases And.left
      exact ⟨n, hn.concat hkept⟩
    · have hpress : l.Presses key e :=
        (Since.concat_iff.mp h).resolve_right fun hstill => hheld hstill.2
      exact ⟨_, .of_presses hpress hheld⟩

namespace Earlier

theorem asymm (h : l.Earlier events key key') : ¬ l.Earlier events key' key := by
  rintro ⟨m', m, hm', hm, hlt'⟩
  obtain ⟨n, n', hn, hn', hlt⟩ := h
  rw [hn.unique hm, hn'.unique hm'] at hlt
  omega

theorem concat (h : l.Earlier events key key') (he : ¬ l.Releases key e)
    (he' : ¬ l.Releases key' e) : l.Earlier (events ++ [e]) key key' := by
  obtain ⟨n, n', hn, hn', hlt⟩ := h
  exact ⟨n, n', hn.concat he, hn'.concat he', hlt⟩

end Earlier

end Layout

namespace Keypad

/-- What a keypad makes of an event, and what it tells of it: the key that the event is about goes
down or up, or the event is about no key and nothing happens. -/
inductive Followed (l : Layout) (k : Keypad) : Event → Keypad × Bool → Prop
  | pressed {code key : Int} (hkey : l.key? code = some key) :
      Followed l k (.keyDown code) (k.press key, true)
  | released {code key : Int} (hkey : l.key? code = some key) :
      Followed l k (.keyUp code) (k.release key, true)
  | ignored {e : Event} (hnone : ∀ key, ¬ l.About key e) : Followed l k e (k, false)

theorem handle_followed (k : Keypad) (e : Event) : Followed k.layout k e (k.handle e) := by
  cases e with
  | keyDown code =>
    rw [Keypad.handle]
    rcases hkey : k.layout.key? code with _ | key
    · exact .ignored (by simp [Layout.About, Layout.Presses, Layout.Releases, hkey])
    · exact .pressed hkey
  | keyUp code =>
    rw [Keypad.handle]
    rcases hkey : k.layout.key? code with _ | key
    · exact .ignored (by simp [Layout.About, Layout.Presses, Layout.Releases, hkey])
    · exact .released hkey
  | quit | motion | click =>
    exact .ignored (by simp [Layout.About, Layout.Presses, Layout.Releases])

/-- What a keypad holds after some events, and in which order: the keys that have been held longer
come first. -/
structure InOrder (l : Layout) (events : List Event) (k : Keypad) : Prop
    extends Tracks l events k where
  order : k.pressed.Pairwise (l.Earlier events)

namespace InOrder

variable {l : Layout} {events : List Event} {k : Keypad} {e : Event}

theorem idle (l : Layout) : InOrder l [] (idle l) := ⟨.idle l, .nil⟩

/-- An event about no key changes nothing. -/
theorem ignore (h : InOrder l events k) (he : ∀ key, ¬ l.About key e) :
    InOrder l (events ++ [e]) k := by
  have hkept (key : Int) : ¬ l.Releases key e := fun hr => he key (.inr hr)
  exact ⟨h.toTracks.ignore (fun key hp => he key (.inl hp)) hkept,
    h.order.imp fun hpair => hpair.concat (hkept _) (hkept _)⟩

/-- A key that is pressed while it is held stays where it is; another one comes last. -/
theorem press (h : InOrder l events k) {code key : Int} (hkey : l.key? code = some key) :
    InOrder l (events ++ [.keyDown code]) (k.press key) := by
  refine ⟨h.toTracks.press hkey, ?_⟩
  have hkept (key' : Int) : ¬ l.Releases key' (.keyDown code) := by simp [Layout.Releases]
  have horder := h.order.imp fun hpair => hpair.concat (hkept _) (hkept _)
  rw [Keypad.press]
  split
  · exact horder
  · rename_i hmem
    have hfree : ¬ Since (l.Presses key) (l.Releases key) events := by
      rw [← h.mem]
      simpa using hmem
    refine List.pairwise_append.mpr ⟨horder, List.pairwise_singleton _ _, ?_⟩
    intro key' hkey' last hlast
    obtain rfl := List.mem_singleton.mp hlast
    -- What the keypad holds already has its place among the events before this one.
    obtain ⟨n, hn⟩ := Layout.exists_heldSince ((h.mem key').mp hkey')
    exact ⟨n, events.length, hn.concat (hkept _), .of_presses ⟨code, rfl, hkey⟩ hfree,
      hn.lt_length⟩

/-- A key that is released goes, and the others stay in their order. -/
theorem release (h : InOrder l events k) {code key : Int} (hkey : l.key? code = some key) :
    InOrder l (events ++ [.keyUp code]) (k.release key) := by
  refine ⟨h.toTracks.release hkey, ?_⟩
  have hkept (key' : Int) (hmem : key' ∈ k.pressed.erase key) :
      ¬ l.Releases key' (.keyUp code) := by
    have hne := (h.nodup.mem_erase_iff.mp hmem).1
    simpa [Layout.Releases, hkey] using hne.symm
  refine (h.order.sublist List.erase_sublist).imp_of_mem fun hmem hmem' hpair => ?_
  exact hpair.concat (hkept _ hmem) (hkept _ hmem')

theorem handle (h : InOrder l events k) (e : Event) :
    InOrder l (events ++ [e]) (k.handle e).1 := by
  have hfollowed := handle_followed k e
  rw [h.layout] at hfollowed
  generalize k.handle e = after at hfollowed
  cases hfollowed with
  | pressed hkey => exact h.press hkey
  | released hkey => exact h.release hkey
  | ignored hnone => exact h.ignore hnone

end InOrder

theorem inOrder_handleAll (l : Layout) (events : List Event) :
    InOrder l events ((idle l).handleAll events) := by
  induction events using List.reverseRecOn with
  | nil => exact InOrder.idle l
  | append_singleton events e ih =>
    rw [handleAll_concat]
    exact ih.handle e

/-- The first key is the one that is held longer than all others. -/
theorem InOrder.first_iff {l : Layout} {events : List Event} {k : Keypad} (h : InOrder l events k)
    (key : Int) : k.keys.first = some key ↔
      key ∈ k.pressed ∧ ∀ key' ∈ k.pressed, key' ≠ key → l.Earlier events key key' := by
  obtain ⟨⟨-, -, -⟩, horder⟩ := h
  obtain ⟨layout, pressed⟩ := k
  change pressed.head? = some key ↔ _
  cases pressed with
  | nil => simp
  | cons first later =>
    have hfirst := (List.pairwise_cons.mp horder).1
    constructor
    · intro hkey
      obtain rfl : first = key := Option.some.inj hkey
      refine ⟨List.mem_cons_self, fun key' hkey' hne => ?_⟩
      exact hfirst key' ((List.mem_cons.mp hkey').resolve_left hne)
    · rintro ⟨hmem, hlongest⟩
      by_contra hne
      have hne' : first ≠ key := fun heq => hne (congrArg some heq)
      have hlater := (List.mem_cons.mp hmem).resolve_left hne'.symm
      exact (hfirst key hlater).asymm (hlongest first List.mem_cons_self hne')

/-- The keypad keeps the order. Whatever keys the codes mean and whatever has happened in the
window, it has every key at most once; it has a key just if the last event about it was a press; it
has the keys in the order of the first presses that they have been held since, so that the first of
them is the one that is held longest, and there is none just if no key is held. Of the next event it
tells whether it is about a key; if not, nothing changes. -/
theorem handleAll_order (l : Layout) (events : List Event) :
    let k := (idle l).handleAll events
    k.pressed.Nodup ∧
      (∀ key, key ∈ k.pressed ↔ Since (l.Presses key) (l.About key) events) ∧
      (∀ key, key ∈ k.pressed ↔ ∃ n, l.HeldSince events key n) ∧
      k.pressed.Pairwise (l.Earlier events) ∧
      (∀ key, k.keys.first = some key ↔
        key ∈ k.pressed ∧ ∀ key' ∈ k.pressed, key' ≠ key → l.Earlier events key key') ∧
      (k.keys.first = none ↔ ∀ key, key ∉ k.pressed) ∧
      ∀ e, ((k.handle e).2 = true ↔ ∃ key, l.About key e) ∧
        ((k.handle e).2 = false → (k.handle e).1 = k) := by
  intro k
  have horder : InOrder l events k := inOrder_handleAll l events
  refine ⟨horder.nodup, fun key => (horder.mem key).trans Since.iff_last, fun key => ?_,
    horder.order, horder.first_iff, ?_, fun e => ?_⟩
  · rw [horder.mem]
    exact ⟨Layout.exists_heldSince, fun ⟨n, hn⟩ => hn.since⟩
  · change k.pressed.head? = none ↔ _
    rw [List.head?_eq_none_iff, List.eq_nil_iff_forall_not_mem]
  · have hfollowed := handle_followed k e
    rw [horder.layout] at hfollowed
    generalize k.handle e = after at hfollowed
    cases hfollowed with
    | pressed hkey => exact ⟨iff_of_true rfl ⟨_, .inl ⟨_, rfl, hkey⟩⟩, nofun⟩
    | released hkey => exact ⟨iff_of_true rfl ⟨_, .inr ⟨_, rfl, hkey⟩⟩, nofun⟩
    | ignored hnone =>
      exact ⟨iff_of_false Bool.false_ne_true fun ⟨key, hkey⟩ => hnone key hkey, fun _ => rfl⟩

/-- Two goes down, one goes down, two goes down once more under its other code, and the pointer
moves. -/
def overtaking : List Event := [.keyDown 50, .keyDown 49, .keyDown 1073741914, .motion]

/-- Two stays in front of one, and a click leaves both where they are. -/
theorem handleAll_order_overtaking :
    let k := (idle Layout.standard).handleAll overtaking
    k.keys.first = some 2 ∧ Layout.standard.Earlier overtaking 2 1 ∧ (k.handle .click).1 = k := by
  intro k
  obtain ⟨-, -, -, horder, -, -, hnext⟩ := handleAll_order Layout.standard overtaking
  have hpressed : k.pressed = [2, 1] := by decide
  rw [hpressed] at horder
  refine ⟨congrArg List.head? hpressed, ?_, (hnext .click).2 rfl⟩
  exact List.rel_of_pairwise_cons horder (List.mem_singleton_self 1)

end Keypad

end ChipEight
