import Mathlib.Data.List.Induction
import Mathlib.Data.List.Nodup
import ChipEight.Keypad

/-!
What the keypad says and what the keyboard does. A key can have several codes, and the keypad counts
it as held from a press of one of them to the next release of any. So it never says that a key is
held while none of its codes is down, but it overlooks a code that stays down when another one of
the same key goes up (`truthful_iff`).
-/

namespace ChipEight

/-- An event of the first kind has come, and none of the second kind after it. -/
def Since (start stop : Event → Prop) (events : List Event) : Prop :=
  ∃ before e after, events = before ++ e :: after ∧ start e ∧ ∀ e' ∈ after, ¬ stop e'

namespace Since

variable {start stop : Event → Prop}

theorem not_nil : ¬ Since start stop [] := by
  rintro ⟨before, e, after, hsplit, -⟩
  simp at hsplit

/-- The last event starts afresh, or it does not stop what has been going on. -/
theorem concat_iff {events : List Event} {e : Event} :
    Since start stop (events ++ [e]) ↔ start e ∨ (¬ stop e ∧ Since start stop events) := by
  constructor
  · rintro ⟨before, e', after, hsplit, hstart, hstop⟩
    rcases List.eq_nil_or_concat after with rfl | ⟨after, last, rfl⟩
    · obtain ⟨-, hlast⟩ := List.append_inj' hsplit rfl
      obtain rfl : e = e' := by simpa using hlast
      exact .inl hstart
    · rw [List.concat_eq_append, ← List.cons_append, ← List.append_assoc] at hsplit
      obtain ⟨hevents, hlast⟩ := List.append_inj' hsplit rfl
      obtain rfl : e = last := by simpa using hlast
      refine .inr ⟨hstop e (by simp), before, e', after, hevents, hstart, ?_⟩
      intro e'' he''
      exact hstop e'' (by simp [he''])
  · rintro (hstart | ⟨hstop, before, e', after, rfl, hstart, hafter⟩)
    · exact ⟨events, e, [], rfl, hstart, by simp⟩
    · refine ⟨before, e', after ++ [e], by simp, hstart, ?_⟩
      intro e'' he''
      rcases List.mem_append.mp he'' with he'' | he''
      · exact hafter e'' he''
      · obtain rfl : e'' = e := by simpa using he''
        exact hstop

theorem imp {start' stop' : Event → Prop} (hstart : ∀ e, start e → start' e)
    (hstop : ∀ e, stop' e → stop e) {events : List Event} (h : Since start stop events) :
    Since start' stop' events := by
  obtain ⟨before, e, after, hsplit, he, hafter⟩ := h
  exact ⟨before, e, after, hsplit, hstart e he, fun e' he' hs => hafter e' he' (hstop e' hs)⟩

/-- Once something has started, the last event to matter was a start or a stop, and not both. -/
theorem swap_iff (hdisjoint : ∀ e, start e → ¬ stop e) {events : List Event}
    (h : ∃ e ∈ events, start e) : Since stop start events ↔ ¬ Since start stop events := by
  induction events using List.reverseRecOn with
  | nil => simp at h
  | append_singleton events e ih =>
    rw [concat_iff, concat_iff]
    by_cases hstart : start e
    · simp [hstart, hdisjoint e hstart]
    · have hbefore : ∃ e ∈ events, start e := by
        obtain ⟨e', he', hstart'⟩ := h
        rcases List.mem_append.mp he' with he' | he'
        · exact ⟨e', he', hstart'⟩
        · obtain rfl : e' = e := by simpa using he'
          contradiction
      by_cases hstop : stop e <;> simp [hstart, hstop, ih hbefore]

theorem exists_start {events : List Event} (h : Since start stop events) :
    ∃ e ∈ events, start e := by
  obtain ⟨before, e, after, rfl, hstart, -⟩ := h
  exact ⟨e, by simp, hstart⟩

end Since

/-! ### Keys and their codes -/

/-- A code is down: it has gone down and not gone up since. -/
def Event.Down (code : Int) : List Event → Prop := Since (· = .keyDown code) (· = .keyUp code)

namespace Layout

/-- The event is that one of the codes of a key goes down. -/
def Presses (l : Layout) (key : Int) (e : Event) : Prop :=
  ∃ code, e = .keyDown code ∧ l.key? code = some key

/-- The event is that one of the codes of a key goes up. -/
def Releases (l : Layout) (key : Int) (e : Event) : Prop :=
  ∃ code, e = .keyUp code ∧ l.key? code = some key

theorem Presses.not_releases {l : Layout} {key : Int} {e : Event} (h : l.Presses key e) :
    ¬ l.Releases key e := by
  obtain ⟨code, rfl, -⟩ := h
  simp [Releases]

end Layout

namespace Keypad

/-- The keypad after events in a row. -/
def handleAll (k : Keypad) (events : List Event) : Keypad :=
  events.foldl (fun k e => (k.handle e).1) k

theorem handleAll_concat (k : Keypad) (events : List Event) (e : Event) :
    k.handleAll (events ++ [e]) = ((k.handleAll events).handle e).1 := by
  simp [handleAll]

/-- What a keypad holds after some events: each key once, and just those that have been pressed and
not released since. -/
structure Tracks (l : Layout) (events : List Event) (k : Keypad) : Prop where
  layout : k.layout = l
  nodup : k.pressed.Nodup
  mem : ∀ key, key ∈ k.pressed ↔ Since (l.Presses key) (l.Releases key) events

theorem mem_press (k : Keypad) (key key' : Int) :
    key ∈ (k.press key').pressed ↔ key = key' ∨ key ∈ k.pressed := by
  rw [press]
  split
  · rename_i hmem
    have hmem' : key' ∈ k.pressed := by simpa using hmem
    constructor
    · exact .inr
    · rintro (rfl | h) <;> assumption
  · simp [or_comm]

theorem nodup_press {k : Keypad} (h : k.pressed.Nodup) (key : Int) :
    (k.press key).pressed.Nodup := by
  rw [press]
  split
  · exact h
  · rename_i hmem
    have hnot : key ∉ k.pressed := by simpa using hmem
    simpa [List.nodup_append] using ⟨h, fun a ha heq => hnot (heq ▸ ha)⟩

namespace Tracks

variable {l : Layout} {events : List Event} {k : Keypad}

theorem idle (l : Layout) : Tracks l [] (idle l) :=
  ⟨rfl, List.nodup_nil, fun key => by simp [Keypad.idle, Since.not_nil]⟩

/-- An event about no code of the layout changes nothing. -/
theorem ignore (h : Tracks l events k) {e : Event} (hpress : ∀ key, ¬ l.Presses key e)
    (hrelease : ∀ key, ¬ l.Releases key e) : Tracks l (events ++ [e]) k :=
  ⟨h.layout, h.nodup, fun key => by
    rw [h.mem, Since.concat_iff]
    simp [hpress, hrelease]⟩

theorem press (h : Tracks l events k) {code key : Int} (hkey : l.key? code = some key) :
    Tracks l (events ++ [.keyDown code]) (k.press key) := by
  refine ⟨?_, nodup_press h.nodup key, ?_⟩
  · rw [Keypad.press]
    split <;> exact h.layout
  · intro key'
    rw [mem_press, Since.concat_iff, h.mem]
    simp [Layout.Presses, Layout.Releases, hkey, eq_comm]

theorem release (h : Tracks l events k) {code key : Int} (hkey : l.key? code = some key) :
    Tracks l (events ++ [.keyUp code]) (k.release key) := by
  refine ⟨h.layout, h.nodup.erase key, ?_⟩
  intro key'
  rw [Since.concat_iff, ← h.mem]
  change key' ∈ k.pressed.erase key ↔ _
  rw [h.nodup.mem_erase_iff]
  simp [Layout.Presses, Layout.Releases, hkey, eq_comm]

/-- An event keeps the keypad on the track of all events so far. -/
theorem handle (h : Tracks l events k) (e : Event) : Tracks l (events ++ [e]) (k.handle e).1 := by
  cases e with
  | keyDown code =>
    rw [Keypad.handle, h.layout]
    rcases hkey : l.key? code with _ | key
    · exact h.ignore (by simp [Layout.Presses, hkey]) (by simp [Layout.Releases])
    · exact h.press hkey
  | keyUp code =>
    rw [Keypad.handle, h.layout]
    rcases hkey : l.key? code with _ | key
    · exact h.ignore (by simp [Layout.Presses]) (by simp [Layout.Releases, hkey])
    · exact h.release hkey
  | quit | motion | click => exact h.ignore (by simp [Layout.Presses]) (by simp [Layout.Releases])

end Tracks

theorem tracks_handleAll (l : Layout) (events : List Event) :
    Tracks l events ((idle l).handleAll events) := by
  induction events using List.reverseRecOn with
  | nil => exact Tracks.idle l
  | append_singleton events e ih =>
    rw [handleAll_concat]
    exact ih.handle e

/-- A key is held from a press of one of its codes to the next release of any of them. -/
theorem held_handleAll_iff (l : Layout) (events : List Event) (key : Int) :
    ((idle l).handleAll events).keys.held key = true ↔
      Since (l.Presses key) (l.Releases key) events := by
  rw [← (tracks_handleAll l events).mem]
  simp [keys, Keys.ofList]

/-! ### The keyboard -/

/-- One of the codes of a key is down. -/
def AnyDown (l : Layout) (events : List Event) (key : Int) : Prop :=
  ∃ code, l.key? code = some key ∧ Event.Down code events

/-- The keypad tells the truth about a key: it is held if and only if one of its codes is down. -/
def Truthful (l : Layout) (events : List Event) (key : Int) : Prop :=
  ((idle l).handleAll events).keys.held key = true ↔ AnyDown l events key

/-- What has been pressed as a key and not been released as that key is down under its own code. -/
theorem anyDown_of_since {l : Layout} {events : List Event} {key : Int}
    (h : Since (l.Presses key) (l.Releases key) events) : AnyDown l events key := by
  obtain ⟨before, e, after, hsplit, ⟨code, he, hkey⟩, hafter⟩ := h
  refine ⟨code, hkey, before, e, after, hsplit, he, ?_⟩
  rintro e' he' rfl
  exact hafter _ he' ⟨code, rfl, hkey⟩

theorem AnyDown.exists_presses {l : Layout} {events : List Event} {key : Int}
    (h : AnyDown l events key) : ∃ e ∈ events, l.Presses key e := by
  obtain ⟨code, hkey, hdown⟩ := h
  obtain ⟨e, he, hstart⟩ := hdown.exists_start
  exact ⟨e, he, code, hstart, hkey⟩

/-- The keypad tells the truth about a key unless a code of it is down while the last that was heard
of the key is a release. It never makes up a key, and a key with one code only is never
overlooked. -/
theorem truthful_iff (l : Layout) (events : List Event) (key : Int) :
    (Truthful l events key ↔
      ¬ (AnyDown l events key ∧ Since (l.Releases key) (l.Presses key) events)) ∧
    (((idle l).handleAll events).keys.held key = true → AnyDown l events key) ∧
    ((∀ code code', l.key? code = some key → l.key? code' = some key → code = code') →
      Truthful l events key) := by
  rw [Truthful, held_handleAll_iff]
  have hswap (hdown : AnyDown l events key) :=
    Since.swap_iff (fun _ => Layout.Presses.not_releases) hdown.exists_presses
  refine ⟨⟨?_, ?_⟩, anyDown_of_since, ?_⟩
  · rintro htruth ⟨hdown, hreleased⟩
    exact (hswap hdown).mp hreleased (htruth.mpr hdown)
  · intro hseen
    refine ⟨anyDown_of_since, fun hdown => ?_⟩
    by_contra hnot
    exact hseen ⟨hdown, (hswap hdown).mpr hnot⟩
  · intro honly
    refine ⟨anyDown_of_since, fun ⟨code, hkey, hdown⟩ => hdown.imp ?_ ?_⟩
    · rintro e rfl
      exact ⟨code, rfl, hkey⟩
    · rintro e ⟨code', rfl, hkey'⟩
      rw [honly code code' hkey hkey']

/-- A code goes down and up by turns, down first. -/
def Alternates (events : List Event) (code : Int) : Prop :=
  List.IsChain (· ≠ ·)
    (.keyUp code :: events.filter fun e => e = .keyDown code ∨ e = .keyUp code)

/-- The digit goes down, its twin on the numeric pad goes down too, and the digit goes up. -/
def twins : List Event := [.keyDown 49, .keyDown 1073741913, .keyUp 49]

/-- The twin is still down and the key is not held. -/
theorem twins_not_truthful :
    (∀ code, Alternates twins code) ∧ Event.Down 1073741913 twins ∧
      Layout.standard.key? 1073741913 = some 1 ∧
      ((idle Layout.standard).handleAll twins).keys.held 1 = false ∧
      ¬ Truthful Layout.standard twins 1 := by
  have halternates : ∀ code, Alternates twins code := by
    intro code
    by_cases hdigit : code = 49
    · subst hdigit
      simp [Alternates, twins]
    · by_cases htwin : code = 1073741913
      · subst htwin
        simp [Alternates, twins]
      · simp [Alternates, twins, Ne.symm hdigit, Ne.symm htwin]
  have hdown : Event.Down 1073741913 twins :=
    ⟨[.keyDown 49], .keyDown 1073741913, [.keyUp 49], rfl, rfl, by simp⟩
  have hkey : Layout.standard.key? 1073741913 = some 1 := by decide
  have hheld : ((idle Layout.standard).handleAll twins).keys.held 1 = false := by decide
  refine ⟨halternates, hdown, hkey, hheld, ?_⟩
  intro htruth
  rw [Truthful, hheld] at htruth
  exact absurd (htruth.mpr ⟨_, hkey, hdown⟩) (by decide)

end Keypad

end ChipEight
