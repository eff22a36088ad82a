import ChipEight.Machine
import ChipEight.ProgramSource

/-!
Loading from a source. A source may have no bytes, and the bytes of a source may not fit; where it
has bytes, `loadFrom_eq` states that the machine takes exactly them. The source is made into bytes
once, so what is left of an iterator is part of the answer. A count of zeros that is too large is
refused before the zeros are made.
-/

namespace ChipEight

/-- Why nothing was loaded. -/
inductive LoadError where
  | source (error : SourceError)
  | fault (fault : Fault)
  deriving DecidableEq, Repr

/-- The wording of a load error. -/
def LoadError.message : LoadError → String
  | source error => error.message
  | fault f => f.message

/-- How many zeros a source counts and cannot get, if only so many bytes fit. -/
def ProgramSource.excess? (storage : Storage) (limit : Int) : ProgramSource → Option Int
  | count n =>
      match zeros storage n with
      | .ok k => if limit < k then some k else none
      | .error _ => none
  | _ => none

/-- The bytes of a source, unless it counts more zeros than fit. -/
def ProgramSource.fit (storage : Storage) (s : ProgramSource) (limit : Int) :
    Except LoadError (List Byte) :=
  match s.excess? storage limit with
  | some n => .error (.fault (.programTooLarge n limit))
  | none => (s.toBytes storage).mapError .source

/-- Puts the bytes of a source at an address; gives what is left of the source too. -/
def Memory.loadFrom (storage : Storage) (m : Memory) (s : ProgramSource) (address : Nat) :
    Except LoadError Memory × ProgramSource :=
  let loaded := do
    let program ← s.fit storage (Memory.size - address)
    (m.load program address).mapError .fault
  (loaded, s.spent)

/-- Takes the bytes of a source as the program; gives what is left of the source too. -/
def Machine.loadFrom (storage : Storage) (m : Machine) (s : ProgramSource) :
    Except LoadError Machine × ProgramSource :=
  let loaded := do
    let program ← s.fit storage Memory.programLimit
    (m.load program).mapError .fault
  (loaded, s.spent)

/-- A source that counts too many zeros has that many bytes. -/
theorem ProgramSource.toBytes_of_excess? {storage : Storage} (s : ProgramSource) (limit n : Int)
    (h : s.excess? storage limit = some n) :
    limit < n ∧ ∃ data, s.toBytes storage = .ok data ∧ (data.length : Int) = n := by
  cases s with
  | count c =>
      simp only [excess?] at h
      split at h
      · rename_i k hk
        split at h
        · obtain rfl : (k : Int) = n := by simpa using h
          exact ⟨by assumption, List.replicate k 0, by simp [toBytes, hk, Except.map], by simp⟩
        · cases h
      · cases h
  | _ => cases h

theorem Memory.load_of_lt (m : Memory) (program : List Byte) (address : Nat)
    (h : (size : Int) - address < program.length) :
    m.load program address = .error (.programTooLarge program.length (size - address)) :=
  if_pos h

theorem Memory.loadFrom_eq (storage : Storage) (m : Memory) (s : ProgramSource) (address : Nat) :
    (m.loadFrom storage s address).1 =
      ((s.toBytes storage).mapError .source).bind fun data =>
        (m.load data address).mapError .fault := by
  unfold loadFrom ProgramSource.fit
  cases h : s.excess? storage (Memory.size - address) with
  | none => rfl
  | some n =>
      obtain ⟨hlt, data, hdata, rfl⟩ := s.toBytes_of_excess? _ n h
      rw [hdata]
      exact (congrArg (Except.mapError LoadError.fault) (m.load_of_lt data address hlt)).symm

theorem Machine.loadFrom_eq (storage : Storage) (m : Machine) (s : ProgramSource) :
    (m.loadFrom storage s).1 =
      ((s.toBytes storage).mapError .source).bind fun data => (m.load data).mapError .fault := by
  unfold loadFrom ProgramSource.fit
  cases h : s.excess? storage Memory.programLimit with
  | none => rfl
  | some n =>
      obtain ⟨hlt, data, hdata, rfl⟩ := s.toBytes_of_excess? _ n h
      rw [hdata]
      change _ = Except.mapError _ (m.load data)
      rw [load, m.memory.load_of_lt data Memory.programStart hlt]
      rfl

end ChipEight
