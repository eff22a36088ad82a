import ChipEight.Proofs.Footprint
import ChipEight.Proofs.Reset

/-!
Loading, all of it or nothing. Bytes that fit behind an address are there afterwards, one in each
cell from the address on, and every other cell is as it was; bytes that do not fit are refused with
their number and the room there was. A machine that refuses a program is none the wiser: it is the
machine it was, and starts over with the program it had (`load_whole_or_not`).
-/

namespace ChipEight

namespace Memory

/-- The bytes stand in a row from the address on, and nothing else has changed. -/
structure Loaded (m : Memory) (address : Nat) (data : List Byte) (m' : Memory) : Prop where
  size : m'.cells.toList.length = 4096
  inside : ∀ (k : Nat) (hk : k < data.length), m'.read (address + k : Nat) = data[k]
  outside : ∀ a : Nat, a < 4096 → a < address ∨ address + data.length ≤ a → m'.read a = m.read a

theorem loaded_copy (m : Memory) {address : Nat} {data : List Byte}
    (hroom : address + data.length ≤ 4096) : m.Loaded address data (m.copy address data) where
  size := Vector.length_toList
  inside _ hk := m.read_copy_inside hroom hk
  outside _ ha houtside := m.read_copy_of_outside hroom ha houtside

/-- So are the bytes of a source that has any. -/
theorem loadFrom_of_toBytes (m : Memory) {storage : Storage} {s : ProgramSource} {data : List Byte}
    (h : s.toBytes storage = .ok data) (address : Nat) :
    ((data.length : Int) ≤ 4096 - address ∧
        (m.loadFrom storage s address).1 = .ok (m.copy address data)) ∨
      ((4096 : Int) - address < data.length ∧ (m.loadFrom storage s address).1 =
        .error (.fault (.programTooLarge data.length (4096 - address)))) := by
  have hload : (m.loadFrom storage s address).1 = (m.load data address).mapError .fault := by
    rw [loadFrom_eq, h]
    rfl
  rw [hload]
  rcases m.load_cases data address with ⟨hroom, htaken⟩ | ⟨hlong, hrefused⟩
  · exact .inl ⟨hroom, by rw [htaken]; rfl⟩
  · exact .inr ⟨hlong, by rw [hrefused]; rfl⟩

/-- The memory there is after an attempt to load. -/
def attempt (m : Memory) (storage : Storage) (s : ProgramSource) (address : Nat) : Memory :=
  match (m.loadFrom storage s address).1 with
  | .ok m' => m'
  | .error _ => m

end Memory

theorem lastLoaded_eq_none {later : List Request} (h : ∀ r ∈ later, r.loaded? = none) :
    lastLoaded later = none := by
  rw [lastLoaded, List.filterMap_eq_nil_iff.mpr h]
  rfl

namespace Machine

variable {m : Machine}

/-- The bytes of a source become the program, or there are too many of them. -/
theorem loadFrom_of_toBytes (m : Machine) {storage : Storage} {s : ProgramSource}
    {data : List Byte} (h : s.toBytes storage = .ok data) :
    (data.length ≤ Memory.programLimit ∧ (m.loadFrom storage s).1 =
      .ok { m with memory := m.memory.copy Memory.programStart data, program := some data }) ∨
    (Memory.programLimit < data.length ∧ (m.loadFrom storage s).1 =
      .error (.fault (.programTooLarge data.length Memory.programLimit))) := by
  have hload : (m.loadFrom storage s).1 = (m.load data).mapError .fault := by
    rw [loadFrom_eq, h]
    rfl
  rw [hload]
  rcases m.load_cases data with ⟨hfits, htaken⟩ | ⟨hlong, hrefused⟩
  · exact .inl ⟨hfits, by rw [htaken]; rfl⟩
  · exact .inr ⟨hlong, by rw [hrefused]; rfl⟩

/-- The machine refuses a source and is left as it was. Whatever is asked of it later, as long as
nothing is loaded, it starts over with the program it had: it is then like one that is switched on
at that moment and given this program. -/
structure Refuses (m : Machine) (storage : Storage) (s : ProgramSource) (e : LoadError) :
    Prop where
  error : (m.loadFrom storage s).1 = .error e
  unchanged : m.respond (.load storage s) = m
  previous : ∀ later : List Request, (∀ r ∈ later, r.loaded? = none) → ∀ now, ∃ used,
    (startWith now m.program).map (·.shift used) =
      .ok (((m.respond (.load storage s)).serve later).reset now)

theorem Reachable.refuses (h : m.Reachable) {storage : Storage} {s : ProgramSource} {e : LoadError}
    (herror : (m.loadFrom storage s).1 = .error e) : m.Refuses storage s e := by
  have hunchanged : m.respond (.load storage s) = m := by simp only [respond, herror]
  refine ⟨herror, hunchanged, fun later hlater now => ⟨(m.serve later).randoms, ?_⟩⟩
  have hprogram : (m.serve later).program = m.program := by
    rw [program_serve, lastLoaded_eq_none hlater]
    rfl
  rw [hunchanged, reset_eq (hprogram ▸ h.inBounds.program), hprogram,
    startWith_of_fits h.inBounds.program]
  rfl

end Machine

/-- An iterator that has given its bytes has nothing left to give. -/
theorem ProgramSource.spent_of_toBytes {storage : Storage} {ahead : List SourceItem}
    {data : List Byte} (h : (iterator ahead).toBytes storage = .ok data) :
    (iterator ahead).spent = iterator [] := by
  have hdrop : ahead.dropWhile (fun item => item.toByte.isOk) = [] := by
    change ahead.mapM SourceItem.toByte = .ok data at h
    induction ahead generalizing data with
    | nil => rfl
    | cons item ahead ih =>
      rw [List.mapM_cons] at h
      rcases hitem : item.toByte with e | b <;> rw [hitem] at h
      · cases h
      rcases hrest : ahead.mapM SourceItem.toByte with e | rest <;> rw [hrest] at h
      · cases h
      rw [List.dropWhile_cons, hitem]
      exact ih hrest
  rw [spent, hdrop]
  rfl

/-- Bytes go into memory whole, each into its cell and nothing else changing, or they are refused,
exactly if there is no room for them, and nothing changes at all. A machine takes a program in this
way too: it remembers what it has taken, and what it has refused is forgotten. Memory and machine
take an iterator once, and then it is used up, its bytes refused or not. -/
theorem load_whole_or_not (storage : Storage) (s : ProgramSource) :
    (∀ (m : Memory) (address : Nat) (data : List Byte), s.toBytes storage = .ok data →
      ((m.loadFrom storage s address).1 =
          .error (.fault (.programTooLarge data.length (4096 - address))) ↔
        (4096 : Int) - address < data.length) ∧
      (4096 < address → (4096 : Int) - address < data.length) ∧
      ((4096 : Int) - address < data.length → m.attempt storage s address = m) ∧
      ((data.length : Int) ≤ 4096 - address →
        ∃ m', (m.loadFrom storage s address).1 = .ok m' ∧ m.Loaded address data m')) ∧
    (∀ m : Machine, m.Reachable →
      (∀ e, s.toBytes storage = .error e → m.Refuses storage s (.source e)) ∧
      ∀ data, s.toBytes storage = .ok data →
        (3584 < data.length → m.Refuses storage s (.fault (.programTooLarge data.length 3584))) ∧
        (data.length ≤ 3584 → ∃ m', (m.loadFrom storage s).1 = .ok m' ∧
          m.memory.Loaded 0x200 data m'.memory ∧
          m' = { m with memory := m'.memory, program := some data })) ∧
    ∀ ahead data, s = .iterator ahead → s.toBytes storage = .ok data →
      (∀ (m : Memory) (address : Nat), (m.loadFrom storage s address).2 = .iterator []) ∧
        ∀ m : Machine, (m.loadFrom storage s).2 = .iterator [] := by
  refine ⟨fun m address data hdata => ?_, fun m hm => ⟨fun e he => ?_, fun data hdata => ?_⟩, ?_⟩
  · rcases m.loadFrom_of_toBytes hdata address with ⟨hroom, htaken⟩ | ⟨hlong, hrefused⟩
    · refine ⟨⟨fun h => ?_, fun h => by omega⟩, by omega, fun h => by omega, fun _ => ?_⟩
      · rw [htaken] at h
        cases h
      · exact ⟨_, htaken, m.loaded_copy (by omega)⟩
    · refine ⟨⟨fun _ => hlong, fun _ => hrefused⟩, fun _ => hlong, fun _ => ?_, fun h => by omega⟩
      simp only [Memory.attempt, hrefused]
  · refine hm.refuses ?_
    rw [Machine.loadFrom_eq, he]
    rfl
  · have hlimit : Memory.programLimit = 3584 := rfl
    rcases m.loadFrom_of_toBytes hdata with ⟨hfits, htaken⟩ | ⟨hlong, hrefused⟩
    · have hroom : 0x200 + data.length ≤ 4096 := by omega
      exact ⟨fun h => by omega, fun _ => ⟨_, htaken, m.memory.loaded_copy hroom, rfl⟩⟩
    · exact ⟨fun _ => hm.refuses hrefused, fun h => by omega⟩
  · rintro ahead data rfl hdata
    have hspent := ProgramSource.spent_of_toBytes hdata
    exact ⟨fun _ _ => hspent, fun _ => hspent⟩

/-- Two bytes that an iterator has ahead of it. -/
def twoBytes : ProgramSource := .iterator [.integer 0x60, .integer 0x07]

/-- Two bytes fill the memory up to its last cell and do not fit behind it, and either way they can
be had only once. A machine that is given four thousand zeros runs on and starts over with the
program it had. -/
theorem load_whole_or_not_twoBytes :
    (∃ m', Memory.initial.loadFrom .boundless twoBytes 4094 = (.ok m', .iterator []) ∧
        m'.read 4095 = 0x07 ∧ m'.read 0 = 0xF0) ∧
      Memory.initial.loadFrom .boundless twoBytes 4095 =
        (.error (.fault (.programTooLarge 2 1)), .iterator []) ∧
      ∃ used, (Machine.startWith 5 (some [0x12, 0x00])).map (·.shift used) =
        .ok ((((Machine.given [0x12, 0x00]).respond (.load .boundless (.count 4000))).serve
          [.cycle false (Machine.holding [])]).reset 5) := by
  have hbytes : twoBytes.toBytes .boundless = .ok [0x60, 0x07] := rfl
  have hzeros : ProgramSource.toBytes .boundless (.count 4000) = .ok (List.replicate 4000 0) := rfl
  obtain ⟨hmemory, -, honce⟩ := load_whole_or_not .boundless twoBytes
  obtain ⟨hspent, -⟩ := honce _ _ rfl hbytes
  obtain ⟨-, -, -, htaken⟩ := hmemory Memory.initial 4094 _ hbytes
  obtain ⟨hrefused, -⟩ := hmemory Memory.initial 4095 _ hbytes
  obtain ⟨-, hmachine, -⟩ := load_whole_or_not .boundless (.count 4000)
  obtain ⟨-, hprogram⟩ := hmachine (Machine.given [0x12, 0x00]) ⟨0, _, rfl⟩
  obtain ⟨hlong, -⟩ := hprogram _ hzeros
  obtain ⟨m', hload, hloaded⟩ := htaken (by decide)
  refine ⟨⟨m', Prod.ext hload (hspent _ _), hloaded.inside 1 (by decide), ?_⟩,
    Prod.ext (hrefused.mpr (by decide)) (hspent _ _), ?_⟩
  · exact (hloaded.outside 0 (by decide) (.inl (by decide))).trans (by decide +kernel)
  · refine (hlong ?_).previous [.cycle false (Machine.holding [])] ?_ 5
    · rw [List.length_replicate]
      decide
    · intro r hr
      rw [List.mem_singleton.mp hr]
      rfl

end ChipEight
