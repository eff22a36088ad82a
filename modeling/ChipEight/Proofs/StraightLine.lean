import ChipEight.Proofs.Cadence
import ChipEight.Proofs.Decay
import ChipEight.Proofs.Footprint

/-!
Programs without a branch. An opcode is straight if it neither moves the program counter nor waits
for a key nor writes to memory, so in a program of such opcodes the cycles come upon one after the
other as they were written. `Follows` says how far a machine has come with its program, compared
with one that is given the same opcodes by hand; a cycle keeps it (`Follows.cycle`), and so does a
whole run (`cycles_straight`).
-/

namespace ChipEight

/-! ### Programs in memory -/

/-- The bytes of a program, the high byte of each opcode first. -/
def programBytes (opcodes : List Int) : List Byte :=
  opcodes.flatMap fun opcode => [Byte.wrap (opcode / 256), Byte.wrap opcode]

theorem length_programBytes (opcodes : List Int) :
    (programBytes opcodes).length = 2 * opcodes.length := by
  induction opcodes with
  | nil => rfl
  | cons opcode opcodes ih =>
    rw [programBytes, List.flatMap_cons, List.length_append, ← programBytes, ih, List.length_cons,
      List.length_cons, List.length_cons, List.length_nil]
    omega

namespace Memory

/-- Opcodes stand in a row from an address on, the high byte of each one first. -/
def Holds (m : Memory) (address : Int) : List Int → Prop
  | [] => True
  | opcode :: opcodes =>
      (m.read address).toInt * 256 + (m.read (address + 1)).toInt = opcode ∧
        m.Holds (address + 2) opcodes

theorem Holds.congr {m m' : Memory} (hread : ∀ a, m'.read a = m.read a) {address : Int}
    {opcodes : List Int} (h : m.Holds address opcodes) : m'.Holds address opcodes := by
  induction opcodes generalizing address with
  | nil => trivial
  | cons opcode opcodes ih =>
    refine ⟨?_, ih h.2⟩
    rw [hread, hread]
    exact h.1

/-- A program that ends inside the memory can be read back. -/
theorem holds_copy (m : Memory) {address : Nat} {opcodes : List Int}
    (hwords : ∀ opcode ∈ opcodes, 0 ≤ opcode ∧ opcode ≤ 0xFFFF)
    (hroom : address + 2 * opcodes.length ≤ 4096) :
    (m.copy address (programBytes opcodes)).Holds address opcodes := by
  induction opcodes generalizing m address with
  | nil => trivial
  | cons opcode opcodes ih =>
    obtain ⟨hword, hrest⟩ := List.forall_mem_cons.mp hwords
    rw [List.length_cons] at hroom
    have hafter : address + 2 + (programBytes opcodes).length ≤ 4096 := by
      rw [length_programBytes]
      omega
    let written := (m.write address (Byte.wrap (opcode / 256)).toInt).write (address + 1 : Nat)
      (Byte.wrap opcode).toInt
    have hhigh : (written.copy (address + 2) (programBytes opcodes)).read address =
        Byte.wrap (opcode / 256) := by
      rw [read_copy_of_outside _ hafter (by omega) (.inl (by omega)),
        read_write_of_ne _ (by omega), read_write, if_pos rfl]
      exact Byte.wrap_toNat _
    have hlow : (written.copy (address + 2) (programBytes opcodes)).read (address + 1 : Nat) =
        Byte.wrap opcode := by
      rw [read_copy_of_outside _ hafter (by omega) (.inl (by omega)), read_write, if_pos rfl]
      exact Byte.wrap_toNat _
    refine ⟨?_, ih written hrest (by omega)⟩
    change ((written.copy (address + 2) (programBytes opcodes)).read address).toInt * 256 +
      ((written.copy (address + 2) (programBytes opcodes)).read (address + 1 : Nat)).toInt = opcode
    rw [hhigh, hlow, Byte.toInt_wrap, Byte.toInt_wrap]
    omega

end Memory

/-! ### The clock -/

namespace Timers

variable {time rate : Type}

/-- The timers count the same time, whatever they stand at. -/
structure SameClock (t u : Timers time rate) : Prop where
  rate : t.rate = u.rate
  last : t.last = u.last
  elapsed : t.elapsed = u.elapsed

namespace SameClock

variable {t u : Timers time rate}

theorem trans {v : Timers time rate} (h : t.SameClock u) (h' : u.SameClock v) : t.SameClock v :=
  ⟨h.rate.trans h'.rate, h.last.trans h'.last, h.elapsed.trans h'.elapsed⟩

variable [Clockwork time rate]

theorem heard (h : t.SameClock u) (now : time) : (t.heard now).SameClock (u.heard now) :=
  ⟨h.rate, rfl, by simp only [Timers.heard, h.last, h.elapsed]⟩

theorem counted (h : t.SameClock u) (now : time) (k : Int) :
    (t.counted now k).SameClock (u.counted now k) :=
  ⟨h.rate, rfl, by simp only [Timers.counted, tick, (h.heard now).elapsed, h.rate]⟩

/-- An update finds the same ticks in the same time. -/
theorem update (h : t.SameClock u) (now : time) :
    (t.update now).2 = (u.update now).2 ∧ (t.update now).1.SameClock (u.update now).1 := by
  have hsame : t.found now = u.found now := by
    simp only [found, (h.heard now).elapsed, h.rate]
  rcases hfound : u.found now with f | k
  · rw [update_of_error hfound, update_of_error (hsame.trans hfound)]
    exact ⟨rfl, h.heard now⟩
  · rw [update_of_ok hfound, update_of_ok (hsame.trans hfound)]
    refine ⟨rfl, ?_⟩
    by_cases hk : 0 < k
    · rw [if_pos hk, if_pos hk]
      exact h.counted now k
    · rw [if_neg hk, if_neg hk]
      exact h.heard now

end SameClock

end Timers

/-! ### Straight opcodes -/

/-- The operations that go on to the next opcode at once and leave the memory alone. -/
def Operation.straight : List Operation :=
  [clear, loadByte, addByte, loadReg, bitOr, bitAnd, bitXor, addReg, sub, shiftRight, subFrom,
    shiftLeft, loadIndex, random, draw, readDelay, setDelay, setSound, addIndex, loadGlyph,
    loadRegs]

/-- An opcode of sixteen bits that is one of these operations. -/
structure Straight (opcode : Int) : Prop where
  word : 0 ≤ opcode ∧ opcode ≤ 0xFFFF
  decodes : ∃ i, decode opcode = some i ∧ i.operation ∈ Operation.straight

theorem stores_of_straight {i : Instruction} (h : i.operation ∈ Operation.straight) :
    i.stores = 0 := by
  obtain ⟨operation, opcode⟩ := i
  cases operation
  case storeDigits | storeRegs => exact absurd h (by simp [Operation.straight])
  all_goals rfl

namespace Machine

/-- The machines agree in everything but the program counter, the draw flag and the buzzer. -/
def AgreesWith (m n : Machine) : Prop :=
  ∃ pc drew buzzer, m = { n with pc := pc, drew := drew, buzzer := buzzer }

theorem execute_agrees {m n : Machine} (h : m.AgreesWith n) {i : Instruction}
    (hi : i.operation ∈ Operation.straight) (keys : Keys) (random : Nat → Int) :
    ∃ m' n', m.execute keys random i = .ok m' ∧ n.execute keys random i = .ok n' ∧
      m'.AgreesWith n' := by
  obtain ⟨pc, drew, buzzer, rfl⟩ := h
  obtain ⟨operation, opcode⟩ := i
  cases operation
  case ret | call | skipEqByte | skipNeByte | skipEqReg | skipNeReg | skipPressed | skipReleased =>
    exact absurd hi (by simp [Operation.straight])
  all_goals exact ⟨_, _, rfl, rfl, _, _, _, rfl⟩

/-- What a straight instruction leaves where it was. -/
theorem execute_straight {m m' : Machine} {i : Instruction} {keys : Keys} {random : Nat → Int}
    (h : m.execute keys random i = .ok m') (hi : i.operation ∈ Operation.straight) :
    m'.pc = m.pc ∧ m'.waiting = m.waiting ∧ (∀ a, m'.memory.read a = m.memory.read a) ∧
      m'.timers.SameClock m.timers := by
  have hfoot := execute_footprint h
  have hnot : ∀ o ∈ Operation.straight, o ∉ Operation.moves ∧ o ≠ .waitKey := by decide
  obtain ⟨hmoves, hwaits⟩ := hnot _ hi
  refine ⟨hfoot.pc hmoves, hfoot.waiting.trans (if_neg hwaits), fun a => hfoot.memory a ?_, ?_⟩
  · rw [stores_of_straight hi, Memory.not_within_iff]
    exact nofun
  · rw [hfoot.clock]
    exact ⟨rfl, rfl, rfl⟩

/-! ### One cycle after the other -/

/-- A cycle of a machine that waits for nothing, if its instruction completes. -/
theorem cycle_of_execute {m m' : Machine} {tracing : Bool} {env : Surroundings}
    (hwaiting : m.waiting = false) (hclock : ∃ k, (m.timers.update env.now).2 = .ok k)
    {i : Instruction} (hcode : decode m.fetch = some i)
    (hexec : (m.ticked env.now).advance.execute env.keys env.random i = .ok m') :
    m.cycle tracing env = ⟨m'.gateBuzzer, (m.ticked env.now).advance.trace tracing i, none⟩ := by
  obtain ⟨k, hk⟩ := hclock
  have hidle : ¬ (m.ticked env.now).Idle env.keys := fun h => nomatch hwaiting.symm.trans h.1
  rw [← poised_of_not_waiting (m := m.ticked env.now) hwaiting env.keys] at hexec ⊢
  rw [cycle_of_ok hk, step_of_ok (m := m.ticked env.now) hidle hcode hexec]

/-- What is given by hand instead of a run: for each cycle, the update of the timers and the opcode.
-/
def byHand (tracing : Bool) (steps : List (Int × Surroundings)) : List Request :=
  steps.flatMap fun s => [.update s.2.now, .execute s.1 tracing s.2]

theorem serve_byHand {n n' : Machine} {tracing : Bool} {opcode : Int} {env : Surroundings}
    {i : Instruction} (hcode : decode opcode = some i)
    (hexec : (n.respond (.update env.now)).execute env.keys env.random i = .ok n')
    (steps : List (Int × Surroundings)) :
    n.serve (byHand tracing ((opcode, env) :: steps)) = n'.serve (byHand tracing steps) := by
  have hgiven : (n.respond (.update env.now)).respond (.execute opcode tracing env) = n' := by
    simp only [respond, hcode, perform] at hexec ⊢
    rw [hexec]
  rw [← hgiven]
  rfl

/-- A machine has come as far as `address` with its program, and these opcodes are left. `n` has
been given the others by hand, and `t` has heard the clock as often. -/
structure Follows (m n : Machine) (t : Timers Float Rate) (address : Nat) (opcodes : List Int) :
    Prop where
  agrees : m.AgreesWith n
  waiting : m.waiting = false
  pc : m.pc = address
  room : address + 2 * opcodes.length ≤ 4096
  holds : m.memory.Holds address opcodes
  clock : m.timers.SameClock t

/-- The next cycle does what giving the next opcode by hand does. -/
theorem Follows.cycle {m n : Machine} {t : Timers Float Rate} {address : Nat} {opcode : Int}
    {opcodes : List Int} (h : m.Follows n t address (opcode :: opcodes)) {i : Instruction}
    (hcode : decode opcode = some i) (hi : i.operation ∈ Operation.straight) {env : Surroundings}
    (hheard : (t.update env.now).2.isOk = true) (tracing : Bool) :
    ∃ n', (n.respond (.update env.now)).execute env.keys env.random i = .ok n' ∧
      (m.cycle tracing env).failure = none ∧
      (m.cycle tracing env).machine.Follows n' (t.update env.now).1 (address + 2) opcodes := by
  obtain ⟨hticks, hclock⟩ := h.clock.update env.now
  have hfetch : m.fetch = opcode := by
    rw [fetch, h.pc]
    exact h.holds.1
  have hupdated : (m.ticked env.now).advance.AgreesWith (n.respond (.update env.now)) := by
    obtain ⟨pc, drew, buzzer, rfl⟩ := h.agrees
    exact ⟨_, _, _, rfl⟩
  obtain ⟨m', n', hm, hn, pc, drew, buzzer, rfl⟩ := execute_agrees hupdated hi env.keys env.random
  obtain ⟨hpc, hwaiting, hmemory, htimers⟩ := execute_straight hm hi
  have hroom := h.room
  rw [List.length_cons] at hroom
  refine ⟨n', hn, ?_⟩
  rw [cycle_of_execute h.waiting (hticks ▸ exists_ok hheard) (hfetch ▸ hcode) hm]
  refine ⟨rfl, ⟨_, _, _, rfl⟩, hwaiting.trans h.waiting, ?_, by omega, h.holds.2.congr hmemory,
    htimers.trans hclock⟩
  calc pc = (m.pc + 2) % 65536 := hpc
    _ = ((address + 2 : Nat) : Int) := by
      rw [h.pc]
      omega

theorem Follows.run {m n : Machine} {t : Timers Float Rate} {address : Nat}
    {steps : List (Int × Surroundings)} (h : m.Follows n t address (steps.map Prod.fst))
    (hs : ∀ s ∈ steps, Straight s.1)
    (hheard : ∀ found ∈ t.answers (steps.map fun s => s.2.now), found.isOk = true)
    (tracing : Bool) :
    (∀ o ∈ m.outcomes tracing (steps.map Prod.snd), o.failure = none) ∧
      (m.cycles tracing (steps.map Prod.snd)).pc = address + 2 * steps.length ∧
      (m.cycles tracing (steps.map Prod.snd)).AgreesWith (n.serve (byHand tracing steps)) := by
  induction steps generalizing m n t address with
  | nil => exact ⟨List.forall_mem_nil _, h.pc, h.agrees⟩
  | cons s steps ih =>
    obtain ⟨hfirst, hrest⟩ := List.forall_mem_cons.mp hs
    rw [List.map_cons, Timers.answers, List.forall_mem_cons] at hheard
    obtain ⟨i, hcode, hi⟩ := hfirst.decodes
    obtain ⟨n', hn, hdone, hnext⟩ := h.cycle hcode hi hheard.1 tracing
    obtain ⟨hfailures, hpc, hagrees⟩ := ih hnext hrest hheard.2
    refine ⟨?_, ?_, ?_⟩
    · rw [List.map_cons, outcomes, List.forall_mem_cons]
      exact ⟨hdone, hfailures⟩
    · rw [List.map_cons, cycles, List.foldl_cons, ← cycles, hpc, List.length_cons]
      omega
    · rw [List.map_cons, cycles, List.foldl_cons, ← cycles, serve_byHand hcode hn]
      exact hagrees

/-- A program of straight opcodes runs as it is written, up to one that fills the memory to its last
byte. On a machine just switched on it can be loaded; one cycle for each opcode goes without a fault
and leads behind the program; and the machine is then as if, with the same readings of the clock,
the opcodes had been given to it by hand. -/
theorem cycles_straight (now : Float) (tracing : Bool) (steps : List (Int × Surroundings))
    (hlength : steps.length ≤ 1792) (hs : ∀ s ∈ steps, Straight s.1)
    (hheard : ∀ found ∈ (start now).timers.answers (steps.map fun s => s.2.now),
      found.isOk = true) :
    ∃ m, (start now).load (programBytes (steps.map Prod.fst)) = .ok m ∧
      (∀ o ∈ m.outcomes tracing (steps.map Prod.snd), o.failure = none) ∧
      (m.cycles tracing (steps.map Prod.snd)).pc = 0x200 + 2 * steps.length ∧
      (m.cycles tracing (steps.map Prod.snd)).AgreesWith (m.serve (byHand tracing steps)) := by
  have hbytes : (programBytes (steps.map Prod.fst)).length = 2 * steps.length := by
    rw [length_programBytes, List.length_map]
  have hlimit : Memory.programLimit = 3584 := rfl
  have hroom : Memory.programStart + 2 * (steps.map Prod.fst).length ≤ 4096 := by
    rw [List.length_map, Memory.programStart]
    omega
  have hwords : ∀ opcode ∈ steps.map Prod.fst, 0 ≤ opcode ∧ opcode ≤ 0xFFFF :=
    List.forall_mem_map.mpr fun s hmem => (hs s hmem).word
  rcases (start now).load_cases (programBytes (steps.map Prod.fst)) with ⟨-, hload⟩ | ⟨hlong, -⟩
  · refine ⟨_, hload, Follows.run ?_ hs hheard tracing⟩
    exact ⟨⟨_, _, _, rfl⟩, rfl, rfl, hroom, Memory.holds_copy _ hwords hroom, rfl, rfl, rfl⟩
  · omega

/-- Sets the delay timer, waits for a quarter of a second and reads it into the flag; then uses up a
random number. -/
def quarter : List (Int × Surroundings) :=
  [(0x6A3C, reading 0), (0xFA15, reading 0), (0xFF07, reading 0.25), (0xC0FF, reading 0.25)]

theorem cycles_straight_quarter :
    ∃ m, (start 0).load [0x6A, 0x3C, 0xFA, 0x15, 0xFF, 0x07, 0xC0, 0xFF] = .ok m ∧
      (m.cycles true (quarter.map Prod.snd)).pc = 0x208 ∧
      (m.cycles true (quarter.map Prod.snd)).AgreesWith (m.serve (byHand true quarter)) := by
  have hs : ∀ s ∈ quarter, Straight s.1 := by
    have hall : ∀ s ∈ quarter, (0 ≤ s.1 ∧ s.1 ≤ 0xFFFF) ∧
        ∃ o ∈ Operation.straight, decode s.1 = some ⟨o, s.1⟩ := by decide +kernel
    intro s hmem
    obtain ⟨hword, o, ho, hcode⟩ := hall s hmem
    exact ⟨hword, _, hcode, ho⟩
  obtain ⟨m, hload, -, hpc, hagrees⟩ :=
    cycles_straight 0 true quarter (by decide) hs (by decide +kernel)
  exact ⟨m, hload, hpc, hagrees⟩

end Machine

end ChipEight
