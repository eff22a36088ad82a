import ChipEight.Proofs.Reserved

/-!
What an instruction may touch. Its operation and its operands name the registers it may write, the
cells it may write, counted from I on, and the other parts of the machine it may change; all the
rest stays as it was (`Footprint`). What it learns from outside is as narrow: the state of one key
for two of the skips, the next random number for one operation, and nothing for any other. An
instruction that is refused leaves no trace at all. `perform_footprint` puts these together.
-/

namespace ChipEight

/-! ### Writes in a row -/

namespace Memory

theorem cell_eq_iff {a b : Int} : cell a = cell b ↔ a % 4096 = b % 4096 := by
  rw [cell, cell, Fin.mk.injEq]
  omega

theorem read_write_of_ne (m : Memory) {a b : Int} (h : a % 4096 ≠ b % 4096) (v : Int) :
    (m.write a v).read b = m.read b := by
  rw [read_write, if_neg (mt cell_eq_iff.mp h)]

/-- The address means one of so many cells in a row. -/
def Within (start : Int) (count : Nat) (a : Int) : Prop :=
  ∃ k : Nat, k < count ∧ (start + k) % 4096 = a % 4096

theorem not_within_iff {start a : Int} {count : Nat} :
    ¬ Within start count a ↔ ∀ k : Nat, k < count → (start + k) % 4096 ≠ a % 4096 := by
  simp only [Within, not_exists, not_and, ne_eq]

theorem read_foldl_write_of_ne {α : Type} (m : Memory) (place value : α → Int) {l : List α}
    {a : Int} (h : ∀ k ∈ l, place k % 4096 ≠ a % 4096) :
    (l.foldl (fun m k => m.write (place k) (value k)) m).read a = m.read a := by
  induction l generalizing m with
  | nil => rfl
  | cons k l ih =>
    rw [List.forall_mem_cons] at h
    rw [List.foldl_cons, ih _ h.2, read_write_of_ne m h.1]

/-- Bytes that end inside the memory leave every cell in front of them and behind them. -/
theorem read_copy_of_outside (m : Memory) {address a : Nat} {data : List Byte}
    (hroom : address + data.length ≤ 4096) (ha : a < 4096)
    (houtside : a < address ∨ address + data.length ≤ a) :
    (m.copy address data).read a = m.read a := by
  induction data generalizing m address with
  | nil => rfl
  | cons b data ih =>
    rw [List.length_cons] at hroom houtside
    rw [copy, ih _ (by omega) (by omega)]
    exact m.read_write_of_ne (by omega) _

/-- Bytes that end inside the memory can be read back. -/
theorem read_copy_inside (m : Memory) {address k : Nat} {data : List Byte}
    (hroom : address + data.length ≤ 4096) (hk : k < data.length) :
    (m.copy address data).read (address + k : Nat) = data[k] := by
  induction data generalizing m address k with
  | nil => cases hk
  | cons b data ih =>
    rw [List.length_cons] at hroom
    have hafter : address + 1 + data.length ≤ 4096 := by omega
    rw [copy]
    cases k with
    | zero =>
      change ((m.write address b.toInt).copy (address + 1) data).read address = b
      rw [read_copy_of_outside _ hafter (by omega) (.inl (Nat.lt_succ_self _)), read_write,
        if_pos rfl]
      exact Byte.wrap_toNat b
    | succ k =>
      have hplace : address + (k + 1) = address + 1 + k := by omega
      rw [hplace]
      exact ih _ hafter (Nat.lt_of_succ_lt_succ hk)

end Memory

namespace Registers

theorem read_foldl_write_of_not_mem (r : Registers) (value : Fin 16 → Int) {l : List (Fin 16)}
    {x : Fin 16} (h : x ∉ l) :
    (l.foldl (fun r k => r.write k (value k)) r).read x = r.read x := by
  induction l generalizing r with
  | nil => rfl
  | cons k l ih =>
    rw [List.mem_cons, not_or] at h
    rw [List.foldl_cons, ih _ h.2, read_write, if_neg (Ne.symm h.1)]

end Registers

/-! ### What the operations name -/

namespace Operation

/-- The operations that pass over the next instruction if a condition holds. -/
def skips : List Operation :=
  [skipEqByte, skipNeByte, skipEqReg, skipNeReg, skipPressed, skipReleased]

/-- The operations that can leave the program counter elsewhere than they found it. -/
def moves : List Operation := [jump, call, ret, jumpOffset] ++ skips

/-- The operations that ask whether a key is held. -/
def asks : List Operation := [skipPressed, skipReleased]

end Operation

namespace Instruction

/-- The instruction may write a register. -/
def Targets (i : Instruction) (r : Fin 16) : Prop :=
  match i.operation with
  | .loadByte | .addByte | .loadReg | .bitOr | .bitAnd | .bitXor | .random | .readDelay => r = i.x
  | .addReg | .sub | .subFrom | .shiftRight | .shiftLeft => r = i.x ∨ r = Registers.flagNumber
  | .draw => r = Registers.flagNumber
  | .loadRegs => r ≤ i.x
  | _ => False

/-- How many cells the instruction writes, from I on. -/
def stores (i : Instruction) : Nat :=
  match i.operation with
  | .storeDigits => 3
  | .storeRegs => i.x + 1
  | _ => 0

end Instruction

namespace Machine

theorem mem_registersTo {k x : Fin 16} : k ∈ registersTo x ↔ k ≤ x := by
  revert k x
  decide

theorem v_assign_self (m : Machine) (x : Fin 16) (value : Int) :
    (m.assign x value).v x = value % 256 := by
  simp [v, assign]

theorem v_assign_of_ne (m : Machine) {x r : Fin 16} (h : r ≠ x) (value : Int) :
    (m.assign x value).v r = m.v r := by
  rw [v, assign, Registers.read_write, if_neg (Ne.symm h)]
  rfl

theorem v_assignWithFlag_of_ne (m : Machine) {x r : Fin 16} (hx : r ≠ x)
    (hflag : r ≠ Registers.flagNumber) (value : Int) (flag : Bool) :
    (m.assignWithFlag x value flag).v r = m.v r := by
  rw [assignWithFlag, v_assign_of_ne _ hx, v_assign_of_ne _ hflag]

/-! ### What stays -/

/-- What an instruction leaves as it was, with the parts that are reserved to single instructions
among it. A part that an instruction does not name stays by computation. -/
structure Footprint (m : Machine) (i : Instruction) (m' : Machine) : Prop
    extends Reserved m i m' where
  memory : ∀ a, ¬ Memory.Within m.index i.stores a → m'.memory.read a = m.memory.read a := by
    exact fun _ _ => rfl
  registers : ∀ r, ¬ i.Targets r → m'.v r = m.v r := by exact fun _ _ => rfl
  pc : i.operation ∉ Operation.moves → m'.pc = m.pc := by exact fun _ => rfl
  index : i.operation ∉ [.loadIndex, .addIndex, .loadGlyph] → m'.index = m.index := by
    exact fun _ => rfl
  stack : i.operation ∉ [.call, .ret] → m'.stack = m.stack := by exact fun _ => rfl
  screen : i.operation ∉ [.clear, .draw] → m'.screen = m.screen := by exact fun _ => rfl
  drew : i.operation ∉ [.clear, .draw] → m'.drew = m.drew := by exact fun _ => rfl
  randoms : m'.randoms = m.randoms + if i.operation = .random then 1 else 0 := by exact rfl
  buzzer : m'.buzzer = m.buzzer := by exact rfl
  program : m'.program = m.program := by exact rfl

theorem execute_footprint {m m' : Machine} {keys : Keys} {random : Nat → Int} {i : Instruction}
    (h : m.execute keys random i = .ok m') : m.Footprint i m' := by
  have hreserved := execute_reserved h
  obtain ⟨operation, opcode⟩ := i
  unfold execute at h
  cases operation <;> dsimp only at h
  case call =>
    rcases hpush : m.stack.push m.pc with f | stack
    · rw [hpush] at h; cases h
    · rw [hpush] at h
      cases h
      exact { hreserved with
        pc := fun hn => absurd (by simp [Operation.moves]) hn
        stack := fun hn => absurd (by simp) hn }
  case ret =>
    rcases hpop : m.stack.pop with f | ⟨address, stack⟩
    · rw [hpop] at h; cases h
    · rw [hpop] at h
      cases h
      exact { hreserved with
        pc := fun hn => absurd (by simp [Operation.moves]) hn
        stack := fun hn => absurd (by simp) hn }
  all_goals cases h
  case clear =>
    exact { hreserved with
      screen := fun hn => absurd (by simp) hn
      drew := fun hn => absurd (by simp) hn }
  case jump | jumpOffset =>
    exact { hreserved with pc := fun hn => absurd (by simp [Operation.moves]) hn }
  case skipEqByte | skipNeByte | skipEqReg | skipNeReg | skipPressed | skipReleased =>
    revert hreserved
    unfold skipIf
    split <;> exact fun hreserved => { hreserved with
      pc := fun hn => absurd (by simp [Operation.moves, Operation.skips]) hn }
  case loadByte | addByte | loadReg | bitOr | bitAnd | bitXor | random | readDelay =>
    exact { hreserved with registers := fun r hr => v_assign_of_ne _ hr _ }
  case addReg | sub | subFrom | shiftRight | shiftLeft =>
    refine { hreserved with registers := fun r hr => ?_ }
    obtain ⟨hx, hflag⟩ := not_or.mp hr
    exact v_assignWithFlag_of_ne m hx hflag _ _
  case loadIndex | addIndex | loadGlyph =>
    exact { hreserved with index := fun hn => absurd (by simp) hn }
  case draw =>
    exact { hreserved with
      registers := fun r hr => v_assign_of_ne _ hr _
      screen := fun hn => absurd (by simp) hn
      drew := fun hn => absurd (by simp) hn }
  case waitKey | setDelay | setSound => exact { hreserved with }
  case storeDigits =>
    refine { hreserved with memory := fun a ha => ?_ }
    have hcell (k : Nat) (hk : k < 3) (memory : Memory) (value : Int) :
        (memory.write (m.index + k) value).read a = memory.read a :=
      memory.read_write_of_ne (Memory.not_within_iff.mp ha k hk) value
    have hfirst := hcell 0 (by decide) m.memory
    rw [Int.natCast_zero, Int.add_zero] at hfirst
    exact ((hcell 2 (by decide) _ _).trans (hcell 1 (by decide) _ _)).trans (hfirst _)
  case storeRegs =>
    refine { hreserved with memory := fun a ha => ?_ }
    refine Memory.read_foldl_write_of_ne _ (fun k : Fin 16 => m.index + k.val) m.v fun k hk => ?_
    exact Memory.not_within_iff.mp ha k (Nat.lt_succ_of_le (mem_registersTo.mp hk))
  case loadRegs =>
    refine { hreserved with registers := fun r hr => ?_ }
    exact Registers.read_foldl_write_of_not_mem _ _ (mt mem_registersTo.mp hr)

/-! ### What is asked -/

/-- Two surroundings give the same answers to all that an instruction asks. -/
structure AnswersAlike (m : Machine) (i : Instruction) (env env' : Surroundings) : Prop where
  held : i.operation ∈ Operation.asks →
    env'.keys.held (m.v i.x % 16) = env.keys.held (m.v i.x % 16)
  random : i.operation = .random → env'.random m.randoms = env.random m.randoms

/-- An instruction hangs on nothing outside the machine but the answers that it asks for. -/
theorem execute_of_answersAlike {m : Machine} {i : Instruction} {env env' : Surroundings}
    (h : m.AnswersAlike i env env') :
    m.execute env'.keys env'.random i = m.execute env.keys env.random i := by
  obtain ⟨operation, opcode⟩ := i
  unfold execute
  cases operation
  case skipPressed | skipReleased =>
    simp only [h.held (by simp [Operation.asks])]
  case random =>
    simp only [assignRandom, h.random rfl]
  all_goals rfl

/-! ### An instruction as a whole -/

/-- An instruction that completes stays inside its footprint; one that is refused, a call on a full
stack or a return on an empty one, leaves the machine as it was; and either learns from outside no
more than it asks for. -/
theorem perform_footprint (m : Machine) (tracing : Bool) (env : Surroundings) (i : Instruction) :
    let o := m.perform tracing env i
    (o.failure = none → m.Footprint i o.machine) ∧
      (o.failure ≠ none → o.machine = m ∧
        (i.operation = .call ∧ m.stack.used = m.stack.slots.length ∨
          i.operation = .ret ∧ m.stack.used = 0)) ∧
      ∀ env', m.AnswersAlike i env env' → m.perform tracing env' i = o := by
  intro o
  have hasked : ∀ env', m.AnswersAlike i env env' → m.perform tracing env' i = o := by
    intro env' halike
    simp only [o, perform, execute_of_answersAlike halike]
  refine and_assoc.mp ⟨?_, hasked⟩
  rcases hexec : m.execute env.keys env.random i with f | m'
  · have ho : o = ⟨m, m.trace tracing i, some (.fault f)⟩ := by
      simp only [o, perform, hexec]
      rfl
    rw [ho]
    have hrefused := execute_error_iff.mp hexec
    refine ⟨fun h => absurd h (Option.some_ne_none _), fun _ => ⟨rfl, ?_⟩⟩
    exact hrefused.imp (fun h => ⟨h.1, h.2.1⟩) (fun h => ⟨h.1, h.2.1⟩)
  · have ho : o = ⟨m', m.trace tracing i, none⟩ := by
      simp only [o, perform, hexec]
      rfl
    rw [ho]
    exact ⟨fun _ => execute_footprint hexec, fun h => absurd rfl h⟩

/-- A machine just switched on with I at the last cell. -/
def atLastCell : Machine := (start 0).serve [.execute 0xAFFF false (holding [])]

/-- Three digits from the last cell on go into the first two cells and not into the third, whatever
keys are held; and a return finds nothing to return to. -/
theorem perform_footprint_last :
    (atLastCell.perform false (holding []) ⟨.storeDigits, 0xF033⟩).machine.memory.read 2 =
        atLastCell.memory.read 2 ∧
      atLastCell.perform false (holding [7]) ⟨.storeDigits, 0xF033⟩ =
        atLastCell.perform false (holding []) ⟨.storeDigits, 0xF033⟩ ∧
      (atLastCell.perform false (holding []) ⟨.ret, 0x00EE⟩).machine = atLastCell := by
  obtain ⟨hkept, -, hasked⟩ :=
    perform_footprint atLastCell false (holding []) ⟨.storeDigits, 0xF033⟩
  obtain ⟨-, hrefused, -⟩ := perform_footprint atLastCell false (holding []) ⟨.ret, 0x00EE⟩
  have hindex : atLastCell.index = 0xFFF := by decide +kernel
  refine ⟨(hkept rfl).memory 2 ?_, hasked _ ⟨nofun, nofun⟩, (hrefused ?_).1⟩
  · rw [hindex, Memory.not_within_iff]
    decide
  · decide +kernel

end Machine

end ChipEight
