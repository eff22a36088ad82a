import ChipEight.Proofs.Footprint

/-!
Where a program goes on. Every instruction is carried out with the program counter behind it, and
most leave it there. Jumps, calls and returns put another address in its place; a skip moves it on
by one more instruction if its condition holds. `Leads` says so for each operation, of an
instruction alone (`execute_leads`) and of the cycle that gets to it (`cycle_leads`), where an
awaited key is in its register by then. The skips come in pairs with opposite conditions, so that of
two cycles that differ in this alone exactly one skips.
-/

namespace ChipEight

/-- Two instructions skip under opposite conditions on the same operands. -/
def Instruction.Opposes (i j : Instruction) : Prop :=
  match i.operation, j.operation with
  | .skipEqByte, .skipNeByte => i.x = j.x ∧ i.kk = j.kk
  | .skipEqReg, .skipNeReg => i.x = j.x ∧ i.y = j.y
  | .skipPressed, .skipReleased => i.x = j.x
  | _, _ => False

theorem Instruction.Opposes.mem_skips {i j : Instruction} (h : i.Opposes j) :
    i.operation ∈ Operation.skips ∧ j.operation ∈ Operation.skips := by
  unfold Opposes at h
  split at h
  case h_4 => cases h
  all_goals
    rename_i hi hj
    rw [hi, hj]
    decide

namespace Machine

variable {m m' : Machine} {i j : Instruction} {keys : Keys}

/-! ### Conditions -/

/-- The condition of a skip holds of the registers and of the keys that are held. -/
def Skips (m : Machine) (keys : Keys) (i : Instruction) : Prop :=
  match i.operation with
  | .skipEqByte => m.v i.x = i.kk
  | .skipNeByte => m.v i.x ≠ i.kk
  | .skipEqReg => m.v i.x = m.v i.y
  | .skipNeReg => m.v i.x ≠ m.v i.y
  | .skipPressed => keys.held (m.v i.x % 16) = true
  | .skipReleased => keys.held (m.v i.x % 16) = false
  | _ => False

/-- The other condition is the negation. -/
theorem skips_iff_not (h : i.Opposes j) (hv : ∀ r, m'.v r = m.v r) :
    m'.Skips keys j ↔ ¬ m.Skips keys i := by
  unfold Instruction.Opposes at h
  split at h
  case h_1 hi hj =>
    obtain ⟨hx, hkk⟩ := h
    simp only [Skips, hi, hj, hv, hx, hkk, ne_eq]
  case h_2 hi hj =>
    obtain ⟨hx, hy⟩ := h
    simp only [Skips, hi, hj, hv, hx, hy, ne_eq]
  case h_3 hi hj =>
    simp only [Skips, hi, hj, hv, h, Bool.not_eq_true]
  case h_4 => cases h

/-! ### One instruction -/

/-- An instruction that has been fetched at `p` leads to `next`. -/
def Leads (m : Machine) (keys : Keys) (i : Instruction) (p next : Int) : Prop :=
  match i.operation with
  | .jump | .call => next = i.nnn
  | .jumpOffset => next = (i.nnn + m.v Registers.firstNumber) % 65536
  | .ret => m.stack.addresses.getLast? = some next
  | _ =>
      (m.Skips keys i → next = (p + 4) % 65536) ∧ (¬ m.Skips keys i → next = (p + 2) % 65536)

theorem Leads.of_mem_skips {p next : Int} (h : m.Leads keys i p next)
    (hi : i.operation ∈ Operation.skips) :
    (m.Skips keys i → next = (p + 4) % 65536) ∧ (¬ m.Skips keys i → next = (p + 2) % 65536) := by
  obtain ⟨operation, opcode⟩ := i
  simp only [Operation.skips, List.mem_cons, List.not_mem_nil, or_false] at hi
  rcases hi with rfl | rfl | rfl | rfl | rfl | rfl <;> exact h

theorem pc_skipIf {p : Int} (hpc : m.pc = (p + 2) % 65536) {condition : Bool} {P : Prop}
    (hP : P ↔ condition = true) :
    (P → (m.skipIf condition).pc = (p + 4) % 65536) ∧
      (¬ P → (m.skipIf condition).pc = (p + 2) % 65536) := by
  cases condition with
  | false => exact ⟨fun h => absurd (hP.mp h) nofun, fun _ => hpc⟩
  | true =>
    refine ⟨fun _ => ?_, fun h => absurd (hP.mpr rfl) h⟩
    change (m.pc + 2) % 65536 = _
    rw [hpc]
    omega

/-- An instruction that completes, the program counter behind it, leads where it should. -/
theorem execute_leads {p : Int} (hpc : m.pc = (p + 2) % 65536) {random : Nat → Int}
    (h : m.execute keys random i = .ok m') : m.Leads keys i p m'.pc := by
  obtain ⟨operation, opcode⟩ := i
  unfold execute at h
  cases operation <;> dsimp only at h
  case ret =>
    rcases hpop : m.stack.pop with f | ⟨address, stack⟩
    · rw [hpop] at h; cases h
    · rw [hpop] at h
      cases h
      rw [Leads, (Stack.addresses_pop hpop).1, List.getLast?_concat]
  case call =>
    rcases hpush : m.stack.push m.pc with f | stack
    · rw [hpush] at h; cases h
    · rw [hpush] at h
      cases h
      rfl
  all_goals cases h
  case skipEqByte | skipNeByte | skipEqReg | skipNeReg | skipPressed | skipReleased =>
    exact pc_skipIf hpc (by simp [Skips])
  case jump | jumpOffset => rfl
  all_goals exact ⟨nofun, fun _ => hpc⟩

/-! ### A cycle -/

section

variable {env : Surroundings} {tracing : Bool}

/-- Another memory is all that an instruction finds changed where the memory is another one. -/
theorem poised_withMemory (m : Machine) (memory : Memory) (env : Surroundings) :
    (({ m with memory := memory }).ticked env.now).poised env.keys =
      { (m.ticked env.now).poised env.keys with memory := memory } := by
  have hkey : (({ m with memory := memory }).ticked env.now).awaitedKey env.keys =
      (m.ticked env.now).awaitedKey env.keys := rfl
  rw [poised, poised, hkey]
  rcases (m.ticked env.now).awaitedKey env.keys with _ | key <;> rfl

theorem execute_of_failure_none (h : m.performed env = some i)
    (hdone : (m.cycle tracing env).failure = none) :
    ∃ m', ((m.ticked env.now).poised env.keys).execute env.keys env.random i = .ok m' ∧
      (m.cycle tracing env).machine.pc = m'.pc := by
  obtain ⟨b, hcycle⟩ := cycle_of_performed h tracing
  rw [hcycle] at hdone ⊢
  unfold perform at hdone ⊢
  rcases hexec : ((m.ticked env.now).poised env.keys).execute env.keys env.random i with f | m'
  · rw [hexec] at hdone
    cases hdone
  · exact ⟨m', rfl, rfl⟩

/-- A skip cannot be refused. -/
theorem failure_of_mem_skips (h : m.performed env = some i) (hi : i.operation ∈ Operation.skips)
    (tracing : Bool) : (m.cycle tracing env).failure = none := by
  obtain ⟨b, hcycle⟩ := cycle_of_performed h tracing
  rw [hcycle, perform]
  rcases hexec : ((m.ticked env.now).poised env.keys).execute env.keys env.random i with f | m'
  · rcases execute_error_iff.mp hexec with ⟨hop, -⟩ | ⟨hop, -⟩ <;>
      simp [hop, Operation.skips] at hi
  · rfl

/-- A cycle that completes an instruction leads where the instruction should. Had another memory
given it the opposite skip, one of the two would have skipped and the other one not. -/
theorem cycle_leads (h : m.performed env = some i)
    (hdone : (m.cycle tracing env).failure = none) :
    ((m.ticked env.now).poised env.keys).Leads env.keys i m.pc (m.cycle tracing env).machine.pc ∧
      ∀ (memory : Memory) (j : Instruction), i.Opposes j →
        ({ m with memory := memory }).performed env = some j →
        let next := (m.cycle tracing env).machine.pc
        let next' := (({ m with memory := memory }).cycle tracing env).machine.pc
        next = (m.pc + 4) % 65536 ∧ next' = (m.pc + 2) % 65536 ∨
          next = (m.pc + 2) % 65536 ∧ next' = (m.pc + 4) % 65536 := by
  have hleads {n : Machine} {k : Instruction} (hk : n.performed env = some k)
      (hn : (n.cycle tracing env).failure = none) :
      ((n.ticked env.now).poised env.keys).Leads env.keys k n.pc
        (n.cycle tracing env).machine.pc := by
    obtain ⟨n', hexec, hpc⟩ := execute_of_failure_none hk hn
    rw [hpc]
    exact execute_leads (poised_pc _ _) hexec
  refine ⟨hleads h hdone, fun memory j hij hj => ?_⟩
  obtain ⟨hi, hskip⟩ := hij.mem_skips
  obtain ⟨htaken, hpassed⟩ := (hleads h hdone).of_mem_skips hi
  obtain ⟨htaken', hpassed'⟩ :=
    (hleads hj (failure_of_mem_skips hj hskip tracing)).of_mem_skips hskip
  rw [poised_withMemory, skips_iff_not hij fun _ => rfl] at htaken' hpassed'
  by_cases hcondition : ((m.ticked env.now).poised env.keys).Skips env.keys i
  · exact .inl ⟨htaken hcondition, hpassed' (not_not_intro hcondition)⟩
  · exact .inr ⟨hpassed hcondition, htaken' hcondition⟩

/-- A key that is awaited for V0, and behind it a skip on V0 equal to five. -/
theorem cycle_leads_awaiting :
    ((awaiting [0x30, 0x05]).cycle false (holding [5])).machine.pc = 0x206 ∧
      (({ awaiting [0x30, 0x05] with memory := (awaiting [0x40, 0x05]).memory }).cycle false
        (holding [5])).machine.pc = 0x204 := by
  have hperformed : (awaiting [0x30, 0x05]).performed (holding [5]) =
      some ⟨.skipEqByte, 0x3005⟩ := by
    decide +kernel
  have hdone : ((awaiting [0x30, 0x05]).cycle false (holding [5])).failure = none := by
    decide +kernel
  have hopposite : ({ awaiting [0x30, 0x05] with
      memory := (awaiting [0x40, 0x05]).memory }).performed (holding [5]) =
        some ⟨.skipNeByte, 0x4005⟩ := by
    decide +kernel
  have hopposes : Instruction.Opposes ⟨.skipEqByte, 0x3005⟩ ⟨.skipNeByte, 0x4005⟩ :=
    ⟨by decide, by decide⟩
  have hpc : (awaiting [0x30, 0x05]).pc = 0x202 := by decide +kernel
  obtain ⟨⟨hskips, -⟩, hpair⟩ := cycle_leads hperformed hdone
  have hnext := hskips (show _ = _ by decide +kernel)
  rw [hpc] at hnext
  refine ⟨hnext, ?_⟩
  rcases hpair _ _ hopposes hopposite with ⟨-, hother⟩ | ⟨hnot, -⟩
  · rw [hother, hpc]
    rfl
  · rw [hnext, hpc] at hnot
    cases hnot

end

end Machine

end ChipEight
