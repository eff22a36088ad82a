import ChipEight.Proofs.Faults
import ChipEight.Proofs.Hexadecimal

/-!
The line that a cycle prints when tracing is on. The address in it is worked out from the program
counter after that has moved on, two below it. The counter wraps around at sixteen bits, and the
subtraction does not, so the line names the address of the instruction everywhere but in the last
two places, where it shows a negative number instead (`cycle_names_address_iff`).
-/

namespace ChipEight.Machine

/-- The line that announces an instruction under an address. -/
def lineAt (address : String) (i : Instruction) : String :=
  "mem_addr: 0x" ++ address ++ "    instruction: " ++ i.assembly

theorem lineAt_inj {address address' : String} {i : Instruction} :
    lineAt address i = lineAt address' i ↔ address = address' := by
  simp [lineAt, String.append_assoc]

section

variable {m : Machine} {env : Surroundings} {i : Instruction}

/-- A traced cycle prints one line for the instruction it gets to, completed or not. -/
theorem printed_cycle (h : m.performed env = some i) :
    (m.cycle true env).printed = [lineAt (Hex.padded 4 ((m.pc + 2) % 65536 - 2)) i] := by
  obtain ⟨b, hcycle⟩ := cycle_of_performed h true
  have hpc : ((m.ticked env.now).poised env.keys).pc = (m.pc + 2) % 65536 := poised_pc _ _
  rw [hcycle, ← hpc]
  change (((m.ticked env.now).poised env.keys).perform true env i).printed = _
  rw [perform]
  rcases ((m.ticked env.now).poised env.keys).execute env.keys env.random i with f | m' <;> rfl

theorem printed_cycle_of_lt (hword : IsWord m.pc) (hlt : m.pc < 0xFFFE)
    (h : m.performed env = some i) :
    (m.cycle true env).printed = [lineAt (Hex.fixed 4 m.pc) i] := by
  obtain ⟨hpos, hle⟩ := hword
  have hback : (m.pc + 2) % 65536 - 2 = m.pc := by omega
  have hwidth : (0 : Int) ≤ m.pc ∧ m.pc < 16 ^ 4 := by omega
  rw [printed_cycle h, hback, Hex.padded_eq_fixed (by decide) hwidth]

/-- Where the program counter wraps around, the address comes out below zero. -/
theorem printed_cycle_of_wrap (h : m.performed env = some i) :
    (m.pc = 0xFFFE → (m.cycle true env).printed = [lineAt "-002" i]) ∧
      (m.pc = 0xFFFF → (m.cycle true env).printed = [lineAt "-001" i]) := by
  constructor <;>
  · intro hpc
    rw [printed_cycle h, hpc]
    rfl

/-- A traced cycle names the address its instruction came from exactly if the instruction does not
stand in the last two places. There the line shows -2 and -1. -/
theorem cycle_names_address_iff (hm : m.Reachable) (h : m.performed env = some i) :
    decode m.fetch = some i ∧
      ((m.cycle true env).printed = [lineAt (Hex.fixed 4 m.pc) i] ↔ m.pc < 0xFFFE) ∧
      (m.pc = 0xFFFE → (m.cycle true env).printed = [lineAt "-002" i]) ∧
      (m.pc = 0xFFFF → (m.cycle true env).printed = [lineAt "-001" i]) := by
  have hword := hm.inBounds.pc
  obtain ⟨hlast, hodd⟩ := printed_cycle_of_wrap h
  refine ⟨(performed_eq_some_iff.mp h).2.2, ⟨fun hline => ?_, ?_⟩, hlast, hodd⟩
  · have hplace : m.pc < 0xFFFE ∨ m.pc = 0xFFFE ∨ m.pc = 0xFFFF := by
      have := hword.2
      omega
    rcases hplace with hlt | hpc | hpc
    · exact hlt
    · rw [hlast hpc, List.singleton_inj, lineAt_inj, hpc] at hline
      exact absurd hline (by decide)
    · rw [hodd hpc, List.singleton_inj, lineAt_inj, hpc] at hline
      exact absurd hline (by decide)
  · intro hlt
    exact printed_cycle_of_lt hword hlt h

theorem cycle_names_address_given :
    (given [0x60, 0x05]).performed (holding []) = some ⟨.loadByte, 0x6005⟩ ∧
      ((given [0x60, 0x05]).cycle true (holding [])).printed =
        ["mem_addr: 0x0200    instruction: LD V0, 0x05"] := by
  have hperformed : (given [0x60, 0x05]).performed (holding []) = some ⟨.loadByte, 0x6005⟩ := by
    decide +kernel
  have hpc : (given [0x60, 0x05]).pc = 0x200 := by decide +kernel
  have hreach : (given [0x60, 0x05]).Reachable := ⟨0, _, rfl⟩
  obtain ⟨-, hline, -, -⟩ := cycle_names_address_iff hreach hperformed
  have hlow : (given [0x60, 0x05]).pc < 0xFFFE := by
    rw [hpc]
    decide
  refine ⟨hperformed, ?_⟩
  rw [hline.mpr hlow, hpc]
  decide

/-! ### The last places -/

/-- A request for one instruction that skips the next, as V0 is zero. -/
def skipping : Request := .execute 0x3000 false (holding [])

theorem respond_skipping (hzero : m.v 0 = 0) :
    m.respond skipping = { m with pc := (m.pc + 2) % 65536 } := by
  have hskip : (m.skipIf (m.v 0 == 0)) = m.advance := by
    rw [hzero]
    rfl
  exact hskip

/-- Skips in a row take the program counter anywhere. -/
theorem serve_skipping (hzero : m.v 0 = 0) (hword : IsWord m.pc) (n : Nat) :
    m.serve (List.replicate n skipping) = { m with pc := (m.pc + 2 * n) % 65536 } := by
  obtain ⟨hpos, hle⟩ := hword
  induction n with
  | zero =>
    have hpc : (m.pc + 2 * (0 : Nat)) % 65536 = m.pc := by omega
    rw [hpc]
    rfl
  | succ n ih =>
    have hpc : ((m.pc + 2 * (n : Int)) % 65536 + 2) % 65536 =
        (m.pc + 2 * ((n + 1 : Nat) : Int)) % 65536 := by omega
    have hstill : ({ m with pc := (m.pc + 2 * (n : Int)) % 65536 } : Machine).v 0 = 0 := hzero
    rw [List.replicate_succ', serve_concat, ih, respond_skipping hstill, hpc]

/-- A machine just switched on that has been made to clear the screen from the last two places of
memory, by way of V1 and I. -/
def clearing : Machine :=
  (start 0).serve [.execute 0x61E0 false (holding []), .execute 0xAFFE false (holding []),
    .execute 0xF155 false (holding [])]

/-- The program counter stands in the last place but one, at the instruction 00E0. -/
def atWrap : Machine := clearing.serve (List.replicate 32511 skipping)

theorem atWrap_eq : atWrap = { clearing with pc := 0xFFFE } := by
  have hzero : clearing.v 0 = 0 := by decide +kernel
  have hpc : clearing.pc = 0x200 := by decide +kernel
  have hword : IsWord clearing.pc := by
    rw [hpc]
    decide
  rw [atWrap, serve_skipping hzero hword, hpc]
  rfl

/-- In the last place but one the line does not name the address. -/
theorem atWrap_not_named :
    atWrap.Reachable ∧ atWrap.pc = 0xFFFE ∧
      atWrap.performed (holding []) = some ⟨.clear, 0x00E0⟩ ∧
      (atWrap.cycle true (holding [])).printed = ["mem_addr: 0x-002    instruction: CLS"] ∧
      (atWrap.cycle true (holding [])).printed ≠ ["mem_addr: 0xfffe    instruction: CLS"] := by
  have hreach : atWrap.Reachable := Reachable.serve ⟨0, _, rfl⟩ _
  have hpc : atWrap.pc = 0xFFFE := by
    rw [atWrap_eq]
  have hperformed : atWrap.performed (holding []) = some ⟨.clear, 0x00E0⟩ := by
    rw [atWrap_eq]
    decide +kernel
  have hprinted : (atWrap.cycle true (holding [])).printed =
      ["mem_addr: 0x-002    instruction: CLS"] := by
    rw [printed_cycle hperformed, hpc]
    decide
  refine ⟨hreach, hpc, hperformed, hprinted, ?_⟩
  rw [hprinted]
  decide

end

end ChipEight.Machine
