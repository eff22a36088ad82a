import Mathlib.Data.Int.ModEq
import Mathlib.Data.List.Forall2
import ChipEight.Proofs.Faults
import ChipEight.Proofs.Randoms

/-!
Addresses count modulo 4096. The program counter, the index register and the return addresses are
kept in more bits than memory has cells, here and there inside sixteen bits, but nothing that a
machine does depends on more of them than the cell they mean. `Congruent` relates machines that
differ in the rest alone; each kind of change keeps the relation, hence so do instructions, cycles
and cycles in a row (`outcomes_congruent`).
-/

namespace ChipEight

/-- Bringing an address inside sixteen bits leaves its cell. -/
theorem emod_word_modEq (a : Int) : a % 65536 ≡ a [ZMOD 4096] := Int.emod_emod_of_dvd a (by decide)

/-! ### Memory -/

namespace Memory

variable {a b : Int}

theorem cell_congr (h : a ≡ b [ZMOD 4096]) : cell a = cell b :=
  Fin.ext (congrArg Int.toNat h)

theorem read_congr (m : Memory) (h : a ≡ b [ZMOD 4096]) : m.read a = m.read b := by
  simp only [read, cell_congr h]

theorem write_congr (m : Memory) (h : a ≡ b [ZMOD 4096]) (v : Int) : m.write a v = m.write b v := by
  simp only [write, cell_congr h]

theorem window_congr (m : Memory) (h : a ≡ b [ZMOD 4096]) (n : Nat) : m.window a n = m.window b n :=
  List.map_congr_left fun k _ => m.read_congr (h.add_right k)

end Memory

/-! ### The stack -/

namespace Stack

/-- Stacks with room for as many addresses that hold as many, each pair of them for one cell. -/
structure Congruent (s s' : Stack) : Prop where
  room : s.slots.length = s'.slots.length
  addresses : List.Forall₂ (· ≡ · [ZMOD 4096]) s.addresses s'.addresses

namespace Congruent

variable {s s' : Stack}

theorem used (h : s.Congruent s') : s.used = s'.used := by
  rw [← length_addresses, ← length_addresses]
  exact h.addresses.length_eq

/-- Both stacks take an address, or both are full. -/
theorem push (h : s.Congruent s') {a b : Int} (hab : a ≡ b [ZMOD 4096]) :
    (∃ f, s.push a = .error f ∧ s'.push b = .error f) ∨
    ∃ t t', s.push a = .ok t ∧ s'.push b = .ok t' ∧ t.Congruent t' := by
  have hused := h.used
  have hroom := h.room
  rcases s.push_cases a with ⟨t, ht, hlt, -, -⟩ | ⟨he, hfull⟩
  · obtain ⟨t', ht', -, -⟩ := push_of_lt (s := s') (by omega) b
    obtain ⟨hview, hslots⟩ := addresses_push ht
    obtain ⟨hview', hslots'⟩ := addresses_push ht'
    refine .inr ⟨t, t', ht, ht', by omega, ?_⟩
    rw [hview, hview']
    exact List.rel_append h.addresses (.cons hab .nil)
  · refine .inl ⟨_, he, ?_⟩
    rw [hroom]
    exact push_of_full (by omega) b

/-- Both stacks give an address back, or both are empty. -/
theorem pop (h : s.Congruent s') :
    (∃ f, s.pop = .error f ∧ s'.pop = .error f) ∨
    ∃ a b t t', s.pop = .ok (a, t) ∧ s'.pop = .ok (b, t') ∧ a ≡ b [ZMOD 4096] ∧ t.Congruent t' := by
  have hused := h.used
  have hroom := h.room
  rcases s.pop_cases with ⟨a, t, ht, hpos, -⟩ | ⟨he, hzero⟩
  · rcases s'.pop_cases with ⟨b, t', ht', -⟩ | ⟨-, hzero'⟩
    · obtain ⟨hview, hslots⟩ := addresses_pop ht
      obtain ⟨hview', hslots'⟩ := addresses_pop ht'
      have hpair := h.addresses
      rw [hview, hview', ← List.forall₂_reverse_iff, List.reverse_append, List.reverse_append]
        at hpair
      cases hpair with
      | cons hab hrest =>
        exact .inr ⟨a, b, t, t', ht, ht', hab, by omega, List.forall₂_reverse_iff.mp hrest⟩
    · omega
  · refine .inl ⟨_, he, ?_⟩
    exact pop_error_iff.mpr ⟨by omega, rfl⟩

end Congruent

end Stack

namespace Machine

/-- The machines differ at most in the bits of addresses that mean no cell: those of the program
counter, of the index register and of the return addresses. -/
inductive Congruent (m : Machine) : Machine → Prop
  | mk {pc index : Int} {stack : Stack} (hpc : m.pc ≡ pc [ZMOD 4096])
      (hindex : m.index ≡ index [ZMOD 4096]) (hstack : m.stack.Congruent stack) :
      Congruent m { m with pc := pc, index := index, stack := stack }

namespace Congruent

variable {m m' : Machine}

/-! ### One lemma for each kind of change -/

theorem fetch (h : m.Congruent m') : m.fetch = m'.fetch := by
  obtain ⟨hpc, -, -⟩ := h
  unfold Machine.fetch
  rw [m.memory.read_congr hpc, m.memory.read_congr (hpc.add_right 1)]

theorem advance (h : m.Congruent m') : m.advance.Congruent m'.advance := by
  obtain ⟨hpc, hindex, hstack⟩ := h
  refine .mk ?_ hindex hstack
  exact (emod_word_modEq _).trans ((hpc.add_right 2).trans (emod_word_modEq _).symm)

theorem skipIf (h : m.Congruent m') (condition : Bool) :
    (m.skipIf condition).Congruent (m'.skipIf condition) := by
  cases condition with
  | false => exact h
  | true => exact h.advance

theorem drawSprite (h : m.Congruent m') (x y : Fin 16) (n : Nat) :
    (m.drawSprite x y n).Congruent (m'.drawSprite x y n) := by
  obtain ⟨hpc, hindex, hstack⟩ := h
  unfold Machine.drawSprite
  rw [m.memory.window_congr hindex]
  exact .mk hpc hindex hstack

theorem storeDigits (h : m.Congruent m') (value : Int) :
    (m.storeDigits value).Congruent (m'.storeDigits value) := by
  obtain ⟨hpc, hindex, hstack⟩ := h
  unfold Machine.storeDigits
  simp only [Memory.write_congr _ hindex, Memory.write_congr _ (hindex.add_right _)]
  exact .mk hpc hindex hstack

theorem storeRegisters (h : m.Congruent m') (x : Fin 16) :
    (m.storeRegisters x).Congruent (m'.storeRegisters x) := by
  obtain ⟨hpc, hindex, hstack⟩ := h
  unfold Machine.storeRegisters
  simp only [Memory.write_congr _ (hindex.add_right _)]
  exact .mk hpc hindex hstack

theorem loadRegisters (h : m.Congruent m') (x : Fin 16) :
    (m.loadRegisters x).Congruent (m'.loadRegisters x) := by
  obtain ⟨hpc, hindex, hstack⟩ := h
  unfold Machine.loadRegisters
  simp only [m.memory.read_congr (hindex.add_right _)]
  exact .mk hpc hindex hstack

theorem gateBuzzer (h : m.Congruent m') : m.gateBuzzer.Congruent m'.gateBuzzer := by
  obtain ⟨hpc, hindex, hstack⟩ := h
  exact .mk hpc hindex hstack

theorem ticked (h : m.Congruent m') (now : Float) : (m.ticked now).Congruent (m'.ticked now) := by
  obtain ⟨hpc, hindex, hstack⟩ := h
  exact .mk hpc hindex hstack

theorem resume (h : m.Congruent m') (key : Option Int) :
    (m.resume key).Congruent (m'.resume key) := by
  cases key with
  | none => exact h
  | some key =>
    obtain ⟨hpc, hindex, hstack⟩ := h
    exact .mk hpc hindex hstack

theorem poised (h : m.Congruent m') (keys : Keys) : (m.poised keys).Congruent (m'.poised keys) := by
  have hkey : m.awaitedKey keys = m'.awaitedKey keys := by
    obtain ⟨-, -, -⟩ := h
    rfl
  unfold Machine.poised
  rw [← hkey]
  exact (h.resume _).advance

/-! ### Instructions and cycles -/

/-- An instruction ends alike on both machines. -/
theorem execute (h : m.Congruent m') (keys : Keys) (random : Nat → Int) (i : Instruction) :
    Matched Congruent (m.execute keys random i) (m'.execute keys random i) := by
  have hv (x : Fin 16) : m.v x = m'.v x := by
    obtain ⟨-, -, -⟩ := h
    rfl
  unfold Machine.execute
  simp only [← hv]
  cases i.operation
  case skipEqByte | skipNeByte | skipEqReg | skipNeReg | skipPressed | skipReleased =>
    exact .completes (h.skipIf _)
  case draw => exact .completes (h.drawSprite _ _ _)
  case storeDigits => exact .completes (h.storeDigits _)
  case storeRegs => exact .completes (h.storeRegisters _)
  case loadRegs => exact .completes (h.loadRegisters _)
  all_goals obtain ⟨hpc, hindex, hstack⟩ := h
  case ret =>
    rcases hstack.pop with ⟨f, he, he'⟩ | ⟨a, b, t, t', ht, ht', hab, htt⟩
    · rw [he, he']
      exact .faults f
    · rw [ht, ht']
      exact .completes (.mk hab hindex htt)
  case call =>
    rcases hstack.push hpc with ⟨f, he, he'⟩ | ⟨t, t', ht, ht', htt⟩
    · rw [he, he']
      exact .faults f
    · rw [ht, ht']
      exact .completes (.mk rfl hindex htt)
  case jump | jumpOffset => exact .completes (.mk rfl hindex hstack)
  case loadIndex | loadGlyph => exact .completes (.mk hpc rfl hstack)
  case addIndex =>
    refine .completes (.mk hpc ?_ hstack)
    exact (emod_word_modEq _).trans ((hindex.add_right _).trans (emod_word_modEq _).symm)
  all_goals exact .completes (.mk hpc hindex hstack)

/-- A cycle ends alike on both machines. -/
theorem cycle (h : m.Congruent m') (tracing : Bool) (env : Surroundings) :
    (m.cycle tracing env).failure = (m'.cycle tracing env).failure ∧
      (m.cycle tracing env).machine.Congruent (m'.cycle tracing env).machine := by
  have hticked := h.ticked env.now
  have hpoised := hticked.poised env.keys
  refine cycle_matched ?_ ?_ h.fetch hticked hpoised (fun i _ => hpoised.execute ..)
    (fun _ _ hn => hn.gateBuzzer)
  · obtain ⟨-, -, -⟩ := h
    exact fun f => Iff.rfl
  · obtain ⟨-, -, -⟩ := h
    exact Iff.rfl

/-- Cycles in a row end alike on both machines, one by one. -/
theorem outcomes (h : m.Congruent m') (tracing : Bool) (envs : List Surroundings) :
    List.Forall₂ (fun o o' => o.failure = o'.failure ∧ o.machine.Congruent o'.machine)
      (m.outcomes tracing envs) (m'.outcomes tracing envs) := by
  induction envs generalizing m m' with
  | nil => exact .nil
  | cons env envs ih =>
    have hcycle := h.cycle tracing env
    exact .cons hcycle (ih hcycle.2)

end Congruent

/-- Wherever two congruent machines stand in their sequences of random numbers, cycles in a row that
hear the same clock, the same keys and the same numbers fail alike and leave congruent machines. -/
theorem outcomes_congruent {m m' : Machine}
    (h : (m.since m.randoms).Congruent (m'.since m'.randoms)) (tracing : Bool)
    (envs : List Surroundings) :
    List.Forall₂
      (fun o o' => o.failure = o'.failure ∧
        (o.machine.since m.randoms).Congruent (o'.machine.since m'.randoms))
      (m.outcomes tracing (envs.map (·.after m.randoms)))
      (m'.outcomes tracing (envs.map (·.after m'.randoms))) := by
  have hshift (m : Machine) : m.outcomes tracing (envs.map (·.after m.randoms)) =
      ((m.since m.randoms).outcomes tracing envs).map (·.shift m.randoms) := by
    rw [← outcomes_shift, shift_since]
  rw [hshift m, hshift m', List.forall₂_map_left_iff, List.forall₂_map_right_iff]
  refine (h.outcomes tracing envs).imp fun o o' ho => ?_
  simpa only [Outcome.shift, since_shift] using ho

/-- The machine with its program counter and index register brought inside sixteen bits. -/
def wrapped (m : Machine) : Machine := { m with pc := m.pc % 65536, index := m.index % 65536 }

/-- No cycle can tell whether the program counter and the index register wrap around. -/
theorem congruent_wrapped (m : Machine) : m.Congruent m.wrapped := by
  refine .mk (emod_word_modEq _).symm (emod_word_modEq _).symm { room := rfl, addresses := ?_ }
  exact List.forall₂_same.mpr fun a _ => .refl a

/-- A machine that has left sixteen bits behind and has used a random number more than the one it is
compared with. It is about to store digits across the end of memory, to call and to return. -/
def adrift : Machine :=
  { given [0xF0, 0x33, 0x22, 0x04, 0x00, 0xEE] with pc := 0x10200, index := 0x10FFF, randoms := 1 }

theorem outcomes_congruent_adrift :
    adrift.pc ≠ adrift.wrapped.pc ∧ adrift.index ≠ adrift.wrapped.index ∧
      List.Forall₂
        (fun o o' => o.failure = o'.failure ∧
          (o.machine.since 1).Congruent (o'.machine.since 0))
        (adrift.outcomes false ([holding [], holding [], holding []].map (·.after 1)))
        ((adrift.since 1).wrapped.outcomes false
          ([holding [], holding [], holding []].map (·.after 0))) := by
  have hcongruent : (adrift.since 1).Congruent ((adrift.since 1).wrapped.since 0) :=
    congruent_wrapped _
  exact ⟨by decide, by decide, outcomes_congruent hcongruent false _⟩

end Machine

end ChipEight
