import ChipEight.Proofs.Faults
import ChipEight.Proofs.Frame

/-!
Subroutines return behind their calls. A call puts the address behind itself on the stack, and no
instruction but a call and a return touches the stack at all. So while the stack stays higher than
it was before a call, the addresses up to the one that the call left are not touched either
(`take_addresses_cycles`), and the return that comes down to them finds them as they were.
-/

namespace ChipEight.Machine

section

variable {m : Machine} {tracing : Bool} {env : Surroundings}

/-! ### The lower end of the stack -/

/-- Addresses that the stack holds before and after a cycle are the same. -/
theorem take_addresses_cycle {n : Nat} (hbefore : n ≤ m.stack.used)
    (hafter : n ≤ (m.cycle tracing env).machine.stack.used) :
    (m.cycle tracing env).machine.stack.addresses.take n = m.stack.addresses.take n := by
  rw [← Stack.length_addresses] at hbefore hafter
  rcases (m.cycle_kept tracing env).addresses with heq | ⟨a, heq⟩ | ⟨a, heq⟩
  · rw [heq]
  · rw [heq, List.take_append_of_le_length hbefore]
  · rw [heq, List.take_append_of_le_length hafter]

/-- Addresses that the stack holds all along are the same in the end. -/
theorem take_addresses_cycles {n : Nat} (hbefore : n ≤ m.stack.used) {envs : List Surroundings}
    (h : ∀ o ∈ m.outcomes tracing envs, n ≤ o.machine.stack.used) :
    (m.cycles tracing envs).stack.addresses.take n = m.stack.addresses.take n := by
  induction envs generalizing m with
  | nil => rfl
  | cons env envs ih =>
    have hafter := h _ List.mem_cons_self
    rw [← take_addresses_cycle hbefore hafter]
    exact ih hafter fun o ho => h o (List.mem_cons_of_mem _ ho)

/-! ### Calls and returns -/

/-- The cycle gets as far as an instruction: the timers can count, and no key is missing. -/
structure Acts (m : Machine) (env : Surroundings) : Prop where
  clock : ∃ k, (m.timers.update env.now).2 = .ok k
  busy : ¬ m.Idle env.keys

theorem acts_iff : m.Acts env ↔ (m.timers.update env.now).2.isOk = true ∧ ¬ m.Idle env.keys := by
  constructor
  · rintro ⟨⟨k, hclock⟩, hbusy⟩
    rw [hclock]
    exact ⟨rfl, hbusy⟩
  · rintro ⟨hok, hbusy⟩
    exact ⟨exists_ok hok, hbusy⟩

instance : Decidable (m.Acts env) := decidable_of_iff _ acts_iff.symm

/-- A call with a slot to spare completes and leaves the address behind itself on the stack. -/
theorem cycle_call (tracing : Bool) (hacts : m.Acts env) (hcall : m.fetch / 4096 = 2)
    (hroom : m.stack.used < m.stack.slots.length) :
    (m.cycle tracing env).failure = none ∧
      (m.cycle tracing env).machine.stack.addresses =
        m.stack.addresses ++ [(m.pc + 2) % 65536] := by
  obtain ⟨⟨k, hclock⟩, hbusy⟩ := hacts
  have hcode := decode_of_accepts callRow_mem ((accepts_callRow_iff m.fetch_word).mpr hcall)
  obtain ⟨stack, hpush, -, -⟩ := Stack.push_of_lt hroom ((m.pc + 2) % 65536)
  have hexec : ∃ m', ((m.ticked env.now).poised env.keys).execute env.keys env.random
      ⟨.call, m.fetch⟩ = .ok m' ∧ m'.stack = stack := by
    simp only [execute, poised_stack, poised_pc]
    change ∃ m', (m.stack.push ((m.pc + 2) % 65536) >>= _) = _ ∧ _
    rw [hpush]
    exact ⟨_, rfl, rfl⟩
  obtain ⟨m', hexec, hstack⟩ := hexec
  rw [cycle_of_ok hclock, step_of_ok (m := m.ticked env.now) hbusy hcode hexec]
  refine ⟨rfl, ?_⟩
  rw [← (Stack.addresses_push hpush).1, ← hstack]
  rfl

/-- A return completes and takes the last address of the stack as the program counter. -/
theorem cycle_ret (tracing : Bool) (hacts : m.Acts env) (hret : m.fetch = 0x00EE)
    {addresses : List Int} {a : Int} (hview : m.stack.addresses = addresses ++ [a]) :
    (m.cycle tracing env).failure = none ∧ (m.cycle tracing env).machine.pc = a ∧
      (m.cycle tracing env).machine.stack.addresses = addresses := by
  obtain ⟨⟨k, hclock⟩, hbusy⟩ := hacts
  have hcode := decode_of_accepts retRow_mem ((accepts_retRow_iff m.fetch_word).mpr hret)
  rcases m.stack.pop_cases with ⟨b, stack, hpop, -⟩ | ⟨-, hzero⟩
  · obtain ⟨hrest, hb⟩ := List.append_inj' (hview.symm.trans (Stack.addresses_pop hpop).1) rfl
    obtain rfl : a = b := by simpa using hb
    have hexec : ∃ m', ((m.ticked env.now).poised env.keys).execute env.keys env.random
        ⟨.ret, m.fetch⟩ = .ok m' ∧ m'.pc = a ∧ m'.stack = stack := by
      simp only [execute, poised_stack]
      change ∃ m', (m.stack.pop >>= _) = _ ∧ _
      rw [hpop]
      exact ⟨_, rfl, rfl, rfl⟩
    obtain ⟨m', hexec, hpc, hstack⟩ := hexec
    rw [cycle_of_ok hclock, step_of_ok (m := m.ticked env.now) hbusy hcode hexec]
    refine ⟨rfl, hpc, ?_⟩
    rw [hrest, ← hstack]
    rfl
  · rw [← Stack.length_addresses, hview, List.length_append] at hzero
    exact absurd hzero (Nat.succ_ne_zero _)

/-- A subroutine that is called and gets back to its own return comes out behind the call, with the
stack as it was before, whatever the cycles in between have done higher up. -/
theorem return_behind_call (h : m.Reachable) (hroom : m.stack.used < 16) (hacts : m.Acts env)
    (hcall : m.fetch / 4096 = 2) {called : Machine}
    (hcalled : (m.cycle tracing env).machine = called) {envs : List Surroundings}
    (habove : ∀ o ∈ called.outcomes tracing envs,
      o.failure = none ∧ m.stack.used + 1 ≤ o.machine.stack.used)
    {last : Machine} (hlast : called.cycles tracing envs = last)
    (hdepth : last.stack.used = m.stack.used + 1) {env' : Surroundings} (hacts' : last.Acts env')
    (hret : last.fetch = 0x00EE) :
    (m.cycle tracing env).failure = none ∧ (last.cycle tracing env').failure = none ∧
      (last.cycle tracing env').machine.pc = (m.pc + 2) % 65536 ∧
      (last.cycle tracing env').machine.stack.used = m.stack.used ∧
      (last.cycle tracing env').machine.stack.addresses = m.stack.addresses := by
  have hslots := h.inBounds.stack.depth
  obtain ⟨hdone, hpushed⟩ := cycle_call tracing hacts hcall (by omega)
  rw [hcalled] at hpushed
  have hused : called.stack.used = m.stack.used + 1 := by
    rw [← Stack.length_addresses, hpushed, List.length_append, Stack.length_addresses]
    rfl
  have hkept := take_addresses_cycles (Nat.le_of_eq hused.symm) fun o ho => (habove o ho).2
  rw [hlast] at hkept
  have hview : last.stack.addresses = m.stack.addresses ++ [(m.pc + 2) % 65536] :=
    calc last.stack.addresses
        = last.stack.addresses.take (m.stack.used + 1) :=
          (List.take_of_length_le (by rw [Stack.length_addresses]; omega)).symm
      _ = called.stack.addresses.take (m.stack.used + 1) := hkept
      _ = called.stack.addresses := List.take_of_length_le (by rw [Stack.length_addresses]; omega)
      _ = m.stack.addresses ++ [(m.pc + 2) % 65536] := hpushed
  obtain ⟨hdone', hpc, hrest⟩ := cycle_ret tracing hacts' hret hview
  refine ⟨hdone, hdone', hpc, ?_, hrest⟩
  rw [← Stack.length_addresses, hrest, Stack.length_addresses]

/-- A call at 200 of a subroutine at 206 that calls another one at 20A. -/
def nested : Machine :=
  given [0x22, 0x06, 0x00, 0x00, 0x00, 0x00, 0x22, 0x0A, 0x00, 0xEE, 0x00, 0xEE]

theorem return_behind_call_nested :
    let called := (nested.cycle false (holding [])).machine
    let last := called.cycles false [holding [], holding []]
    nested.fetch / 4096 = 2 ∧ last.fetch = 0x00EE ∧ last.stack.used = nested.stack.used + 1 ∧
      (last.cycle false (holding [])).machine.pc = 0x202 ∧
      (last.cycle false (holding [])).machine.stack.addresses = nested.stack.addresses := by
  intro called last
  have hcalled : (nested.cycle false (holding [])).machine = called := rfl
  have hlast : called.cycles false [holding [], holding []] = last := rfl
  have hreach : nested.Reachable := ⟨0, _, rfl⟩
  have hacts : nested.Acts (holding []) := by decide +kernel
  have hcall : nested.fetch / 4096 = 2 := by decide +kernel
  have habove : ∀ o ∈ called.outcomes false [holding [], holding []],
      o.failure = none ∧ nested.stack.used + 1 ≤ o.machine.stack.used := by decide +kernel
  have hdepth : last.stack.used = nested.stack.used + 1 := by decide +kernel
  have hacts' : last.Acts (holding []) := by decide +kernel
  have hret : last.fetch = 0x00EE := by decide +kernel
  have hroom : nested.stack.used < 16 := by decide +kernel
  have hbehind : (nested.pc + 2) % 65536 = 0x202 := by decide +kernel
  obtain ⟨-, -, hpc, -, haddresses⟩ :=
    return_behind_call hreach hroom hacts hcall hcalled habove hlast hdepth hacts' hret
  exact ⟨hcall, hret, hdepth, hpc.trans hbehind, haddresses⟩

end

end ChipEight.Machine
