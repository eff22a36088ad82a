import ChipEight.Machine.Cycle

/-!
The ways a cycle can go. There are five: the timers cannot count with the clock, the machine stays
idle, the opcode is no instruction, the instruction faults, or it completes. `Ran` lists them with
what each of them needs and leaves behind, and `cycle_ran` says that every cycle goes one of these
ways; nothing later opens `cycle` again.
-/

namespace ChipEight.Machine

/-- The machine once its timers have been brought up to date, nothing drawn yet. -/
def ticked (m : Machine) (now : Float) : Machine :=
  { m with drew := false, timers := (m.timers.update now).1 }

/-- The machine as an instruction finds it: an awaited key has been taken and the program counter
stands behind the instruction. -/
def poised (m : Machine) (keys : Keys) : Machine := (m.resume (m.awaitedKey keys)).advance

/-- The machine waits for a key and none is pressed. -/
def Idle (m : Machine) (keys : Keys) : Prop := m.waiting = true ∧ keys.first = none

instance (m : Machine) (keys : Keys) : Decidable (m.Idle keys) := inferInstanceAs (Decidable (_ ∧ _))

/-- What an instruction prints. -/
def trace (m : Machine) (tracing : Bool) (i : Instruction) : List String :=
  if tracing then [m.traceLine i] else []

/-- The outcomes that a cycle can have. -/
inductive Ran (m : Machine) (tracing : Bool) (env : Surroundings) : Outcome → Prop
  | clock (f : ClockFault) (hclock : (m.timers.update env.now).2 = .error f) :
      Ran m tracing env ⟨m.ticked env.now, [], some (.clock f)⟩
  | idle (k : Int) (hclock : (m.timers.update env.now).2 = .ok k) (hidle : m.Idle env.keys) :
      Ran m tracing env ⟨(m.ticked env.now).gateBuzzer, [], none⟩
  | unknown (k : Int) (hclock : (m.timers.update env.now).2 = .ok k) (hidle : ¬ m.Idle env.keys)
      (hcode : decode m.fetch = none) :
      Ran m tracing env ⟨m.ticked env.now, [], some (.fault (.unknownOpcode m.fetch))⟩
  | faults (k : Int) (hclock : (m.timers.update env.now).2 = .ok k) (hidle : ¬ m.Idle env.keys)
      (i : Instruction) (hcode : decode m.fetch = some i) (f : Fault)
      (hexec : ((m.ticked env.now).poised env.keys).execute env.keys env.random i = .error f) :
      Ran m tracing env ⟨(m.ticked env.now).poised env.keys,
        ((m.ticked env.now).poised env.keys).trace tracing i, some (.fault f)⟩
  | completes (k : Int) (hclock : (m.timers.update env.now).2 = .ok k) (hidle : ¬ m.Idle env.keys)
      (i : Instruction) (hcode : decode m.fetch = some i) (m' : Machine)
      (hexec : ((m.ticked env.now).poised env.keys).execute env.keys env.random i = .ok m') :
      Ran m tracing env ⟨m'.gateBuzzer, ((m.ticked env.now).poised env.keys).trace tracing i, none⟩

section

variable {m : Machine} {tracing : Bool} {env : Surroundings}

theorem cycle_of_error {f : ClockFault} (h : (m.timers.update env.now).2 = .error f) :
    m.cycle tracing env = ⟨m.ticked env.now, [], some (.clock f)⟩ := by
  rw [cycle, ticked]
  rcases hu : m.timers.update env.now with ⟨timers, found⟩
  rw [hu] at h
  obtain rfl : found = .error f := h
  rfl

theorem cycle_of_ok {k : Int} (h : (m.timers.update env.now).2 = .ok k) :
    m.cycle tracing env = (m.ticked env.now).step tracing env := by
  rw [cycle, ticked]
  rcases hu : m.timers.update env.now with ⟨timers, found⟩
  rw [hu] at h
  obtain rfl : found = .ok k := h
  rfl

theorem idle_iff {keys : Keys} :
    m.Idle keys ↔ (m.waiting && (m.awaitedKey keys).isNone) = true := by
  rw [Idle, awaitedKey]
  cases m.waiting <;> simp

theorem step_of_idle (h : m.Idle env.keys) : m.step tracing env = ⟨m.gateBuzzer, [], none⟩ :=
  if_pos (idle_iff.mp h)

theorem step_of_decode_none (hidle : ¬ m.Idle env.keys) (h : decode m.fetch = none) :
    m.step tracing env = ⟨m, [], some (.fault (.unknownOpcode m.fetch))⟩ := by
  rw [step, if_neg fun hi => hidle (idle_iff.mpr hi), Instruction.ofOpcode, h]

theorem step_of_error (hidle : ¬ m.Idle env.keys) {i : Instruction} (h : decode m.fetch = some i)
    {f : Fault} (hexec : (m.poised env.keys).execute env.keys env.random i = .error f) :
    m.step tracing env =
      ⟨m.poised env.keys, (m.poised env.keys).trace tracing i, some (.fault f)⟩ := by
  have hdone : (m.poised env.keys).perform tracing env i =
      ⟨m.poised env.keys, (m.poised env.keys).trace tracing i, some (.fault f)⟩ := by
    rw [perform, hexec]
    rfl
  unfold poised at hdone ⊢
  rw [step, if_neg fun hi => hidle (idle_iff.mpr hi), Instruction.ofOpcode, h]
  simp only [hdone]

theorem step_of_ok (hidle : ¬ m.Idle env.keys) {i : Instruction} (h : decode m.fetch = some i)
    {m' : Machine} (hexec : (m.poised env.keys).execute env.keys env.random i = .ok m') :
    m.step tracing env = ⟨m'.gateBuzzer, (m.poised env.keys).trace tracing i, none⟩ := by
  have hdone : (m.poised env.keys).perform tracing env i =
      ⟨m', (m.poised env.keys).trace tracing i, none⟩ := by
    rw [perform, hexec]
    rfl
  unfold poised at hdone ⊢
  rw [step, if_neg fun hi => hidle (idle_iff.mpr hi), Instruction.ofOpcode, h]
  simp only [hdone]

end

theorem cycle_ran (m : Machine) (tracing : Bool) (env : Surroundings) :
    m.Ran tracing env (m.cycle tracing env) := by
  rcases hclock : (m.timers.update env.now).2 with f | k
  · rw [cycle_of_error hclock]
    exact .clock f hclock
  rw [cycle_of_ok hclock]
  by_cases hidle : m.Idle env.keys
  · rw [step_of_idle (m := m.ticked env.now) hidle]
    exact .idle k hclock hidle
  rcases hcode : decode m.fetch with _ | i
  · rw [step_of_decode_none (m := m.ticked env.now) hidle hcode]
    exact .unknown k hclock hidle hcode
  rcases hexec : ((m.ticked env.now).poised env.keys).execute env.keys env.random i with f | m'
  · rw [step_of_error (m := m.ticked env.now) hidle hcode hexec]
    exact .faults k hclock hidle i hcode f hexec
  · rw [step_of_ok (m := m.ticked env.now) hidle hcode hexec]
    exact .completes k hclock hidle i hcode m' hexec

/-! ### The instruction of a cycle -/

/-- The instruction that a cycle gets to, if it gets to one. -/
def performed (m : Machine) (env : Surroundings) : Option Instruction :=
  match (m.timers.update env.now).2 with
  | .error _ => none
  | .ok _ => if m.Idle env.keys then none else decode m.fetch

theorem performed_eq_some_iff {m : Machine} {env : Surroundings} {i : Instruction} :
    m.performed env = some i ↔
      (∃ k, (m.timers.update env.now).2 = .ok k) ∧ ¬ m.Idle env.keys ∧ decode m.fetch = some i := by
  rw [performed]
  rcases (m.timers.update env.now).2 with f | k
  · exact ⟨nofun, fun h => nomatch h.1⟩
  · by_cases hidle : m.Idle env.keys
    · rw [if_pos hidle]
      exact ⟨nofun, fun h => absurd hidle h.2.1⟩
    · rw [if_neg hidle]
      exact ⟨fun h => ⟨⟨k, rfl⟩, hidle, h⟩, fun h => h.2.2⟩

theorem performed_of_idle {m : Machine} {env : Surroundings} (h : m.Idle env.keys) :
    m.performed env = none := by
  rw [performed, if_pos h]
  rcases (m.timers.update env.now).2 with f | k <;> rfl

/-- A cycle that gets to no instruction leaves all but timers, draw flag and buzzer. -/
theorem cycle_of_performed_none {m : Machine} {env : Surroundings} (h : m.performed env = none)
    (tracing : Bool) :
    ∃ b, (m.cycle tracing env).machine = { m.ticked env.now with buzzer := b } := by
  have hran := m.cycle_ran tracing env
  generalize m.cycle tracing env = o at hran
  cases hran with
  | clock => exact ⟨m.buzzer, rfl⟩
  | idle => exact ⟨_, rfl⟩
  | unknown => exact ⟨m.buzzer, rfl⟩
  | faults k hclock hidle i hcode =>
    rw [performed_eq_some_iff.mpr ⟨⟨k, hclock⟩, hidle, hcode⟩] at h
    cases h
  | completes k hclock hidle i hcode =>
    rw [performed_eq_some_iff.mpr ⟨⟨k, hclock⟩, hidle, hcode⟩] at h
    cases h

/-- A cycle that gets to an instruction performs it, and no more than the buzzer follows. -/
theorem cycle_of_performed {m : Machine} {env : Surroundings} {i : Instruction}
    (h : m.performed env = some i) (tracing : Bool) :
    let done := ((m.ticked env.now).poised env.keys).perform tracing env i
    ∃ b, m.cycle tracing env = { done with machine := { done.machine with buzzer := b } } := by
  intro done
  obtain ⟨⟨k, hclock⟩, hidle, hcode⟩ := performed_eq_some_iff.mp h
  rw [cycle_of_ok hclock]
  rcases hexec : ((m.ticked env.now).poised env.keys).execute env.keys env.random i with f | m'
  · have hdone : done = ⟨(m.ticked env.now).poised env.keys,
        ((m.ticked env.now).poised env.keys).trace tracing i, some (.fault f)⟩ := by
      simp only [done, perform, hexec]
      rfl
    rw [step_of_error (m := m.ticked env.now) hidle hcode hexec, hdone]
    exact ⟨((m.ticked env.now).poised env.keys).buzzer, rfl⟩
  · have hdone : done = ⟨m', ((m.ticked env.now).poised env.keys).trace tracing i, none⟩ := by
      simp only [done, perform, hexec]
      rfl
    rw [step_of_ok (m := m.ticked env.now) hidle hcode hexec, hdone]
    exact ⟨_, rfl⟩

/-! ### What an instruction finds -/

theorem poised_of_not_waiting {m : Machine} (h : m.waiting = false) (keys : Keys) :
    m.poised keys = m.advance := by
  rw [poised, awaitedKey, h]
  rfl

theorem poised_of_key {m : Machine} (h : m.waiting = true) {keys : Keys} {key : Int}
    (hkey : keys.first = some key) :
    m.poised keys =
      { m with
        registers := m.registers.write m.keyRegister (key % 16)
        waiting := false
        pc := (m.pc + 2) % 65536 } := by
  rw [poised, awaitedKey, h, hkey]
  rfl

@[simp] theorem poised_stack (m : Machine) (keys : Keys) : (m.poised keys).stack = m.stack := by
  rw [poised]
  rcases m.awaitedKey keys with _ | key <;> rfl

@[simp] theorem poised_screen (m : Machine) (keys : Keys) : (m.poised keys).screen = m.screen := by
  rw [poised]
  rcases m.awaitedKey keys with _ | key <;> rfl

@[simp] theorem poised_program (m : Machine) (keys : Keys) :
    (m.poised keys).program = m.program := by
  rw [poised]
  rcases m.awaitedKey keys with _ | key <;> rfl

@[simp] theorem poised_memory (m : Machine) (keys : Keys) : (m.poised keys).memory = m.memory := by
  rw [poised]
  rcases m.awaitedKey keys with _ | key <;> rfl

@[simp] theorem poised_index (m : Machine) (keys : Keys) : (m.poised keys).index = m.index := by
  rw [poised]
  rcases m.awaitedKey keys with _ | key <;> rfl

@[simp] theorem poised_pc (m : Machine) (keys : Keys) :
    (m.poised keys).pc = (m.pc + 2) % 65536 := by
  rw [poised]
  rcases m.awaitedKey keys with _ | key <;> rfl

@[simp] theorem poised_timers (m : Machine) (keys : Keys) : (m.poised keys).timers = m.timers := by
  rw [poised]
  rcases m.awaitedKey keys with _ | key <;> rfl

/-- A waiting machine that is not idle has found a key. -/
theorem exists_key {m : Machine} {keys : Keys} (h : ¬ m.Idle keys) (hwaiting : m.waiting = true) :
    ∃ key, keys.first = some key := by
  rcases hfirst : keys.first with _ | key
  · exact absurd ⟨hwaiting, hfirst⟩ h
  · exact ⟨key, rfl⟩

/-- An instruction finds the machine no longer waiting. -/
theorem poised_waiting {m : Machine} {keys : Keys} (h : ¬ m.Idle keys) :
    (m.poised keys).waiting = false := by
  cases hwaiting : m.waiting with
  | false =>
    rw [poised_of_not_waiting hwaiting]
    exact hwaiting
  | true =>
    obtain ⟨key, hkey⟩ := exists_key h hwaiting
    rw [poised_of_key hwaiting hkey]

/-! ### Two cycles side by side -/

/-- Two instructions have ended alike: in the same fault, or in machines that are related. -/
inductive Matched (R : Machine → Machine → Prop) :
    Except Fault Machine → Except Fault Machine → Prop
  | faults (f : Fault) : Matched R (.error f) (.error f)
  | completes {m m' : Machine} (h : R m m') : Matched R (.ok m) (.ok m')

/-- Two cycles end alike if they go the same way and every stage of it keeps the machines related. -/
theorem cycle_matched {R : Machine → Machine → Prop} {m m' : Machine} {tracing tracing' : Bool}
    {env env' : Surroundings}
    (hclock : ∀ f,
      (m.timers.update env.now).2 = .error f ↔ (m'.timers.update env'.now).2 = .error f)
    (hidle : m.Idle env.keys ↔ m'.Idle env'.keys) (hfetch : m.fetch = m'.fetch)
    (hticked : R (m.ticked env.now) (m'.ticked env'.now))
    (hpoised : R ((m.ticked env.now).poised env.keys) ((m'.ticked env'.now).poised env'.keys))
    (hexec : ∀ i, m.performed env = some i → Matched R
      (((m.ticked env.now).poised env.keys).execute env.keys env.random i)
      (((m'.ticked env'.now).poised env'.keys).execute env'.keys env'.random i))
    (hgate : ∀ n n', R n n' → R n.gateBuzzer n'.gateBuzzer) :
    (m.cycle tracing env).failure = (m'.cycle tracing' env').failure ∧
      R (m.cycle tracing env).machine (m'.cycle tracing' env').machine := by
  rcases h : (m.timers.update env.now).2 with f | k
  · rw [cycle_of_error h, cycle_of_error ((hclock f).mp h)]
    exact ⟨rfl, hticked⟩
  rcases h' : (m'.timers.update env'.now).2 with f | k'
  · rw [(hclock f).mpr h'] at h
    cases h
  rw [cycle_of_ok h, cycle_of_ok h']
  by_cases hi : m.Idle env.keys
  · rw [step_of_idle (m := m.ticked env.now) hi,
      step_of_idle (m := m'.ticked env'.now) (hidle.mp hi)]
    exact ⟨rfl, hgate _ _ hticked⟩
  have hi' : ¬ m'.Idle env'.keys := fun h => hi (hidle.mpr h)
  rcases hcode : decode m.fetch with _ | i
  · have hcode' : decode m'.fetch = none := hfetch ▸ hcode
    rw [step_of_decode_none (m := m.ticked env.now) hi hcode,
      step_of_decode_none (m := m'.ticked env'.now) hi' hcode']
    refine ⟨?_, hticked⟩
    exact congrArg (fun w => some (Failure.fault (.unknownOpcode w))) hfetch
  have hcode' : decode m'.fetch = some i := hfetch ▸ hcode
  have hmatched := hexec i (performed_eq_some_iff.mpr ⟨⟨k, h⟩, hi, hcode⟩)
  generalize hdone : ((m.ticked env.now).poised env.keys).execute env.keys env.random i = done
    at hmatched
  generalize hdone' : ((m'.ticked env'.now).poised env'.keys).execute env'.keys env'.random i = done'
    at hmatched
  cases hmatched with
  | faults f =>
    rw [step_of_error (m := m.ticked env.now) hi hcode hdone,
      step_of_error (m := m'.ticked env'.now) hi' hcode' hdone']
    exact ⟨rfl, hpoised⟩
  | completes hrel =>
    rw [step_of_ok (m := m.ticked env.now) hi hcode hdone,
      step_of_ok (m := m'.ticked env'.now) hi' hcode' hdone']
    exact ⟨rfl, hgate _ _ hrel⟩

/-! ### Cycles in a row -/

/-- The machine that cycles in a row leave, completed or not. -/
def cycles (m : Machine) (tracing : Bool) (envs : List Surroundings) : Machine :=
  envs.foldl (fun m env => (m.cycle tracing env).machine) m

/-- The outcomes of cycles in a row, each going on from where the one before it has ended. -/
def outcomes (m : Machine) (tracing : Bool) : List Surroundings → List Outcome
  | [] => []
  | env :: envs => m.cycle tracing env :: (m.cycle tracing env).machine.outcomes tracing envs

/-- The instructions that cycles in a row get to. -/
def instructions (m : Machine) (tracing : Bool) : List Surroundings → List Instruction
  | [] => []
  | env :: envs =>
      (m.performed env).toList ++ (m.cycle tracing env).machine.instructions tracing envs

end ChipEight.Machine
