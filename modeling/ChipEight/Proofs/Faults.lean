import ChipEight.Proofs.Checked.Agreement
import ChipEight.Proofs.Opcodes

/-!
Which faults a cycle can end in, when it does, and what it leaves behind. An instruction can only
fault at the stack (`execute_error_iff`), so there are three faults. An opcode that is no
instruction leaves the machine where it stands, however often it is tried again. At the stack the
machine has moved on by one instruction, and an awaited key has been taken by then.
-/

namespace ChipEight

theorem exists_ok {ε α : Type} {e : Except ε α} (h : e.isOk = true) : ∃ a, e = .ok a := by
  cases e with
  | error e => cases h
  | ok a => exact ⟨a, rfl⟩

/-- What cannot fail afterwards does not make a failure. -/
theorem bind_error_iff {ε α β : Type} {e : Except ε α} {g : α → Except ε β}
    (hg : ∀ a, ∃ b, g a = .ok b) {f : ε} : (e >>= g) = .error f ↔ e = .error f := by
  cases e with
  | error e => constructor <;> (rintro ⟨⟩; rfl)
  | ok a =>
    obtain ⟨b, hb⟩ := hg a
    rw [ok_bind, hb]
    constructor <;> rintro ⟨⟩

namespace Machine

/-- The opcode at the program counter has sixteen bits. -/
theorem fetch_word (m : Machine) : 0 ≤ m.fetch ∧ m.fetch < 65536 := by
  have hhigh := Byte.isByte_toInt (m.memory.read m.pc)
  have hlow := Byte.isByte_toInt (m.memory.read (m.pc + 1))
  rw [fetch]
  omega

/-- A call on a full stack and a return on an empty one are all that can go wrong. -/
theorem execute_error_iff {m : Machine} {keys : Keys} {random : Nat → Int} {i : Instruction}
    {f : Fault} :
    m.execute keys random i = .error f ↔
      (i.operation = .call ∧ m.stack.used = m.stack.slots.length ∧
        f = .stackOverflow m.stack.slots.length) ∨
      (i.operation = .ret ∧ m.stack.used = 0 ∧ f = .stackUnderflow) := by
  rw [execute]
  cases hop : i.operation
  case call =>
    refine (bind_error_iff fun _ => ⟨_, rfl⟩).trans (Stack.push_error_iff.trans ?_)
    simp
  case ret =>
    refine (bind_error_iff fun _ => ⟨_, rfl⟩).trans (Stack.pop_error_iff.trans ?_)
    simp
  all_goals simp

/-! ### When a cycle faults -/

/-- The opcode at the program counter is no instruction. -/
def Unknown (m : Machine) : Prop := ∀ row ∈ opcodeTable, row.accepts m.fetch = false

/-- A call stands at the program counter and every slot is in use. -/
def Overflows (m : Machine) : Prop := m.fetch / 4096 = 2 ∧ m.stack.used = 16

/-- A return stands at the program counter and no slot is in use. -/
def Underflows (m : Machine) : Prop := m.fetch = 0x00EE ∧ m.stack.used = 0

/-- How a cycle that is not idle ends: in the fault that its opcode and its stack call for, and in
none otherwise. -/
structure FaultLaw (m : Machine) (failure : Option Failure) : Prop where
  unknown : failure = some (.fault (.unknownOpcode m.fetch)) ↔ m.Unknown
  overflow : failure = some (.fault (.stackOverflow 16)) ↔ m.Overflows
  underflow : failure = some (.fault .stackUnderflow) ↔ m.Underflows
  normal : failure = none ↔ ¬ m.Unknown ∧ ¬ m.Overflows ∧ ¬ m.Underflows

section

variable {m : Machine} {tracing : Bool} {env : Surroundings}

theorem Overflows.not_unknown (h : m.Overflows) : ¬ m.Unknown := by
  intro hunknown
  have hcall := (accepts_callRow_iff m.fetch_word).mpr h.1
  rw [hunknown callRow callRow_mem] at hcall
  contradiction

theorem Underflows.not_unknown (h : m.Underflows) : ¬ m.Unknown := by
  intro hunknown
  have hret := (accepts_retRow_iff m.fetch_word).mpr h.1
  rw [hunknown retRow retRow_mem] at hret
  contradiction

theorem Overflows.not_underflows (h : m.Overflows) : ¬ m.Underflows := by
  rintro ⟨-, hzero⟩
  have hfull := h.2
  omega

theorem faultLaw_unknown (h : m.Unknown) :
    m.FaultLaw (some (.fault (.unknownOpcode m.fetch))) where
  unknown := ⟨fun _ => h, fun _ => rfl⟩
  overflow := ⟨nofun, fun ho => absurd h ho.not_unknown⟩
  underflow := ⟨nofun, fun hu => absurd h hu.not_unknown⟩
  normal := ⟨nofun, fun hn => absurd h hn.1⟩

theorem faultLaw_overflow (h : m.Overflows) : m.FaultLaw (some (.fault (.stackOverflow 16))) where
  unknown := ⟨nofun, fun hu => absurd hu h.not_unknown⟩
  overflow := ⟨fun _ => h, fun _ => rfl⟩
  underflow := ⟨nofun, fun hu => absurd hu h.not_underflows⟩
  normal := ⟨nofun, fun hn => absurd h hn.2.1⟩

theorem faultLaw_underflow (h : m.Underflows) : m.FaultLaw (some (.fault .stackUnderflow)) where
  unknown := ⟨nofun, fun hu => absurd hu h.not_unknown⟩
  overflow := ⟨nofun, fun ho => absurd h ho.not_underflows⟩
  underflow := ⟨fun _ => h, fun _ => rfl⟩
  normal := ⟨nofun, fun hn => absurd h hn.2.2⟩

theorem faultLaw_none (hunknown : ¬ m.Unknown) (hover : ¬ m.Overflows) (hunder : ¬ m.Underflows) :
    m.FaultLaw none where
  unknown := ⟨nofun, fun hu => absurd hu hunknown⟩
  overflow := ⟨nofun, fun ho => absurd ho hover⟩
  underflow := ⟨nofun, fun hu => absurd hu hunder⟩
  normal := ⟨fun _ => ⟨hunknown, hover, hunder⟩, fun _ => rfl⟩

theorem unknown_iff : m.Unknown ↔ decode m.fetch = none := decode_eq_none_iff.symm

/-- The instruction at the program counter faults as the opcode and the stack call for. -/
theorem execute_poised_error_iff (hwords : m.stack.Words) (env : Surroundings) {i : Instruction}
    (hcode : decode m.fetch = some i) {f : Fault} :
    ((m.ticked env.now).poised env.keys).execute env.keys env.random i = .error f ↔
      (m.Overflows ∧ f = .stackOverflow 16) ∨ (m.Underflows ∧ f = .stackUnderflow) := by
  have hcall : i.operation = .call ↔ m.fetch / 4096 = 2 :=
    (operation_eq_iff hcode callRow_mem).trans (accepts_callRow_iff m.fetch_word)
  have hret : i.operation = .ret ↔ m.fetch = 0x00EE :=
    (operation_eq_iff hcode retRow_mem).trans (accepts_retRow_iff m.fetch_word)
  have hstack : ((m.ticked env.now).poised env.keys).stack = m.stack := poised_stack _ _
  rw [execute_error_iff, hcall, hret, hstack, hwords.depth, ← and_assoc, ← and_assoc]
  rfl

/-- A cycle strays nowhere, and it ends in the fault that its opcode and its stack call for. An idle
cycle completes. -/
theorem cycle_faultLaw (h : m.Reachable) (tracing : Bool) (env : Surroundings) {k : Int}
    (hclock : (m.timers.update env.now).2 = .ok k) :
    m.cycleChecked tracing env = .ok (m.cycle tracing env) ∧
      (m.Idle env.keys → (m.cycle tracing env).failure = none) ∧
      (¬ m.Idle env.keys → m.FaultLaw (m.cycle tracing env).failure) := by
  have hbounds := h.inBounds
  refine ⟨cycleChecked_eq_cycle hbounds tracing env, ?_⟩
  have hran := m.cycle_ran tracing env
  generalize m.cycle tracing env = o at hran
  cases hran with
  | clock f hfault => rw [hfault] at hclock; cases hclock
  | idle _ _ hidle => exact ⟨fun _ => rfl, fun hn => absurd hidle hn⟩
  | unknown _ _ hidle hcode =>
    exact ⟨fun hi => absurd hi hidle, fun _ => faultLaw_unknown (unknown_iff.mpr hcode)⟩
  | faults _ _ hidle i hcode f hexec =>
    refine ⟨fun hi => absurd hi hidle, fun _ => ?_⟩
    rcases (execute_poised_error_iff hbounds.stack env hcode).mp hexec with ⟨ho, rfl⟩ | ⟨hu, rfl⟩
    · exact faultLaw_overflow ho
    · exact faultLaw_underflow hu
  | completes _ _ hidle i hcode m' hexec =>
    have hsound {f : Fault} : ¬ ((m.Overflows ∧ f = .stackOverflow 16) ∨
        (m.Underflows ∧ f = .stackUnderflow)) := by
      rw [← execute_poised_error_iff hbounds.stack env hcode, hexec]
      nofun
    refine ⟨fun _ => rfl, fun _ => faultLaw_none ?_ ?_ ?_⟩
    · rw [unknown_iff, hcode]
      nofun
    · intro ho
      exact hsound (.inl ⟨ho, rfl⟩)
    · intro hu
      exact hsound (.inr ⟨hu, rfl⟩)

/-- A machine just switched on that has been given a program. -/
def given (program : List Byte) : Machine := (start 0).serve [.load .boundless (.bytes program)]

/-- A cycle in which no time has passed and some keys are held. -/
def holding (keys : List Int) : Surroundings := ⟨0, Keys.ofList keys, fun _ => 0⟩

theorem cycle_faultLaw_ret :
    (given [0x00, 0xEE]).cycleChecked false (holding []) =
        .ok ((given [0x00, 0xEE]).cycle false (holding [])) ∧
      ((given [0x00, 0xEE]).cycle false (holding [])).failure = some (.fault .stackUnderflow) := by
  have hreach : (given [0x00, 0xEE]).Reachable := ⟨0, _, rfl⟩
  have hclock : ((given [0x00, 0xEE]).timers.update (holding []).now).2 = .ok 0 := rfl
  obtain ⟨hchecked, -, hlaw⟩ := cycle_faultLaw hreach false (holding []) hclock
  have hidle : ¬ (given [0x00, 0xEE]).Idle (holding []).keys := by decide +kernel
  have hunder : (given [0x00, 0xEE]).Underflows := by
    unfold Underflows
    decide +kernel
  exact ⟨hchecked, (hlaw hidle).underflow.mpr hunder⟩

/-! ### What a fault at the stack leaves -/

/-- The machine has moved on by one instruction. Nothing else differs, but for the timers and the
draw flag. -/
def OnlyAdvanced (m m' : Machine) : Prop :=
  m' = { m with pc := (m.pc + 2) % 65536, timers := m'.timers, drew := m'.drew }

theorem OnlyAdvanced.waiting {m' : Machine} (h : m.OnlyAdvanced m') : m'.waiting = m.waiting := by
  rw [OnlyAdvanced] at h
  rw [h]

/-- A fault at the stack finds the machine as its instruction found it. -/
theorem machine_of_stack_fault {f : Fault}
    (hfault : (m.cycle tracing env).failure = some (.fault f))
    (hkind : f.kind = .stackOverflow ∨ f.kind = .stackUnderflow) :
    ¬ m.Idle env.keys ∧ (m.cycle tracing env).machine = (m.ticked env.now).poised env.keys := by
  have hran := m.cycle_ran tracing env
  generalize m.cycle tracing env = o at hfault hran
  cases hran with
  | clock g => cases hfault
  | idle => cases hfault
  | unknown =>
    cases hfault
    rcases hkind with h | h <;> cases h
  | faults _ _ hidle => exact ⟨hidle, rfl⟩
  | completes => cases hfault

/-- A fault at the stack is atomic exactly if no key was awaited. A cycle that takes an awaited key
first has stored it and stopped waiting by the time the stack refuses. -/
theorem stack_fault_atomic_iff {f : Fault}
    (hfault : (m.cycle tracing env).failure = some (.fault f))
    (hkind : f.kind = .stackOverflow ∨ f.kind = .stackUnderflow) :
    (m.OnlyAdvanced (m.cycle tracing env).machine ↔ m.waiting = false) ∧
      (m.waiting = true → ∃ key, env.keys.first = some key ∧
        (m.cycle tracing env).machine = { m with
          registers := m.registers.write m.keyRegister (key % 16)
          waiting := false
          pc := (m.pc + 2) % 65536
          timers := (m.timers.update env.now).1
          drew := false }) := by
  obtain ⟨hidle, hmachine⟩ := machine_of_stack_fault hfault hkind
  rw [hmachine]
  cases hwaiting : m.waiting with
  | false =>
    rw [poised_of_not_waiting (m := m.ticked env.now) hwaiting]
    exact ⟨⟨fun _ => rfl, fun _ => rfl⟩, nofun⟩
  | true =>
    obtain ⟨key, hkey⟩ := exists_key hidle hwaiting
    rw [poised_of_key (m := m.ticked env.now) hwaiting hkey]
    refine ⟨⟨fun h => ?_, nofun⟩, fun _ => ⟨key, hkey, rfl⟩⟩
    exact hwaiting.symm.trans h.waiting.symm

theorem stack_fault_atomic_given :
    ((given [0x00, 0xEE]).cycle false (holding [])).failure = some (.fault .stackUnderflow) ∧
      (given [0x00, 0xEE]).OnlyAdvanced ((given [0x00, 0xEE]).cycle false (holding [])).machine := by
  have hfault : ((given [0x00, 0xEE]).cycle false (holding [])).failure =
      some (.fault .stackUnderflow) := by decide +kernel
  have hwaiting : (given [0x00, 0xEE]).waiting = false := by decide +kernel
  exact ⟨hfault, (stack_fault_atomic_iff hfault (.inr rfl)).1.mpr hwaiting⟩

/-- A machine that waits for a key to put into V0, the rest of a program behind it. -/
def awaiting (rest : List Byte) : Machine :=
  (start 0).serve [.load .boundless (.bytes ([0xF0, 0x0A] ++ rest)), .cycle false (holding [])]

/-- A return on an empty stack, right behind the key that was awaited. -/
theorem stack_fault_not_atomic :
    (awaiting [0x00, 0xEE]).Reachable ∧
      ((awaiting [0x00, 0xEE]).cycle false (holding [5])).failure = some (.fault .stackUnderflow) ∧
      ¬ (awaiting [0x00, 0xEE]).OnlyAdvanced
        ((awaiting [0x00, 0xEE]).cycle false (holding [5])).machine := by
  refine ⟨⟨0, _, rfl⟩, by decide +kernel, ?_⟩
  intro h
  have hstill := h.waiting
  revert hstill
  decide +kernel

/-! ### An opcode that is no instruction -/

/-- The machine has got no further. The timers may differ, and while a key is awaited so may the
buzzer; nothing is drawn. -/
structure StillAt (m m' : Machine) : Prop where
  same : m' = { m with timers := m'.timers, drew := false, buzzer := m'.buzzer }
  buzzer : m.waiting = false → m'.buzzer = m.buzzer

theorem stillAt_ticked (m : Machine) (now : Float) : m.StillAt (m.ticked now) :=
  ⟨rfl, fun _ => rfl⟩

theorem StillAt.fetch {m' : Machine} (h : m.StillAt m') : m'.fetch = m.fetch := by
  rw [h.same]
  rfl

theorem StillAt.waiting {m' : Machine} (h : m.StillAt m') : m'.waiting = m.waiting := by
  rw [h.same]

theorem StillAt.ticked {m' : Machine} (h : m.StillAt m') (now : Float) :
    m.StillAt (m'.ticked now) := by
  refine ⟨?_, h.buzzer⟩
  rw [Machine.ticked, h.same]

theorem StillAt.gateBuzzer {m' : Machine} (h : m.StillAt m') (hwaiting : m.waiting = true) :
    m.StillAt m'.gateBuzzer := by
  refine ⟨?_, fun hn => absurd (hwaiting.symm.trans hn) nofun⟩
  rw [Machine.gateBuzzer, h.same]

theorem StillAt.idle_iff {m' : Machine} (h : m.StillAt m') {keys : Keys} :
    m'.Idle keys ↔ m.Idle keys := by
  rw [Idle, Idle, h.waiting]

theorem unknown_of_failure {w : Int}
    (h : (m.cycle tracing env).failure = some (.fault (.unknownOpcode w))) :
    decode m.fetch = none ∧ w = m.fetch ∧ (m.cycle tracing env).machine = m.ticked env.now := by
  have hran := m.cycle_ran tracing env
  generalize m.cycle tracing env = o at h hran
  cases hran with
  | clock g => cases h
  | idle => cases h
  | unknown _ _ _ hcode =>
    obtain rfl : m.fetch = w := by injection h with h; injection h with h; injection h
    exact ⟨hcode, rfl, rfl⟩
  | faults _ _ _ i _ f hexec =>
    rcases execute_error_iff.mp hexec with ⟨-, -, rfl⟩ | ⟨-, -, rfl⟩ <;> cases h
  | completes => cases h

/-- Where no instruction stands, a cycle stays idle or reports the opcode. -/
theorem cycle_of_unknown (hcode : decode m.fetch = none) {k : Int}
    (hclock : (m.timers.update env.now).2 = .ok k) :
    m.cycle tracing env =
      if m.Idle env.keys then ⟨(m.ticked env.now).gateBuzzer, [], none⟩
      else ⟨m.ticked env.now, [], some (.fault (.unknownOpcode m.fetch))⟩ := by
  rw [cycle_of_ok hclock]
  by_cases hidle : m.Idle env.keys
  · rw [if_pos hidle]
    exact step_of_idle (m := m.ticked env.now) hidle
  · rw [if_neg hidle]
    exact step_of_decode_none (m := m.ticked env.now) hidle hcode

/-- Where no instruction stands, no cycle gets any further. -/
theorem StillAt.cycle (hcode : decode m.fetch = none) {m' : Machine} (h : m.StillAt m')
    (tracing : Bool) (env : Surroundings) : m.StillAt (m'.cycle tracing env).machine := by
  rcases hclock : (m'.timers.update env.now).2 with f | k
  · rw [cycle_of_error hclock]
    exact h.ticked env.now
  rw [cycle_of_unknown (h.fetch.symm ▸ hcode) hclock]
  by_cases hidle : m'.Idle env.keys
  · rw [if_pos hidle]
    exact (h.ticked env.now).gateBuzzer (h.idle_iff.mp hidle).1
  · rw [if_neg hidle]
    exact h.ticked env.now

theorem StillAt.cycles (hcode : decode m.fetch = none) {m' : Machine} (h : m.StillAt m')
    (tracing : Bool) (envs : List Surroundings) : m.StillAt (m'.cycles tracing envs) := by
  induction envs generalizing m' with
  | nil => exact h
  | cons env envs ih => exact ih (h.cycle hcode tracing env)

/-- An opcode that is no instruction leaves the machine where it stands, and so do all cycles after
it: each reports the same opcode, or stays idle as long as the awaited key is missing. -/
theorem unknown_opcode_stays {w : Int}
    (h : (m.cycle tracing env).failure = some (.fault (.unknownOpcode w))) :
    (m.cycle tracing env).machine = m.ticked env.now ∧
      ∀ envs m', m' = (m.cycle tracing env).machine.cycles tracing envs →
        m.StillAt m' ∧ ∀ env' k, (m'.timers.update env'.now).2 = .ok k →
          m'.cycle tracing env' =
            if m.Idle env'.keys then ⟨(m'.ticked env'.now).gateBuzzer, [], none⟩
            else ⟨m'.ticked env'.now, [], some (.fault (.unknownOpcode w))⟩ := by
  obtain ⟨hcode, rfl, hmachine⟩ := unknown_of_failure h
  refine ⟨hmachine, ?_⟩
  rintro envs m' rfl
  have hstill := (hmachine ▸ stillAt_ticked m env.now).cycles hcode tracing envs
  refine ⟨hstill, fun env' k hclock => ?_⟩
  rw [cycle_of_unknown (hstill.fetch.symm ▸ hcode) hclock, hstill.fetch]
  simp only [hstill.idle_iff]

/-- The awaited key is there, but no instruction is behind it. -/
def baffled : Machine := ((awaiting [0xFF, 0xFF]).cycle false (holding [5])).machine

theorem unknown_opcode_stays_awaiting :
    ((awaiting [0xFF, 0xFF]).cycle false (holding [5])).failure =
        some (.fault (.unknownOpcode 0xFFFF)) ∧
      ((baffled.cycles false [holding []]).cycle false (holding [])).failure = none ∧
      ((baffled.cycles false [holding []]).cycle false (holding [3])).failure =
        some (.fault (.unknownOpcode 0xFFFF)) := by
  have hfailure : ((awaiting [0xFF, 0xFF]).cycle false (holding [5])).failure =
      some (.fault (.unknownOpcode 0xFFFF)) := by decide +kernel
  have hclock (keys : List Int) : ∃ k,
      ((baffled.cycles false [holding []]).timers.update (holding keys).now).2 = .ok k := by
    change ∃ k, ((baffled.cycles false [holding []]).timers.update 0).2 = .ok k
    have hok : ((baffled.cycles false [holding []]).timers.update 0).2.isOk = true := by
      decide +kernel
    rcases hfound : ((baffled.cycles false [holding []]).timers.update 0).2 with f | k
    · rw [hfound] at hok
      cases hok
    · exact ⟨k, rfl⟩
  have hwaiting : (awaiting [0xFF, 0xFF]).waiting = true := by decide +kernel
  have hidle : (awaiting [0xFF, 0xFF]).Idle (holding []).keys := ⟨hwaiting, rfl⟩
  have hpressed : ¬ (awaiting [0xFF, 0xFF]).Idle (holding [3]).keys := fun h => nomatch h.2
  obtain ⟨-, hlater⟩ := unknown_opcode_stays hfailure
  obtain ⟨-, hnext⟩ := hlater [holding []] _ rfl
  obtain ⟨j, hj⟩ := hclock []
  obtain ⟨k, hk⟩ := hclock [3]
  refine ⟨hfailure, ?_, ?_⟩
  · rw [baffled, hnext _ j hj, if_pos hidle]
  · rw [baffled, hnext _ k hk, if_neg hpressed]

end

end Machine

end ChipEight
