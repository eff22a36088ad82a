import Mathlib.Data.List.Induction
import ChipEight.Proofs.Reserved

/-!
Waiting for a key. A request leaves the wait alone, begins it, ends it with a key or drops it in a
reset: `Handled` lists these ways, and every request goes one of them (`respond_handled`). So only a
key or a reset ends a wait, and the register that is kept for the key is the one that the last wait
has named (`lastWait_serve`). Until a key comes the cycles leave the machine where it is
(`Rests.cycles`), and the one that takes it does what it would have done had the key been in its
register before (`Answered.cycle`).
-/

namespace ChipEight

/-- The same surroundings with another answer to which key was pressed first. -/
def Surroundings.pressing (env : Surroundings) (first : Option Int) : Surroundings :=
  { env with keys := ⟨first, env.keys.held⟩ }

namespace Machine

/-! ### While no key comes -/

/-- The machines differ at most in their timers, the draw flag and the buzzer. -/
inductive Rests (m : Machine) : Machine → Prop
  | mk (timers : Timers Float Rate) (drew buzzer : Bool) :
      Rests m { m with timers := timers, drew := drew, buzzer := buzzer }

theorem Rests.cycle {m m' : Machine} (h : m.Rests m') {env : Surroundings}
    (hperformed : m'.performed env = none) (tracing : Bool) :
    m.Rests (m'.cycle tracing env).machine := by
  obtain ⟨b, hcycle⟩ := cycle_of_performed_none hperformed tracing
  obtain ⟨timers, drew, buzzer⟩ := h
  rw [hcycle]
  exact .mk _ _ _

/-- Without a key, cycles leave a waiting machine where it is. -/
theorem Rests.cycles {m m' : Machine} (h : m.Rests m') (hwaiting : m.waiting = true)
    (tracing : Bool) {envs : List Surroundings} (hkeys : ∀ env ∈ envs, env.keys.first = none) :
    m.Rests (m'.cycles tracing envs) := by
  induction envs generalizing m' with
  | nil => exact h
  | cons env envs ih =>
    rw [List.forall_mem_cons] at hkeys
    have hidle : m'.Idle env.keys := by
      obtain ⟨timers, drew, buzzer⟩ := h
      exact ⟨hwaiting, hkeys.1⟩
    exact ih (h.cycle (performed_of_idle hidle) tracing) hkeys.2

/-! ### The cycle that takes the key -/

/-- A cycle finds a key pressed, and nothing keeps it from going on with an instruction. -/
structure Answered (m : Machine) (env : Surroundings) (key : Int) : Prop where
  key : env.keys.first = some key
  clock : ∃ k, (m.timers.update env.now).2 = .ok k
  code : ∃ i, decode m.fetch = some i

/-- A waiting machine gets to an instruction exactly if it is answered. -/
theorem exists_answered_iff {m : Machine} (hwaiting : m.waiting = true) {env : Surroundings} :
    (∃ key, m.Answered env key) ↔ ∃ i, m.performed env = some i := by
  constructor
  · rintro ⟨key, hkey, hclock, i, hcode⟩
    have hbusy : ¬ m.Idle env.keys := fun h => nomatch hkey.symm.trans h.2
    exact ⟨i, performed_eq_some_iff.mpr ⟨hclock, hbusy, hcode⟩⟩
  · rintro ⟨i, hi⟩
    obtain ⟨hclock, hidle, hcode⟩ := performed_eq_some_iff.mp hi
    obtain ⟨key, hkey⟩ := exists_key hidle hwaiting
    exact ⟨key, hkey, hclock, i, hcode⟩

/-- The machine once a key has been put where it is awaited. -/
def keyed (m : Machine) (key : Int) : Machine :=
  { m with registers := m.registers.write m.keyRegister (key % 16), waiting := false }

/-- The cycle that takes an awaited key does what it does if the key has been taken before. -/
theorem Answered.cycle {m : Machine} {env : Surroundings} {key : Int} (h : m.Answered env key)
    (hwaiting : m.waiting = true) (tracing : Bool) :
    m.cycle tracing env = (m.keyed key).cycle tracing env := by
  obtain ⟨hkey, ⟨k, hclock⟩, i, hcode⟩ := h
  have hbusy : ¬ (m.ticked env.now).Idle env.keys := fun h => nomatch hkey.symm.trans h.2
  have hfree : ¬ ((m.keyed key).ticked env.now).Idle env.keys := fun h => nomatch h.1
  have hpoised : (m.ticked env.now).poised env.keys =
      ((m.keyed key).ticked env.now).poised env.keys := by
    rw [poised_of_key (m := m.ticked env.now) hwaiting hkey, poised_of_not_waiting rfl]
    rfl
  rw [cycle_of_ok hclock, cycle_of_ok (m := m.keyed key) hclock]
  rcases hexec : ((m.ticked env.now).poised env.keys).execute env.keys env.random i with f | m'
  · rw [step_of_error (m := m.ticked env.now) hbusy hcode hexec]
    rw [hpoised] at hexec ⊢
    exact (step_of_error (m := (m.keyed key).ticked env.now) hfree hcode hexec).symm
  · rw [step_of_ok (m := m.ticked env.now) hbusy hcode hexec, hpoised]
    rw [hpoised] at hexec
    exact (step_of_ok (m := (m.keyed key).ticked env.now) hfree hcode hexec).symm

/-- A machine that waits for nothing does not ask which key was pressed first. -/
theorem cycle_of_not_waiting {m : Machine} (h : m.waiting = false) (tracing : Bool)
    (env : Surroundings) (first : Option Int) :
    m.cycle tracing (env.pressing first) = m.cycle tracing env := by
  have hawaited (keys : Keys) : (m.ticked env.now).awaitedKey keys = none :=
    if_neg (h ▸ Bool.false_ne_true)
  rcases hclock : (m.timers.update env.now).2 with f | k
  · have hclock' : (m.timers.update (env.pressing first).now).2 = .error f := hclock
    rw [cycle_of_error hclock, cycle_of_error hclock']
    rfl
  · have hclock' : (m.timers.update (env.pressing first).now).2 = .ok k := hclock
    rw [cycle_of_ok hclock, cycle_of_ok hclock']
    change (m.ticked env.now).step tracing (env.pressing first) = _
    rw [step, step, hawaited, hawaited]
    rfl

/-! ### How a wait begins and ends -/

/-- The instruction that a request gets to, if it gets to one. -/
def requested (m : Machine) : Request → Option Instruction
  | .cycle _ env => m.performed env
  | .execute opcode _ _ => decode opcode
  | _ => none

/-- The ways a request can treat the wait for a key. -/
inductive Handled (m : Machine) : Request → Machine → Prop
  | leaves {r : Request} {m' : Machine}
      (hother : ∀ i, m.requested r = some i → i.operation ≠ .waitKey)
      (hwaiting : m'.waiting = m.waiting) (hregister : m'.keyRegister = m.keyRegister) :
      Handled m r m'
  | begins {r : Request} {m' : Machine} {i : Instruction} (hi : m.requested r = some i)
      (hop : i.operation = .waitKey) (hwaiting : m'.waiting = true)
      (hregister : m'.keyRegister = i.x) : Handled m r m'
  /-- A cycle that gets to an instruction has found the key, if one was awaited. -/
  | passes {tracing : Bool} {env : Surroundings} {m' : Machine} {i : Instruction}
      (hi : m.performed env = some i) (hop : i.operation ≠ .waitKey) (hwaiting : m'.waiting = false) :
      Handled m (.cycle tracing env) m'
  | drops {now : Float} {m' : Machine} (hwaiting : m'.waiting = false) : Handled m (.reset now) m'

/-- A request that gets to no instruction leaves the wait alone. -/
theorem handled_of_none {m m' : Machine} {r : Request} (hnone : m.requested r = none)
    (hwaiting : m'.waiting = m.waiting) (hregister : m'.keyRegister = m.keyRegister) :
    m.Handled r m' := by
  refine .leaves (fun i hi => ?_) hwaiting hregister
  rw [hnone] at hi
  cases hi

theorem Reserved.handled {m n m' : Machine} {i : Instruction} {r : Request} (h : n.Reserved i m')
    (hi : m.requested r = some i) (hop : i.operation = .waitKey) : m.Handled r m' :=
  .begins hi hop (h.waiting.trans (if_pos hop)) (h.keyRegister.trans (if_pos hop))

theorem reset_waiting (m : Machine) (now : Float) : (m.reset now).waiting = false := by
  obtain ⟨memory, hreset⟩ := m.reset_cases now
  rw [hreset]
  rfl

/-- Every request treats the wait in one of these ways. -/
theorem respond_handled (m : Machine) (r : Request) : m.Handled r (m.respond r) := by
  cases r with
  | load storage source =>
    rcases m.respond_load_cases storage source with ⟨data, -, hload⟩ | hload <;> rw [hload] <;>
      exact handled_of_none rfl rfl rfl
  | cycle tracing env =>
    rcases hperformed : m.performed env with _ | i
    · obtain ⟨b, hcycle⟩ := cycle_of_performed_none hperformed tracing
      rw [respond, hcycle]
      exact handled_of_none hperformed rfl rfl
    have hreserved := cycle_reserved hperformed tracing
    by_cases hop : i.operation = .waitKey
    · exact hreserved.handled hperformed hop
    · refine .passes hperformed hop ((hreserved.waiting.trans (if_neg hop)).trans ?_)
      exact poised_waiting (performed_eq_some_iff.mp hperformed).2.1
  | execute opcode tracing env =>
    rw [respond]
    rcases hcode : decode opcode with _ | i
    · exact handled_of_none hcode rfl rfl
    have hreserved := m.perform_reserved tracing env i
    by_cases hop : i.operation = .waitKey
    · exact hreserved.handled hcode hop
    · refine .leaves (fun j hj => ?_) (hreserved.waiting.trans (if_neg hop))
        (hreserved.keyRegister.trans (if_neg hop))
      obtain rfl := Option.some.inj (hcode.symm.trans hj)
      exact hop
  | update now => exact handled_of_none rfl rfl rfl
  | tick n => exact handled_of_none rfl rfl rfl
  | reset now => exact .drops (m.reset_waiting now)

/-- Only a reset and a cycle that is answered end a wait. -/
theorem ends_of_respond {m : Machine} (hwaiting : m.waiting = true) {r : Request}
    (h : (m.respond r).waiting = false) :
    (∃ now, r = .reset now) ∨
      ∃ tracing env key, r = .cycle tracing env ∧ m.Answered env key := by
  have hhandled := m.respond_handled r
  generalize m.respond r = m' at h hhandled
  cases hhandled with
  | leaves _ hw => rw [hw, hwaiting] at h; cases h
  | begins _ _ hw => rw [hw] at h; cases h
  | passes hi =>
    obtain ⟨key, hanswered⟩ := (exists_answered_iff hwaiting).mpr ⟨_, hi⟩
    exact .inr ⟨_, _, key, rfl, hanswered⟩
  | drops => exact .inl ⟨_, rfl⟩

/-- The instructions that a row of requests gets to. -/
def performedIn (m : Machine) : List Request → List Instruction
  | [] => []
  | r :: later => (m.requested r).toList ++ (m.respond r).performedIn later

/-- The last instruction among these that begins a wait. -/
def lastWait (instructions : List Instruction) : Option Instruction :=
  (instructions.filter (·.operation = .waitKey)).getLast?

theorem performedIn_concat (m : Machine) (history : List Request) (r : Request) :
    m.performedIn (history ++ [r]) =
      m.performedIn history ++ ((m.serve history).requested r).toList := by
  induction history generalizing m with
  | nil => simp [performedIn, serve]
  | cons first history ih =>
    rw [List.cons_append, performedIn, performedIn, ih, List.append_assoc]
    rfl

theorem lastWait_concat (earlier : List Instruction) (i : Instruction) :
    lastWait (earlier ++ [i]) = if i.operation = .waitKey then some i else lastWait earlier := by
  unfold lastWait
  by_cases h : i.operation = .waitKey <;> simp [h]

/-- The register kept for the key is the one that the last wait has named. -/
theorem lastWait_serve (on : Float) (history : List Request)
    (hwaiting : ((start on).serve history).waiting = true) :
    (lastWait ((start on).performedIn history)).map (·.x) =
      some ((start on).serve history).keyRegister := by
  induction history using List.reverseRecOn with
  | nil => cases hwaiting
  | append_singleton history r ih =>
    rw [serve_concat] at hwaiting ⊢
    rw [performedIn_concat]
    have hhandled := ((start on).serve history).respond_handled r
    generalize ((start on).serve history).respond r = m' at hwaiting hhandled
    cases hhandled with
    | leaves hother hw hregister =>
      rw [hregister, ← ih (hw.symm.trans hwaiting)]
      rcases hr : ((start on).serve history).requested r with _ | i
      · rw [Option.toList_none, List.append_nil]
      · rw [Option.toList_some, lastWait_concat, if_neg (hother i hr)]
    | begins hi hop _ hregister =>
      rw [hi, Option.toList_some, lastWait_concat, if_pos hop, hregister]
      rfl
    | passes _ _ hw => rw [hw] at hwaiting; cases hwaiting
    | drops hw => rw [hw] at hwaiting; cases hwaiting

/-! ### The wait as a whole -/

/-- What holds of a machine that waits for a key, these instructions behind it. -/
structure KeyWait (m : Machine) (earlier : List Instruction) : Prop where
  /-- Without a key it stays where it is. -/
  rests : ∀ tracing envs, (∀ env ∈ envs, env.keys.first = none) → m.Rests (m.cycles tracing envs)
  /-- With a key it goes on as if the key had been taken before. -/
  takes : ∀ tracing env key, m.Answered env key →
    m.cycle tracing env = (m.keyed key).cycle tracing env
  /-- Once the key is taken, no cycle asks for it again. -/
  once : ∀ tracing env key first,
    (m.keyed key).cycle tracing (env.pressing first) = (m.keyed key).cycle tracing env
  /-- A key that cannot be taken yet is not lost either. -/
  spares : ∀ tracing env, (¬ ∃ key, m.Answered env key) → m.Rests (m.cycle tracing env).machine
  register : (lastWait earlier).map (·.x) = some m.keyRegister
  ends : ∀ r, (m.respond r).waiting = false →
    (∃ now, r = .reset now) ∨ ∃ tracing env key, r = .cycle tracing env ∧ m.Answered env key

/-- A machine that has come to wait for a key, whatever it has been through, stays where it is until
it finds one; the cycle that does goes on with the key in its register; and nothing else but a reset
ends the wait. -/
theorem keyWait_serve (on : Float) (history : List Request)
    (hwaiting : ((start on).serve history).waiting = true) :
    ((start on).serve history).KeyWait ((start on).performedIn history) where
  rests tracing _ hkeys := Rests.cycles (.mk _ _ _) hwaiting tracing hkeys
  takes tracing _ _ hanswered := hanswered.cycle hwaiting tracing
  once tracing env key first := cycle_of_not_waiting rfl tracing env first
  spares tracing env hnone := by
    refine Rests.cycle (.mk _ _ _) ?_ tracing
    rw [exists_answered_iff hwaiting] at hnone
    exact Option.eq_none_iff_forall_ne_some.mpr fun i hi => hnone ⟨i, hi⟩
  register := lastWait_serve on history hwaiting
  ends _ h := ends_of_respond hwaiting h

/-- A past that ends in a wait for a key into V0, which holds 7, with an addition to V0 ahead. -/
def pastToWait : List Request :=
  [.load .boundless (.bytes [0x60, 0x07, 0xF0, 0x0A, 0x70, 0x01]), .cycle false (holding []),
    .cycle false (holding [])]

/-- The key 0 is a key like any other. -/
theorem keyWait_serve_pastToWait :
    let m := (start 0).serve pastToWait
    m.waiting = true ∧ m.v 0 = 7 ∧ (m.cycles false [holding [], holding []]).v 0 = 7 ∧
      m.cycle false (holding [0]) = (m.keyed 0).cycle false (holding [0]) ∧
      (m.cycle false (holding [0])).machine.v 0 = 1 := by
  intro m
  have hwaiting : m.waiting = true := by decide +kernel
  have hclock : ∃ k, (m.timers.update (holding [0]).now).2 = .ok k :=
    exists_ok (by decide +kernel)
  have hcode : ∃ i, decode m.fetch = some i := Option.isSome_iff_exists.mp (by decide +kernel)
  have hwait := keyWait_serve 0 pastToWait hwaiting
  refine ⟨hwaiting, by decide +kernel, by decide +kernel, ?_, by decide +kernel⟩
  exact hwait.takes false (holding [0]) 0 ⟨rfl, hclock, hcode⟩

/-- A clock that cannot be counted with stops the cycle before it takes the key. -/
theorem key_not_taken :
    let env : Surroundings := { holding [5] with now := 1.0 / 0.0 }
    (awaiting [0x61, 0x01]).Reachable ∧ (awaiting [0x61, 0x01]).waiting = true ∧
      env.keys.first = some 5 ∧ (decode (awaiting [0x61, 0x01]).fetch).isSome = true ∧
      (awaiting [0x61, 0x01]).cycle false env ≠
        ((awaiting [0x61, 0x01]).keyed 5).cycle false env := by
  intro env
  refine ⟨⟨0, _, rfl⟩, by decide +kernel, rfl, by decide +kernel, fun h => ?_⟩
  have hstill : ((awaiting [0x61, 0x01]).cycle false env).machine.waiting = true := by
    decide +kernel
  rw [h] at hstill
  revert hstill
  decide +kernel

end Machine

end ChipEight
