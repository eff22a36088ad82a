import ChipEight.Proofs.Gate
import ChipEight.Proofs.Reset
import ChipEight.Proofs.Trace

/-!
Tracing only watches. With tracing on, a machine replies to every request as it does with tracing
off, save for the lines it prints, and goes through the same states (`replies_traced`). What is
printed is one line for each cycle that gets to an instruction, and the line shows the instruction
of the word that the cycle has fetched, not of what the instruction may have put in its place
(`tracing_watches`).
-/

namespace ChipEight

/-- The request with tracing on or off. -/
def Request.traced (on : Bool) : Request → Request
  | .cycle _ env => .cycle on env
  | .execute opcode _ env => .execute opcode on env
  | r => r

/-- The reply without the lines printed. -/
def Reply.quiet (reply : Reply) : Reply := { reply with printed := [] }

theorem Reply.machine_quiet (reply : Reply) : reply.quiet.machine = reply.machine := rfl

/-- A request says itself whether it is to be traced. -/
theorem Request.exists_traced (r : Request) : ∃ on, r.traced on = r := by
  cases r with
  | cycle tracing env => exact ⟨tracing, rfl⟩
  | execute opcode tracing env => exact ⟨tracing, rfl⟩
  | _ => exact ⟨true, rfl⟩

namespace Machine

section

variable (m : Machine) (env : Surroundings)

/-! ### What tracing leaves alone -/

theorem perform_traced (tracing : Bool) (i : Instruction) :
    (m.perform tracing env i).reply.quiet = (m.perform false env i).reply := by
  rw [perform, perform]
  rcases m.execute env.keys env.random i with f | m' <;> rfl

/-- A cycle that is not traced prints nothing. -/
theorem printed_untraced : (m.cycle false env).printed = [] := by
  have hran := m.cycle_ran false env
  generalize m.cycle false env = o at hran
  cases hran <;> rfl

theorem cycle_traced (tracing : Bool) :
    (m.cycle tracing env).reply.quiet = (m.cycle false env).reply := by
  have hsame : (m.cycle tracing env).failure = (m.cycle false env).failure ∧
      (m.cycle tracing env).machine = (m.cycle false env).machine := by
    refine cycle_matched (R := Eq) (fun _ => .rfl) .rfl rfl rfl rfl ?_ ?_
    · intro i _
      rcases ((m.ticked env.now).poised env.keys).execute env.keys env.random i with f | m'
      · exact .faults f
      · exact .completes rfl
    · rintro n _ rfl
      rfl
  rw [Reply.quiet, Outcome.reply, Outcome.reply, hsame.1, hsame.2, printed_untraced]

theorem reply_traced (r : Request) (on : Bool) :
    (m.reply (r.traced on)).quiet = m.reply (r.traced false) := by
  cases r with
  | load storage source =>
    change (m.reply (.load storage source)).quiet = m.reply (.load storage source)
    rw [reply]
    rcases (m.loadFrom storage source).1 with e | m' <;> rfl
  | cycle tracing env => exact m.cycle_traced env on
  | execute opcode tracing env =>
    change (m.reply (.execute opcode on env)).quiet = m.reply (.execute opcode false env)
    rw [reply, reply]
    rcases decode opcode with _ | i
    · rfl
    · exact m.perform_traced env on i
  | update now =>
    change (m.reply (.update now)).quiet = m.reply (.update now)
    rw [reply]
    rcases m.timers.update now with ⟨timers, f | n⟩ <;> rfl
  | tick n => rfl
  | reset now => rfl

theorem respond_traced (r : Request) (on : Bool) : m.respond (r.traced on) = m.respond r := by
  have hoff (on : Bool) : m.respond (r.traced on) = m.respond (r.traced false) := by
    rw [← reply_machine, ← reply_machine, ← m.reply_traced r on, Reply.machine_quiet]
  obtain ⟨tracing, hr⟩ := r.exists_traced
  calc m.respond (r.traced on) = m.respond (r.traced tracing) := (hoff on).trans (hoff tracing).symm
    _ = m.respond r := by rw [hr]

/-- Whatever is asked of a machine, tracing changes neither a state nor what comes back. -/
theorem replies_traced (requests : List Request) (on : Bool) :
    (m.replies (requests.map (·.traced on))).map Reply.quiet =
      m.replies (requests.map (·.traced false)) := by
  induction requests generalizing m with
  | nil => rfl
  | cons r requests ih =>
    rw [List.map_cons, List.map_cons, replies, replies, List.map_cons, ← Reply.machine_quiet,
      m.reply_traced r on, ih]

/-! ### What is printed -/

/-- A cycle that gets to no instruction prints nothing. -/
theorem printed_of_performed_none (h : m.performed env = none) (tracing : Bool) :
    (m.cycle tracing env).printed = [] := by
  have hran := m.cycle_ran tracing env
  generalize m.cycle tracing env = o at hran
  cases hran with
  | clock => rfl
  | idle => rfl
  | unknown => rfl
  | faults k hclock hidle i hcode =>
    rw [performed_eq_some_iff.mpr ⟨⟨k, hclock⟩, hidle, hcode⟩] at h
    cases h
  | completes k hclock hidle i hcode =>
    rw [performed_eq_some_iff.mpr ⟨⟨k, hclock⟩, hidle, hcode⟩] at h
    cases h

/-- The place and the word of an instruction that a request has a cycle fetch and get to. -/
def fetched : Request → Option (Int × Int)
  | .cycle _ env => (m.performed env).map fun _ => (m.pc, m.fetch)
  | _ => none

/-- The places and the words of the instructions that the cycles among some requests get to. -/
def fetches (m : Machine) : List Request → List (Int × Int)
  | [] => []
  | r :: later => (m.fetched r).toList ++ (m.respond r).fetches later

/-- The line for a word that has been fetched from a place, if the word is an instruction. -/
def lineFor (place word : Int) : Option String :=
  (decode word).map (lineAt (Hex.padded 4 ((place + 2) % 65536 - 2)))

/-- A traced request of a host prints a line for the word that is fetched, and nothing else. -/
theorem printed_reply {r : Request} (hr : r.Hosted) :
    (m.reply (r.traced true)).printed.map some =
      (m.fetched r).toList.map fun f => lineFor f.1 f.2 := by
  cases r with
  | load storage source =>
    change (m.reply (.load storage source)).printed.map some = []
    rw [reply]
    rcases (m.loadFrom storage source).1 with e | m' <;> rfl
  | cycle tracing env =>
    change (m.cycle true env).printed.map some =
      ((m.performed env).map fun _ => (m.pc, m.fetch)).toList.map fun f => lineFor f.1 f.2
    rcases hperformed : m.performed env with _ | i
    · rw [m.printed_of_performed_none env hperformed]
      rfl
    · obtain ⟨-, -, hcode⟩ := performed_eq_some_iff.mp hperformed
      rw [printed_cycle hperformed]
      change [some _] = [lineFor m.pc m.fetch]
      rw [lineFor, hcode]
      rfl
  | reset now => rfl
  | execute | update | tick => exact hr.elim

theorem printed_replies {requests : List Request} (hhosted : ∀ r ∈ requests, r.Hosted) :
    ((m.replies (requests.map (·.traced true))).flatMap Reply.printed).map some =
      (m.fetches requests).map fun f => lineFor f.1 f.2 := by
  induction requests generalizing m with
  | nil => rfl
  | cons r requests ih =>
    obtain ⟨hr, hrest⟩ := List.forall_mem_cons.mp hhosted
    rw [List.map_cons, replies, List.flatMap_cons, List.map_append, m.printed_reply hr,
      reply_machine, respond_traced, ih _ hrest, fetches, List.map_append]

/-- What a traced cycle prints: one line if it gets to an instruction, also to one that is refused
at the stack, and none if it waits for a key or finds no instruction. -/
structure Watched (m : Machine) (env : Surroundings) : Prop where
  reaches : ¬ m.Idle env.keys → (∃ k, (m.timers.update env.now).2 = .ok k) →
    (∃ i, decode m.fetch = some i) → (m.cycle true env).printed.length = 1
  refused : ∀ f, (m.cycle true env).failure = some (.fault f) →
    f.kind = .stackOverflow ∨ f.kind = .stackUnderflow → (m.cycle true env).printed.length = 1
  waits : m.Idle env.keys → (m.cycle true env).printed = []
  unknown : ∀ w, (m.cycle true env).failure = some (.fault (.unknownOpcode w)) →
    (m.cycle true env).printed = []

theorem watched : m.Watched env := by
  have hline {i : Instruction} (h : m.performed env = some i) :
      (m.cycle true env).printed.length = 1 := by
    rw [printed_cycle h, List.length_singleton]
  refine ⟨?_, ?_, fun hidle => m.printed_of_performed_none env (performed_of_idle hidle) true, ?_⟩
  · rintro hidle hclock ⟨i, hcode⟩
    exact hline (performed_eq_some_iff.mpr ⟨hclock, hidle, hcode⟩)
  all_goals
    have hran := m.cycle_ran true env
    generalize m.cycle true env = o at hran
  · intro f hfailure hkind
    cases hran with
    | clock => cases hfailure
    | idle => cases hfailure
    | unknown =>
      obtain rfl := Failure.fault.inj (Option.some.inj hfailure)
      rcases hkind with hkind | hkind <;> cases hkind
    | faults => rfl
    | completes => cases hfailure
  · intro w hfailure
    cases hran with
    | clock => rfl
    | idle => rfl
    | unknown => rfl
    | faults k hclock hidle i hcode f hexec =>
      obtain rfl := Failure.fault.inj (Option.some.inj hfailure)
      rcases execute_error_iff.mp hexec with ⟨-, -, hf⟩ | ⟨-, -, hf⟩ <;> cases hf
    | completes => cases hfailure

end

/-- Tracing only watches. In whatever a host asks of a machine, with tracing on it goes through the
same states as with tracing off and the same comes back, only that nothing is printed then. A traced
cycle prints one line if it gets to an instruction, and none otherwise. In the order in which they
are printed, the lines are those for the words that the cycles have fetched. -/
theorem tracing_watches (m : Machine) {requests : List Request}
    (hhosted : ∀ r ∈ requests, r.Hosted) :
    (m.replies (requests.map (·.traced true))).map Reply.quiet =
      m.replies (requests.map (·.traced false)) ∧
    (∀ (m' : Machine) (env : Surroundings), m'.Watched env) ∧
    ((m.replies (requests.map (·.traced true))).flatMap Reply.printed).map some =
      (m.fetches requests).map fun f => lineFor f.1 f.2 :=
  ⟨m.replies_traced requests true, watched, m.printed_replies hhosted⟩

/-- The third instruction overwrites itself, and the fourth one is refused. -/
def overwriting : List Request :=
  [.load .boundless (.bytes [0x60, 0x00, 0xA2, 0x04, 0xF0, 0x55, 0x00, 0xEE]),
    .cycle false (holding []), .cycle false (holding []), .cycle false (holding []),
    .cycle false (holding [])]

theorem tracing_watches_overwriting :
    (((start 0).replies (overwriting.map (·.traced true))).flatMap Reply.printed).map some =
        ["mem_addr: 0x0200    instruction: LD V0, 0x00",
          "mem_addr: 0x0202    instruction: LD I, 0x204",
          "mem_addr: 0x0204    instruction: LD [I], V0",
          "mem_addr: 0x0206    instruction: RET"].map some ∧
      ((start 0).serve overwriting).memory.read 0x204 = 0 := by
  have hfetches : (start 0).fetches overwriting =
      [(0x200, 0x6000), (0x202, 0xA204), (0x204, 0xF055), (0x206, 0x00EE)] := by decide +kernel
  have hhosted : ∀ r ∈ overwriting, r.Hosted := by
    simp [overwriting, Request.Hosted]
  obtain ⟨-, -, hprinted⟩ := tracing_watches (start 0) hhosted
  refine ⟨?_, by decide +kernel⟩
  rw [hprinted, hfetches]
  decide

end Machine

end ChipEight
