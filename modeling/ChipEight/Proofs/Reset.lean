import ChipEight.Proofs.Bounds
import ChipEight.Proofs.Faults
import ChipEight.Proofs.Frame
import ChipEight.Proofs.Randoms

/-!
A reset forgets everything but the program. A value that every step replaces or leaves is in the end
the one it was replaced with last (`option_foldl`), so that the program a machine remembers is the
one last loaded with success (`program_serve`), and a reset looks at nothing else: it leaves the
machine that is switched on at that moment and given this program. Only the place in the sequence of
random numbers goes on, and `replies_shift` says that nothing a machine answers later depends on
that place.
-/

namespace ChipEight

/-! ### The last word -/

/-- What the last element of a list says, of those that say anything. -/
def lastSaid {α β : Type} (said : α → Option β) (l : List α) : Option β :=
  (l.filterMap said).getLast?

theorem lastSaid_cons {α β : Type} (said : α → Option β) (a : α) (l : List α) :
    lastSaid said (a :: l) = (lastSaid said l).or (said a) := by
  unfold lastSaid
  cases hsaid : said a with
  | none => rw [List.filterMap_cons_none hsaid, Option.or_none]
  | some b =>
    rw [List.filterMap_cons_some hsaid, List.getLast?_cons]
    cases (l.filterMap said).getLast? <;> rfl

/-- A value that each step replaces with what it says, or leaves if it says nothing, is in the end
what was said last. -/
theorem option_foldl {σ α β : Type} {step : σ → α → σ} (value : σ → Option β)
    {said : α → Option β} (hstep : ∀ s a, value (step s a) = (said a).or (value s)) (l : List α)
    (s : σ) : value (l.foldl step s) = (lastSaid said l).or (value s) := by
  induction l generalizing s with
  | nil => rfl
  | cons a l ih => rw [List.foldl_cons, ih, hstep, lastSaid_cons, Option.or_assoc]

/-! ### The last program -/

/-- The bytes that a request loads, if it is one to load and they fit. -/
def Request.loaded? : Request → Option (List Byte)
  | .load storage source =>
      match source.toBytes storage with
      | .ok data => if data.length ≤ Memory.programLimit then some data else none
      | .error _ => none
  | _ => none

/-- The bytes of the last request that loads some. -/
def lastLoaded (history : List Request) : Option (List Byte) :=
  (history.filterMap Request.loaded?).getLast?

namespace Machine

/-- Loading succeeds exactly with bytes that fit, whatever the machine. -/
theorem toOption_loadFrom (m : Machine) (storage : Storage) (source : ProgramSource) :
    (m.loadFrom storage source).1.toOption = (Request.load storage source).loaded?.map fun data =>
      { m with memory := m.memory.copy Memory.programStart data, program := some data } := by
  rw [loadFrom_eq, Request.loaded?.eq_1]
  rcases source.toBytes storage with e | data
  · rfl
  change ((m.load data).mapError LoadError.fault).toOption = _
  dsimp only
  rcases m.load_cases data with ⟨hfits, hload⟩ | ⟨hlong, hload⟩
  · rw [hload, if_pos hfits]
    rfl
  · rw [hload, if_neg (Nat.not_le_of_lt hlong)]
    rfl

theorem reset_program (m : Machine) (now : Float) : (m.reset now).program = m.program := by
  obtain ⟨memory, hreset⟩ := m.reset_cases now
  rw [hreset]
  rfl

/-- Only a request that loads something changes the program. -/
theorem program_respond (m : Machine) (r : Request) :
    (m.respond r).program = r.loaded?.or m.program := by
  cases r with
  | load storage source =>
    have hload := m.toOption_loadFrom storage source
    rw [respond]
    rcases hfound : (m.loadFrom storage source).1 with e | m' <;> rw [hfound] at hload
    · rw [Option.map_eq_none_iff.mp hload.symm]
      rfl
    · obtain ⟨data, hloaded, rfl⟩ := Option.map_eq_some_iff.mp hload.symm
      rw [hloaded]
      rfl
  | cycle tracing env => exact (m.cycle_kept tracing env).program
  | execute opcode tracing env =>
    change _ = m.program
    rw [respond]
    rcases decode opcode with _ | i
    · rfl
    · dsimp only
      rw [perform]
      rcases hexec : m.execute env.keys env.random i with f | m'
      · rfl
      · exact (execute_kept hexec).program
  | update now => rfl
  | tick n => rfl
  | reset now => exact m.reset_program now

/-- A machine remembers what was last loaded. -/
theorem program_serve (m : Machine) (history : List Request) :
    (m.serve history).program = (lastLoaded history).or m.program :=
  option_foldl (fun m : Machine => m.program) program_respond history m

/-! ### A reset and a fresh machine -/

/-- A machine just switched on and then given a program, if there is one. -/
def startWith (now : Float) : Option (List Byte) → Except Fault Machine
  | none => .ok (start now)
  | some program => (start now).load program

/-- A machine just switched on that holds a program, if there is one. -/
def fresh (now : Float) (program : Option (List Byte)) : Machine :=
  match program with
  | none => start now
  | some data =>
      { start now with
        memory := (start now).memory.copy Memory.programStart data
        program := some data }

theorem startWith_of_fits {program : Option (List Byte)}
    (h : ∀ data, program = some data → data.length ≤ Memory.programLimit) (now : Float) :
    startWith now program = .ok (fresh now program) := by
  cases program with
  | none => rfl
  | some data =>
    rcases (start now).load_cases data with ⟨-, hload⟩ | ⟨hlong, -⟩
    · exact hload
    · exact absurd (h data rfl) (Nat.not_le_of_lt hlong)

theorem fresh_randoms (now : Float) (program : Option (List Byte)) :
    (fresh now program).randoms = 0 := by
  cases program <;> rfl

/-- The parts that are cleared one by one are those of a machine just switched on. -/
theorem cleared_eq (m : Machine) (now : Float) :
    m.cleared now = { start now with program := m.program, randoms := m.randoms } := rfl

/-- Whatever the machine has been through, starting over succeeds with a program that fits, and
leaves a fresh machine that holds the program. -/
theorem restart_of_fits {m : Machine}
    (h : ∀ data, m.program = some data → data.length ≤ Memory.programLimit) (now : Float) :
    m.restart now = ((fresh now m.program).shift m.randoms, none) := by
  rw [shift, fresh_randoms, Nat.zero_add, restart, cleared_eq]
  cases hprogram : m.program with
  | none => rfl
  | some data =>
    have hfits := h data hprogram
    rcases Memory.initial.load_cases data Memory.programStart with ⟨-, hload⟩ | ⟨hlong, -⟩
    · have hcleared : (start now).memory.load data Memory.programStart =
          .ok (Memory.initial.copy Memory.programStart data) := hload
      simp only [hcleared]
      rfl
    · simp only [Memory.programLimit, Memory.size, Memory.programStart] at hfits hlong
      omega

theorem reset_eq {m : Machine}
    (h : ∀ data, m.program = some data → data.length ≤ Memory.programLimit) (now : Float) :
    m.reset now = (fresh now m.program).shift m.randoms := by
  rw [reset, restart_of_fits h]

/-- Starting over again clears and loads the same once more. -/
theorem reset_reset (m : Machine) (now : Float) : (m.reset now).reset now = m.reset now := by
  obtain ⟨memory, hreset⟩ := m.reset_cases now
  calc (m.reset now).reset now = { m.cleared now with memory := memory }.reset now := by
        rw [hreset]
    _ = m.reset now := rfl

end Machine

/-! ### Answers -/

/-- What comes back from a request. -/
inductive Answer where
  | done
  | ticks (n : Int)
  | refused (error : LoadError)
  | failed (failure : Failure)

/-- The machine that a request leaves, the lines printed and what comes back. -/
structure Reply where
  machine : Machine
  printed : List String
  answer : Answer

/-- What comes back from an operation that ends in this way. -/
def Outcome.reply (o : Outcome) : Reply := ⟨o.machine, o.printed, o.failure.elim .done .failed⟩

/-- The reply with so many more random numbers used before. -/
def Reply.shift (reply : Reply) (used : Nat) : Reply :=
  { reply with machine := reply.machine.shift used }

/-- The same request for a machine that has used some random numbers before. -/
def Request.after (used : Nat) : Request → Request
  | .cycle tracing env => .cycle tracing (env.after used)
  | .execute opcode tracing env => .execute opcode tracing (env.after used)
  | r => r

namespace Machine

/-- All that a request brings about. -/
def reply (m : Machine) : Request → Reply
  | .load storage source =>
      match (m.loadFrom storage source).1 with
      | .ok m' => ⟨m', [], .done⟩
      | .error e => ⟨m, [], .refused e⟩
  | .cycle tracing env => (m.cycle tracing env).reply
  | .execute opcode tracing env =>
      match decode opcode with
      | some i => (m.perform tracing env i).reply
      | none => ⟨m, [], .failed (.fault (.unknownOpcode opcode))⟩
  | .update now =>
      match m.timers.update now with
      | (timers, .ok n) => ⟨{ m with timers := timers }, [], .ticks n⟩
      | (timers, .error f) => ⟨{ m with timers := timers }, [], .failed (.clock f)⟩
  | .tick n => ⟨{ m with timers := m.timers.tick n }, [], .done⟩
  | .reset now =>
      ⟨m.reset now, [], (m.restart now).2.elim .done fun fault => .failed (.fault fault)⟩

/-- The replies to a row of requests, each of the machine that the one before has left. -/
def replies (m : Machine) : List Request → List Reply
  | [] => []
  | r :: later => m.reply r :: (m.reply r).machine.replies later

theorem reply_machine (m : Machine) (r : Request) : (m.reply r).machine = m.respond r := by
  cases r with
  | load storage source =>
    rw [reply, respond]
    rcases (m.loadFrom storage source).1 with e | m' <;> rfl
  | execute opcode tracing env =>
    rw [reply, respond]
    rcases decode opcode with _ | i <;> rfl
  | update now =>
    rw [reply, respond]
    rcases m.timers.update now with ⟨timers, f | n⟩ <;> rfl
  | _ => rfl

section

variable {m : Machine} {used : Nat}

theorem loadFrom_shift (storage : Storage) (source : ProgramSource) :
    ((m.shift used).loadFrom storage source).1 =
      (m.loadFrom storage source).1.map (·.shift used) := by
  rw [loadFrom_eq, loadFrom_eq]
  rcases source.toBytes storage with e | data
  · rfl
  change Except.mapError _ (m.memory.load data Memory.programStart >>= _) =
    (Except.mapError _ (m.memory.load data Memory.programStart >>= _)).map _
  rcases m.memory.load data Memory.programStart with f | memory <;> rfl

theorem restart_shift (now : Float) :
    (m.shift used).restart now = ((m.restart now).1.shift used, (m.restart now).2) := by
  simp only [restart, cleared, shift]
  cases m.program with
  | none => rfl
  | some program =>
    dsimp only
    rcases Memory.initial.load program Memory.programStart with fault | memory <;> rfl

/-- A reply does not depend on where the machine stands in its sequence of random numbers. -/
theorem reply_shift (r : Request) :
    (m.shift used).reply (r.after used) = (m.reply r).shift used := by
  cases r with
  | load storage source =>
    change (m.shift used).reply (.load storage source) = _
    rw [reply, reply, loadFrom_shift]
    rcases (m.loadFrom storage source).1 with e | m' <;> rfl
  | cycle tracing env => exact congrArg Outcome.reply (cycle_shift tracing env)
  | execute opcode tracing env =>
    change (m.shift used).reply (.execute opcode tracing (env.after used)) = _
    rw [reply, reply]
    rcases decode opcode with _ | i
    · rfl
    · exact congrArg Outcome.reply (perform_shift tracing env i)
  | update now =>
    change (m.shift used).reply (.update now) = _
    rw [reply, reply]
    change (match m.timers.update now with | (timers, .ok n) => _ | (timers, .error f) => _) = _
    rcases m.timers.update now with ⟨timers, f | n⟩ <;> rfl
  | tick n => rfl
  | reset now =>
    change (m.shift used).reply (.reset now) = _
    rw [reply, reply, reset, restart_shift]
    rfl

theorem replies_shift (later : List Request) :
    (m.shift used).replies (later.map (·.after used)) = (m.replies later).map (·.shift used) := by
  induction later generalizing m with
  | nil => rfl
  | cons r later ih =>
    rw [List.map_cons, replies, replies, List.map_cons, reply_shift]
    exact congrArg _ ih

end

/-! ### What a reset forgets -/

/-- Whatever is asked of these two machines, the random numbers starting for each of them where it
stands, they reply the same; only the places in the sequences stay apart. -/
def Alike (m m' : Machine) : Prop :=
  ∀ later : List Request, ∃ replies : List Reply,
    m.replies (later.map (·.after m.randoms)) = replies.map (·.shift m.randoms) ∧
      m'.replies (later.map (·.after m'.randoms)) = replies.map (·.shift m'.randoms)

theorem replies_of_shift {m : Machine} (h : m.randoms = 0) (used : Nat) (later : List Request) :
    (m.shift used).replies (later.map (·.after (m.shift used).randoms)) =
      (m.replies later).map (·.shift (m.shift used).randoms) := by
  have hused : (m.shift used).randoms = used := by rw [shift, h, Nat.zero_add]
  rw [hused]
  exact replies_shift later

theorem alike_of_shift {m : Machine} (h : m.randoms = 0) (used used' : Nat) :
    Alike (m.shift used) (m.shift used') :=
  fun later => ⟨m.replies later, replies_of_shift h used later, replies_of_shift h used' later⟩

theorem program_serve_start (on : Float) (history : List Request) :
    ((start on).serve history).program = lastLoaded history :=
  (program_serve _ history).trans (Option.or_none ..)

/-- A program that was loaded fits. -/
theorem fits_lastLoaded (on : Float) (history : List Request) :
    ∀ data, lastLoaded history = some data → data.length ≤ Memory.programLimit := by
  have hreach : ((start on).serve history).Reachable := ⟨on, history, rfl⟩
  rw [← program_serve_start on]
  exact hreach.inBounds.program

/-- The machine after a history starts over without fault. -/
theorem restart_serve (on : Float) (history : List Request) (now : Float) :
    ((start on).serve history).restart now =
      ((fresh now (lastLoaded history)).shift ((start on).serve history).randoms, none) := by
  have hprogram := program_serve_start on history
  rw [restart_of_fits (hprogram ▸ fits_lastLoaded on history), hprogram]

theorem reset_serve (on : Float) (history : List Request) (now : Float) :
    ((start on).serve history).reset now =
      (fresh now (lastLoaded history)).shift ((start on).serve history).randoms := by
  rw [reset, restart_serve]

/-- A reset completes and leaves the machine that is switched on at that moment and given the
program last loaded, whatever has been loaded, run or refused before. So two machines with one last
program cannot be told apart once both start over, and starting over twice changes nothing more. -/
theorem reset_forgets (on : Float) (history : List Request) (now : Float) :
    (((start on).serve history).restart now).2 = none ∧
      (startWith now (lastLoaded history)).map (·.shift ((start on).serve history).randoms) =
        .ok (((start on).serve history).reset now) ∧
      (∀ on' history', lastLoaded history' = lastLoaded history →
        Alike (((start on).serve history).reset now) (((start on').serve history').reset now)) ∧
      (((start on).serve history).reset now).reset now = ((start on).serve history).reset now := by
  refine ⟨?_, ?_, ?_, reset_reset _ now⟩
  · rw [restart_serve]
  · rw [reset_serve, startWith_of_fits (fits_lastLoaded on history)]
    rfl
  · intro on' history' hsame
    rw [reset_serve, reset_serve, hsame]
    exact alike_of_shift (fresh_randoms ..) _ _

/-- A past with two programs, the first of them longer, and a third that is refused. By its end a
random number has been used and a key is awaited. -/
def pastOfTwo : List Request :=
  [.load .boundless (.bytes [0x12, 0x00, 0x60, 0x01, 0x61, 0x02]), .cycle false (holding []),
    .load .boundless (.bytes [0xC0, 0xFF, 0xF0, 0x0A]), .load .boundless (.count 4000), .reset 2,
    .cycle false (holding []), .cycle false (holding [])]

/-- A past with one program. -/
def pastOfOne : List Request := [.load .boundless (.bytes [0xC0, 0xFF, 0xF0, 0x0A])]

theorem reset_forgets_pastOfTwo :
    lastLoaded pastOfOne = lastLoaded pastOfTwo ∧
      ((start 0).serve pastOfTwo).waiting = true ∧ ((start 0).serve pastOfTwo).randoms = 1 ∧
      Alike (((start 0).serve pastOfTwo).reset 5) (((start 3).serve pastOfOne).reset 5) := by
  have hsame : lastLoaded pastOfOne = lastLoaded pastOfTwo := by decide +kernel
  exact ⟨hsame, by decide +kernel, by decide +kernel,
    (reset_forgets 0 pastOfTwo 5).2.2.1 3 pastOfOne hsame⟩

end Machine

end ChipEight
