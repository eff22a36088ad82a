import ChipEight.Loading
import ChipEight.Machine.Cycle

/-!
What a machine can go through. A request is anything that can be asked of a machine from outside;
`respond` gives the machine it leaves, granted or refused, and a machine is reachable if a row of
requests leads to it from one just switched on.
-/

namespace ChipEight

/-- What can be asked of a machine from outside. -/
inductive Request where
  | load (storage : Storage) (source : ProgramSource)
  | cycle (tracing : Bool) (env : Surroundings)
  /-- One instruction, whatever stands at the program counter. -/
  | execute (opcode : Int) (tracing : Bool) (env : Surroundings)
  | update (now : Float)
  | tick (n : Nat)
  | reset (now : Float)

/-- Bytes are taken if they end inside the memory and refused if they do not. -/
theorem Memory.load_cases (m : Memory) (data : List Byte) (address : Nat) :
    ((data.length : Int) ≤ 4096 - address ∧ m.load data address = .ok (m.copy address data)) ∨
      ((4096 : Int) - address < data.length ∧
        m.load data address = .error (.programTooLarge data.length (4096 - address))) := by
  by_cases h : (4096 : Int) - address < data.length
  · exact .inr ⟨h, m.load_of_lt data address h⟩
  · exact .inl ⟨Int.not_lt.mp h, if_neg h⟩

namespace Machine

/-- The machine that a request leaves. -/
def respond (m : Machine) : Request → Machine
  | .load storage source =>
      match (m.loadFrom storage source).1 with
      | .ok m' => m'
      | .error _ => m
  | .cycle tracing env => (m.cycle tracing env).machine
  | .execute opcode tracing env =>
      match decode opcode with
      | some i => (m.perform tracing env i).machine
      | none => m
  | .update now => { m with timers := (m.timers.update now).1 }
  | .tick n => { m with timers := m.timers.tick n }
  | .reset now => m.reset now

/-- The machine that a row of requests leaves. -/
def serve (m : Machine) (requests : List Request) : Machine := requests.foldl respond m

theorem serve_concat (m : Machine) (history : List Request) (r : Request) :
    m.serve (history ++ [r]) = (m.serve history).respond r := by
  rw [serve, List.foldl_append]
  rfl

/-- Requests lead here from a machine just switched on. -/
def Reachable (m : Machine) : Prop := ∃ now requests, m = (start now).serve requests

/-- What holds of a machine just switched on and survives every request holds of every machine. -/
theorem Reachable.induct {P : Machine → Prop} (hstart : ∀ now, P (start now))
    (hrespond : ∀ m r, P m → P (m.respond r)) {m : Machine} (h : m.Reachable) : P m := by
  obtain ⟨now, requests, rfl⟩ := h
  suffices hs : ∀ m, P m → P (m.serve requests) from hs _ (hstart now)
  induction requests with
  | nil => intro m hm; exact hm
  | cons r requests ih => intro m hm; exact ih _ (hrespond m r hm)

/-- Requests lead on to machines that can be reached. -/
theorem Reachable.serve {m : Machine} (h : m.Reachable) (requests : List Request) :
    (m.serve requests).Reachable := by
  obtain ⟨now, history, rfl⟩ := h
  refine ⟨now, history ++ requests, ?_⟩
  simp only [Machine.serve, List.foldl_append]

theorem Reachable.cycle {m : Machine} (h : m.Reachable) (tracing : Bool) (env : Surroundings) :
    (m.cycle tracing env).machine.Reachable :=
  h.serve [.cycle tracing env]

/-- A program is taken whole, or it is too long and nothing changes. -/
theorem load_cases (m : Machine) (data : List Byte) :
    (data.length ≤ Memory.programLimit ∧ m.load data =
      .ok { m with memory := m.memory.copy Memory.programStart data, program := some data }) ∨
    (Memory.programLimit < data.length ∧ m.load data =
      .error (.programTooLarge data.length Memory.programLimit)) := by
  have hlimit : (Memory.programLimit : Int) = 4096 - Memory.programStart := rfl
  rcases m.memory.load_cases data Memory.programStart with ⟨hroom, hload⟩ | ⟨hlong, hload⟩ <;>
    rw [load, hload]
  · exact .inl ⟨by omega, rfl⟩
  · exact .inr ⟨by omega, rfl⟩

/-- A source is taken whole, or nothing is taken from it. -/
theorem loadFrom_cases (m : Machine) (storage : Storage) (source : ProgramSource) :
    (∃ data, data.length ≤ Memory.programLimit ∧ (m.loadFrom storage source).1 =
      .ok { m with memory := m.memory.copy Memory.programStart data, program := some data }) ∨
    ∃ e, (m.loadFrom storage source).1 = .error e := by
  rw [loadFrom_eq]
  rcases source.toBytes storage with e | data
  · exact .inr ⟨_, rfl⟩
  · change (∃ _, _ ∧ (m.load data).mapError LoadError.fault = _) ∨
      ∃ _, (m.load data).mapError LoadError.fault = _
    rcases m.load_cases data with ⟨hlen, hload⟩ | ⟨-, hload⟩
    · rw [hload]
      exact .inl ⟨data, hlen, rfl⟩
    · rw [hload]
      exact .inr ⟨_, rfl⟩

/-- Starting over clears everything, and only the memory is then filled again. -/
theorem reset_cases (m : Machine) (now : Float) :
    ∃ memory, m.reset now = { m.cleared now with memory := memory } := by
  unfold reset restart
  cases m.program with
  | none => exact ⟨_, rfl⟩
  | some program =>
    dsimp only
    rcases (m.cleared now).memory.load program Memory.programStart with fault | memory
    · exact ⟨_, rfl⟩
    · exact ⟨memory, rfl⟩

/-- A request to load changes memory and program alone, or nothing at all. -/
theorem respond_load_cases (m : Machine) (storage : Storage) (source : ProgramSource) :
    (∃ data, data.length ≤ Memory.programLimit ∧ m.respond (.load storage source) =
      { m with memory := m.memory.copy Memory.programStart data, program := some data }) ∨
    m.respond (.load storage source) = m := by
  rcases m.loadFrom_cases storage source with ⟨data, hlen, hload⟩ | ⟨e, hload⟩
  · exact .inl ⟨data, hlen, by simp only [respond, hload]⟩
  · exact .inr (by simp only [respond, hload])

end Machine

end ChipEight
