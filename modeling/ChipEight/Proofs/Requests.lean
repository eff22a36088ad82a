import ChipEight.Proofs.Footprint
import ChipEight.Proofs.Waiting

/-!
What a request makes of a machine. The instruction that it gets to finds the machine as it was, but
for the timers, the program counter and an awaited key (`found`), and what the request leaves is
what the instruction has made of that (`respond_of_requested`). So a request keeps I and every cell
that its instruction does not write, and a row of requests that pass some cells by leaves these
cells and I as they were (`PassBy.serve`).
-/

namespace ChipEight

/-- The request belongs to the run of a program: it neither loads one nor starts over. -/
def Request.Runs : Request → Prop
  | .load _ _ | .reset _ => False
  | _ => True

namespace Machine

variable {m n : Machine} {r : Request} {i : Instruction}

/-! ### What an instruction finds -/

/-- The machine as the instruction of a request finds it. -/
def found (m : Machine) : Request → Machine
  | .cycle _ env => (m.ticked env.now).poised env.keys
  | _ => m

@[simp] theorem found_memory (m : Machine) (r : Request) : (m.found r).memory = m.memory := by
  cases r with
  | cycle tracing env => exact poised_memory _ _
  | _ => rfl

@[simp] theorem found_index (m : Machine) (r : Request) : (m.found r).index = m.index := by
  cases r with
  | cycle tracing env => exact poised_index _ _
  | _ => rfl

@[simp] theorem found_screen (m : Machine) (r : Request) : (m.found r).screen = m.screen := by
  cases r with
  | cycle tracing env => exact poised_screen _ _
  | _ => rfl

theorem InBounds.found (h : m.InBounds) (r : Request) : (m.found r).InBounds := by
  cases r with
  | cycle tracing env => exact (h.ticked _).poised _
  | _ => exact h

/-- The request finds the registers as they are: it is no cycle that takes an awaited key first. -/
def Directly (m : Machine) : Request → Prop
  | .cycle _ env => m.awaitedKey env.keys = none
  | _ => True

theorem Directly.v_found (h : m.Directly r) (x : Fin 16) : (m.found r).v x = m.v x := by
  cases r with
  | cycle tracing env =>
    have hkey : (m.ticked env.now).awaitedKey env.keys = none := h
    rw [found, poised, hkey]
    rfl
  | _ => rfl

/-- No key is awaited behind a cycle that gets to an instruction other than the wait for one. -/
theorem directly_cycle {tracing : Bool} {env : Surroundings}
    (h : m.requested (.cycle tracing env) = some i) (hop : i.operation ≠ .waitKey) (r : Request) :
    (m.respond (.cycle tracing env)).Directly r := by
  have hwaiting : (m.respond (.cycle tracing env)).waiting = false := by
    refine ((cycle_reserved h tracing).waiting.trans (if_neg hop)).trans ?_
    exact poised_waiting (performed_eq_some_iff.mp h).2.1
  cases r with
  | cycle tracing' env' => exact if_neg (hwaiting ▸ Bool.false_ne_true)
  | _ => trivial

/-! ### What an instruction leaves -/

/-- A request that gets to an instruction carries it out, and no more than the buzzer follows. -/
theorem respond_of_requested (h : m.requested r = some i) :
    ∃ tracing env b,
      m.respond r = { ((m.found r).perform tracing env i).machine with buzzer := b } := by
  cases r with
  | cycle tracing env =>
    obtain ⟨b, hcycle⟩ := cycle_of_performed h tracing
    exact ⟨tracing, env, b, congrArg Outcome.machine hcycle⟩
  | execute opcode tracing env =>
    have hcode : decode opcode = some i := h
    refine ⟨tracing, env, (m.perform tracing env i).machine.buzzer, ?_⟩
    simp only [respond, hcode]
    rfl
  | load storage source => cases h
  | update now => cases h
  | tick k => cases h
  | reset now => cases h

/-- An instruction that does the same whatever it is told has done that, up to the buzzer. -/
theorem respond_of_execute (h : m.requested r = some i)
    (hexec : ∀ keys random, (m.found r).execute keys random i = .ok n) :
    ∃ b, m.respond r = { n with buzzer := b } := by
  obtain ⟨tracing, env, b, hrespond⟩ := respond_of_requested h
  refine ⟨b, ?_⟩
  rw [hrespond, perform, hexec]

/-- The request gets to an instruction with this operation and this first operand. -/
def GetsTo (m : Machine) (operation : Operation) (x : Fin 16) (r : Request) : Prop :=
  ∃ i, m.requested r = some i ∧ i.operation = operation ∧ i.x = x

theorem GetsTo.respond {operation : Operation} {x : Fin 16} (h : m.GetsTo operation x r)
    (hexec : ∀ i keys random, i.operation = operation → i.x = x →
      (m.found r).execute keys random i = .ok n) :
    ∃ b, m.respond r = { n with buzzer := b } := by
  obtain ⟨i, hi, hop, hx⟩ := h
  exact respond_of_execute hi fun keys random => hexec i keys random hop hx

/-- A request keeps the cells that its instruction does not write, and I unless that is set. -/
theorem respond_keeps (h : m.requested r = some i) :
    (∀ a, ¬ Memory.Within m.index i.stores a →
      (m.respond r).memory.read a = m.memory.read a) ∧
    (i.operation ∉ [.loadIndex, .addIndex, .loadGlyph] → (m.respond r).index = m.index) := by
  obtain ⟨tracing, env, b, hrespond⟩ := respond_of_requested h
  rw [hrespond, perform]
  rcases hexec : (m.found r).execute env.keys env.random i with f | m'
  · exact ⟨fun a _ => congrArg (Memory.read · a) (m.found_memory r), fun _ => m.found_index r⟩
  · have hfoot := execute_footprint hexec
    refine ⟨fun a ha => ?_, fun hi => (hfoot.index hi).trans (m.found_index r)⟩
    rw [← m.found_index r] at ha
    exact (hfoot.memory a ha).trans (congrArg (Memory.read · a) (m.found_memory r))

/-- Without an instruction, the run of a program changes neither a cell nor I. -/
theorem respond_of_requested_none (h : m.requested r = none) (hruns : r.Runs) :
    (m.respond r).memory = m.memory ∧ (m.respond r).index = m.index := by
  cases r with
  | cycle tracing env =>
    obtain ⟨b, hcycle⟩ := cycle_of_performed_none h tracing
    rw [respond, hcycle]
    exact ⟨rfl, rfl⟩
  | execute opcode tracing env =>
    have hcode : decode opcode = none := h
    have hsame : m.respond (.execute opcode tracing env) = m := by simp only [respond, hcode]
    rw [hsame]
    exact ⟨rfl, rfl⟩
  | update now => exact ⟨rfl, rfl⟩
  | tick k => exact ⟨rfl, rfl⟩
  | load storage source => cases hruns
  | reset now => cases hruns

/-! ### Requests that pass cells by -/

variable {start : Int} {count : Nat}

/-- The request belongs to the run of a program, and its instruction, if it gets to one, writes
neither I nor any of so many cells from an address on. -/
structure PassesBy (m : Machine) (start : Int) (count : Nat) (r : Request) : Prop where
  runs : r.Runs
  index : ∀ i, m.requested r = some i → i.operation ∉ [.loadIndex, .addIndex, .loadGlyph]
  cells : ∀ i, m.requested r = some i →
    ∀ a, Memory.Within start count a → ¬ Memory.Within m.index i.stores a

/-- Each of the requests, as its turn comes, passes the cells and I by. -/
def PassBy (m : Machine) (start : Int) (count : Nat) : List Request → Prop
  | [] => True
  | r :: later => m.PassesBy start count r ∧ (m.respond r).PassBy start count later

theorem PassesBy.respond (h : m.PassesBy start count r) :
    (m.respond r).index = m.index ∧
      ∀ a, Memory.Within start count a → (m.respond r).memory.read a = m.memory.read a := by
  rcases hr : m.requested r with _ | i
  · obtain ⟨hmemory, hindex⟩ := respond_of_requested_none hr h.runs
    exact ⟨hindex, fun a _ => by rw [hmemory]⟩
  · obtain ⟨hmemory, hindex⟩ := respond_keeps hr
    exact ⟨hindex (h.index i hr), fun a ha => hmemory a (h.cells i hr a ha)⟩

/-- Cells that a row of requests passes by hold in the end what they held before. -/
theorem PassBy.serve {requests : List Request} (h : m.PassBy start count requests) :
    (m.serve requests).index = m.index ∧
      ∀ a, Memory.Within start count a → (m.serve requests).memory.read a = m.memory.read a := by
  induction requests generalizing m with
  | nil => exact ⟨rfl, fun _ _ => rfl⟩
  | cons r requests ih =>
    obtain ⟨hindex, hmemory⟩ := h.1.respond
    obtain ⟨hlast, hread⟩ := ih h.2
    exact ⟨hlast.trans hindex, fun a ha => (hread a ha).trans (hmemory a ha)⟩

theorem runs_of_requested (h : m.requested r = some i) : r.Runs := by
  cases r with
  | load storage source => cases h
  | reset now => cases h
  | _ => trivial

/-- An instruction that stores nothing and does not set I passes every cell by. -/
theorem passesBy_of_stores (h : m.requested r = some i) (hstores : i.stores = 0)
    (hindex : i.operation ∉ [.loadIndex, .addIndex, .loadGlyph]) (start : Int) (count : Nat) :
    m.PassesBy start count r := by
  refine ⟨runs_of_requested h, fun j hj => ?_, fun j hj a _ => ?_⟩
  · obtain rfl := Option.some.inj (h.symm.trans hj)
    exact hindex
  · obtain rfl := Option.some.inj (h.symm.trans hj)
    rw [hstores, Memory.not_within_iff]
    exact nofun

end Machine

end ChipEight
