import ChipEight.Proofs.Cycle
import ChipEight.Proofs.Parts
import ChipEight.Proofs.Reach

/-!
The bounds of the machine. Whatever a machine is asked for, whatever clock, keypad and random
numbers answer, every part of it stays inside its size: `InBounds` lists the bounds, one lemma for
each kind of change says that the change keeps them, and `inBounds_serve` puts these together.
-/

namespace ChipEight

namespace Instruction

theorem isWord_nnn (i : Instruction) : IsWord i.nnn := by
  rw [nnn]
  exact ⟨by omega, by omega⟩

end Instruction

namespace Machine

/-- Every part of the machine stays inside its size. -/
structure InBounds (m : Machine) : Prop where
  cells : m.memory.cells.toList.length = 4096 := Vector.length_toList
  bytes : ∀ b ∈ m.memory.cells.toList, IsByte b.toInt := fun b _ => b.isByte_toInt
  registers : ∀ x, IsByte (m.v x)
  pc : IsWord m.pc
  index : IsWord m.index
  stack : m.stack.Words
  screen : m.screen.IsScreen
  timers : m.timers.Bytes
  keyRegister : m.keyRegister.val ≤ 15 := Nat.le_of_lt_succ m.keyRegister.isLt
  program : ∀ data, m.program = some data → data.length ≤ 3584

/-! ### One lemma for each kind of change -/

namespace InBounds

variable {m : Machine}

/-- Any memory will do: its size and its bytes are in its type. -/
theorem withMemory (h : m.InBounds) (memory : Memory) : InBounds { m with memory := memory } :=
  { h with cells := Vector.length_toList, bytes := fun b _ => b.isByte_toInt }

theorem advance (h : m.InBounds) : m.advance.InBounds := { h with pc := isWord_emod _ }

theorem skipIf (h : m.InBounds) (condition : Bool) : (m.skipIf condition).InBounds := by
  cases condition with
  | false => exact h
  | true => exact h.advance

/-- A register takes the lower byte of what it is given. -/
theorem assign (h : m.InBounds) (x : Fin 16) (value : Int) : (m.assign x value).InBounds :=
  { h with registers := Registers.Bytes.write h.registers x value }

theorem assignWithFlag (h : m.InBounds) (x : Fin 16) (value : Int) (flag : Bool) :
    (m.assignWithFlag x value flag).InBounds :=
  (h.assign _ _).assign x value

/-- Drawing keeps the rows of the screen and sets the flag to zero or one. -/
theorem drawSprite (h : m.InBounds) (x y : Fin 16) (n : Nat) : (m.drawSprite x y n).InBounds := by
  let screen := (m.screen.draw (m.v x) (m.v y) (m.memory.window m.index n)).1
  have hdrawn : InBounds { m with screen := screen, drew := true } :=
    { h with screen := h.screen.draw _ _ _ }
  exact hdrawn.assign _ _

theorem assignRandom (h : m.InBounds) (random : Nat → Int) (x : Fin 16) (mask : Int) :
    (m.assignRandom random x mask).InBounds := by
  have hused : InBounds { m with randoms := m.randoms + 1 } := { h with }
  exact hused.assign x _

/-- What is in memory are bytes already. -/
theorem loadRegisters (h : m.InBounds) (x : Fin 16) : (m.loadRegisters x).InBounds :=
  { h with registers := Registers.Bytes.foldl_write h.registers _ _ }

theorem gateBuzzer (h : m.InBounds) : m.gateBuzzer.InBounds := { h with }

/-- The key that a machine has waited for is reduced to a number of a key. -/
theorem resume (h : m.InBounds) (key : Option Int) : (m.resume key).InBounds := by
  cases key with
  | none => exact h
  | some key => exact { h.assign m.keyRegister (key % 16) with }

/-- Timers only ever count down to zero. -/
theorem ticked (h : m.InBounds) (now : Float) : (m.ticked now).InBounds :=
  { h with timers := h.timers.update now }

theorem poised (h : m.InBounds) (keys : Keys) : (m.poised keys).InBounds := (h.resume _).advance

/-! ### The instructions -/

/-- An instruction that completes keeps the bounds. -/
theorem execute (h : m.InBounds) {keys : Keys} {random : Nat → Int} {i : Instruction} {m' : Machine}
    (hexec : m.execute keys random i = .ok m') : m'.InBounds := by
  have hx := h.registers i.x
  unfold Machine.execute at hexec
  cases hop : i.operation <;> simp only [hop] at hexec
  case ret =>
    rcases hpop : m.stack.pop with f | ⟨address, stack⟩
    · rw [hpop] at hexec; cases hexec
    · rw [hpop] at hexec
      obtain ⟨hwords, hword⟩ := h.stack.pop hpop
      cases hexec
      exact { h with pc := hword, stack := hwords }
  case call =>
    rcases hpush : m.stack.push m.pc with f | stack
    · rw [hpush] at hexec; cases hexec
    · rw [hpush] at hexec
      cases hexec
      exact { h with pc := i.isWord_nnn, stack := h.stack.push h.pc hpush }
  all_goals cases hexec
  case clear => exact { h with screen := h.screen.clear }
  case jump => exact { h with pc := i.isWord_nnn }
  case skipEqByte | skipNeByte | skipEqReg | skipNeReg | skipPressed | skipReleased =>
    exact h.skipIf _
  case loadByte | addByte | loadReg | bitOr | bitAnd | bitXor | readDelay => exact h.assign _ _
  case addReg | sub | subFrom | shiftRight | shiftLeft => exact h.assignWithFlag _ _ _
  case loadIndex => exact { h with index := i.isWord_nnn }
  case jumpOffset => exact { h with pc := isWord_emod _ }
  case random => exact h.assignRandom _ _ _
  case draw => exact h.drawSprite _ _ _
  case waitKey => exact { h with keyRegister := Nat.le_of_lt_succ i.x.isLt }
  case setDelay => exact { h with timers := ⟨hx, h.timers.sound⟩ }
  case setSound => exact { h with timers := ⟨h.timers.delay, hx⟩ }
  case addIndex => exact { h with index := isWord_emod _ }
  case loadGlyph =>
    refine { h with index := ?_ }
    simp only [Font.start, Font.glyphSize]
    exact ⟨by omega, by omega⟩
  case storeDigits | storeRegs => exact h.withMemory _
  case loadRegs => exact h.loadRegisters _

theorem perform (h : m.InBounds) (tracing : Bool) (env : Surroundings) (i : Instruction) :
    (m.perform tracing env i).machine.InBounds := by
  rw [Machine.perform]
  rcases hexec : m.execute env.keys env.random i with f | m'
  · exact h
  · exact h.execute hexec

/-! ### Requests -/

/-- A cycle keeps the bounds, however it goes. -/
theorem cycle (h : m.InBounds) (tracing : Bool) (env : Surroundings) :
    (m.cycle tracing env).machine.InBounds := by
  have hran := m.cycle_ran tracing env
  generalize m.cycle tracing env = o at hran
  cases hran with
  | clock f _ => exact h.ticked _
  | idle k _ _ => exact (h.ticked _).gateBuzzer
  | unknown k _ _ _ => exact h.ticked _
  | faults k _ _ i _ f _ => exact (h.ticked _).poised _
  | completes k _ _ i _ m' hexec => exact (((h.ticked _).poised _).execute hexec).gateBuzzer

/-- A new machine is within the bounds. -/
theorem start (now : Float) : (start now).InBounds where
  registers := Registers.bytes_zero
  pc := show IsWord 0x200 by decide
  index := show IsWord 0 by decide
  stack := Stack.words_empty
  screen := Framebuffer.isScreen_screen
  timers := ⟨show IsByte 0 by decide, show IsByte 0 by decide⟩
  program := by rintro data ⟨⟩

/-- Starting over clears all parts but the program, which has the length that it was loaded with. -/
theorem reset (h : m.InBounds) (now : Float) : (m.reset now).InBounds := by
  have hcleared : (m.cleared now).InBounds := { start now with program := h.program }
  obtain ⟨memory, hreset⟩ := m.reset_cases now
  rw [hreset]
  exact hcleared.withMemory memory

/-- Every request keeps the bounds, whether it is granted or refused. -/
theorem respond (h : m.InBounds) (r : Request) : (m.respond r).InBounds := by
  cases r with
  | load storage source =>
    rcases m.respond_load_cases storage source with ⟨data, hlen, hload⟩ | hload
    · rw [hload]
      refine { h.withMemory (m.memory.copy Memory.programStart data) with program := ?_ }
      rintro _ ⟨⟩
      exact hlen
    · rw [hload]
      exact h
  | cycle tracing env => exact h.cycle tracing env
  | execute opcode tracing env =>
    rcases hcode : decode opcode with _ | i
    · simp only [Machine.respond, hcode]
      exact h
    · simp only [Machine.respond, hcode]
      exact h.perform tracing env i
  | update now => exact { h with timers := h.timers.update now }
  | tick n => exact { h with timers := h.timers.tick (Int.natCast_nonneg n) }
  | reset now => exact h.reset now

end InBounds

theorem Reachable.inBounds {m : Machine} (h : m.Reachable) : m.InBounds :=
  h.induct InBounds.start fun _ r hm => hm.respond r

/-- Every machine that requests lead to stays inside its bounds. -/
theorem inBounds_serve (now : Float) (requests : List Request) :
    ((start now).serve requests).InBounds :=
  Reachable.inBounds ⟨now, requests, rfl⟩

end Machine

end ChipEight
