import ChipEight.Proofs.Checked

/-!
Within its bounds a machine never strays. Each checked access finds what it asks for, so each
handler does what the instruction does, and `cycleChecked_eq_cycle` says it of whole cycles. Most
stores are of one size by their types; the screen and the stack are where the bounds are needed.
-/

namespace ChipEight

theorem ok_bind {ε α β : Type} (a : α) (f : α → Except ε β) : (Except.ok a >>= f) = f a := rfl

/-- A loop succeeds if its steps do, as long as a property holds that they keep. -/
theorem foldlM_eq_ok {σ α ε : Type} {f : σ → α → Except ε σ} {g : σ → α → σ} (P : σ → Prop)
    (hstep : ∀ s a, P s → f s a = .ok (g s a)) (hkeep : ∀ s a, P s → P (g s a)) :
    ∀ (l : List α) (s : σ), P s → l.foldlM f s = .ok (l.foldl g s)
  | [], _, _ => rfl
  | a :: l, s, h => by
    rw [List.foldlM_cons, hstep s a h]
    exact foldlM_eq_ok P hstep hkeep l (g s a) (hkeep s a h)

/-! ### Accesses -/

namespace Registers

/-- A number within the bounds finds its register. -/
theorem find_of_bounds {number : Int} (h : 0 ≤ number ∧ number < 16) {x : Fin 16}
    (hx : number.toNat = x.val) : find number = .ok x := by
  rw [find, dif_pos h]
  exact congrArg Except.ok (Fin.ext hx)

theorem find_val (x : Fin 16) : find x.val = .ok x :=
  find_of_bounds ⟨by omega, by omega⟩ (by omega)

theorem find_zero : find 0 = .ok firstNumber := rfl

theorem find_flag : find 15 = .ok flagNumber := rfl

/-- The fields of an instruction are numbers of registers since they are single digits of it. -/
theorem find_xNumber (i : Instruction) : find i.xNumber = .ok i.x := by
  unfold Instruction.xNumber Instruction.x
  refine find_of_bounds ⟨by omega, by omega⟩ ?_
  rw [Fin.val_ofNat, Nat.mod_eq_of_lt (by omega)]

theorem find_yNumber (i : Instruction) : find i.yNumber = .ok i.y := by
  unfold Instruction.yNumber Instruction.y
  refine find_of_bounds ⟨by omega, by omega⟩ ?_
  rw [Fin.val_ofNat, Nat.mod_eq_of_lt (by omega)]

end Registers

/-- There is a slot under the pointer of a stack that is not empty. -/
theorem Stack.popChecked_eq (s : Stack) : s.popChecked = .ok s.pop := by
  rw [popChecked]
  rcases s.pop_cases with ⟨a, s', hpop, hpos, hslot, -, -⟩ | ⟨hpop, hzero⟩
  · rw [if_neg (by omega), hslot]
  · rw [if_pos hzero, hpop]

namespace Framebuffer

/-- Coordinates are reduced by the sides of the screen, none of which is zero. -/
theorem IsScreen.toggle?_eq {f : Framebuffer} (h : f.IsScreen) (x y : Int) :
    f.toggle? x y = .ok (f.lit x y, f.toggle x y) := by
  unfold toggle? checkSide checkPixel
  rw [h.width, h.height]
  rfl

/-- The reduced position has a pixel, since a full screen has all its rows at full length. -/
theorem IsScreen.toggleChecked_eq {f : Framebuffer} (h : f.IsScreen) (x y : Int) :
    f.toggleChecked x y = .ok (f.toggle x y, f.lit x y) := by
  obtain ⟨r, hr, b, hb⟩ := h.exists_pixel x y
  rw [toggleChecked, h.toggle?_eq, hr, Option.bind_some, hb]
  rfl

end Framebuffer

namespace Machine

variable {m : Machine}

/-- A register that is found is read. -/
theorem getChecked_of_find {number : Int} {x : Fin 16} (h : Registers.find number = .ok x) :
    m.getChecked number = .ok (m.v x) := by
  rw [getChecked, Registers.read?, h]
  rfl

theorem setChecked_of_find {number : Int} {x : Fin 16} (h : Registers.find number = .ok x)
    (value : Int) : m.setChecked number value = .ok (m.assign x value) := by
  rw [setChecked, Registers.write?, h]
  rfl

/-- Reading cannot leave the memory: the address is reduced by its size first. -/
theorem peekChecked_eq (address : Int) : m.peekChecked address = .ok (m.memory.read address) := by
  have hplace : (address % 4096).toNat < m.memory.cells.toList.length := by
    rw [Vector.length_toList]
    omega
  rw [peekChecked, List.getElem?_eq_getElem hplace]
  rfl

/-- Nor can writing. -/
theorem pokeChecked_eq (address value : Int) :
    m.pokeChecked address value = .ok { m with memory := m.memory.write address value } := by
  have hplace : (address % 4096).toNat < m.memory.cells.toList.length := by
    rw [Vector.length_toList]
    omega
  rw [pokeChecked, List.getElem?_eq_getElem hplace]

theorem fetchChecked_eq : m.fetchChecked = .ok m.fetch := by
  rw [fetchChecked, peekChecked_eq, peekChecked_eq]
  rfl

/-! ### Drawing -/

/-- Toggling pixels one by one keeps the screen full, so that none of them is missed. -/
theorem toggleEach_eq (ps : List (Int × Int)) (drawn : Framebuffer × Bool) (h : drawn.1.IsScreen) :
    toggleEach drawn ps =
      .ok (ps.foldl (fun (g, hit) p => (g.toggle p.1 p.2, hit || g.lit p.1 p.2)) drawn) := by
  refine foldlM_eq_ok (fun drawn => drawn.1.IsScreen) ?_ ?_ ps drawn h
  · intro drawn p hdrawn
    dsimp only
    rw [hdrawn.toggleChecked_eq, ok_bind]
    rfl
  · intro drawn p hdrawn
    exact hdrawn.toggle p.1 p.2

/-- The sprite rows in memory with their numbers. -/
theorem zipIdx_window (memory : Memory) (address : Int) (n : Nat) :
    (memory.window address n).zipIdx =
      (List.range n).map fun (k : Nat) => (memory.read (address + k), k) := by
  refine List.ext_getElem (by simp [Memory.window]) fun k hk hk' => ?_
  simp only [Memory.window, List.getElem_zipIdx, List.getElem_map, List.getElem_range, Nat.zero_add]

/-- Drawing reads each row of the sprite when its turn comes, and none of them is changed by the
rows before. -/
theorem drawChecked_eq (h : m.screen.IsScreen) (x y : Int) (n : Nat) :
    m.drawChecked x y n = .ok (m.screen.draw x y (m.memory.window m.index n)) := by
  unfold Framebuffer.draw Framebuffer.toggleAll Framebuffer.spritePixels
  rw [zipIdx_window, List.foldl_flatMap, List.foldl_map]
  refine foldlM_eq_ok (fun drawn => drawn.1.IsScreen) ?_ ?_ (List.range n) (m.screen, false) h
  · intro drawn k hdrawn
    rw [peekChecked_eq, ok_bind]
    exact toggleEach_eq _ drawn hdrawn
  · intro drawn k hdrawn
    exact hdrawn.foldl_toggle _ _

/-! ### Loops over registers -/

/-- The numbers of the registers up to a last one. -/
theorem map_val_registersTo (x : Fin 16) :
    (registersTo x).map Fin.val = List.range (x.val + 1) := by
  revert x
  decide

/-- Storing registers one by one changes the memory only, so the index and the registers stay what
they were in the beginning. -/
theorem foldl_memory (l : List (Fin 16)) :
    l.foldl (fun (m : Machine) k => { m with memory := m.memory.write (m.index + k.val) (m.v k) }) m
      = { m with memory := l.foldl (fun memory k => memory.write (m.index + k.val) (m.v k)) m.memory }
    := by
  induction l generalizing m with
  | nil => rfl
  | cons k l ih => exact ih

/-- Loading registers one by one changes the registers only. -/
theorem foldl_registers (l : List (Fin 16)) :
    l.foldl (fun (m : Machine) k => m.assign k (m.memory.read (m.index + k.val)).toInt) m
      = { m with registers :=
            l.foldl (fun r k => r.write k (m.memory.read (m.index + k.val)).toInt) m.registers }
    := by
  induction l generalizing m with
  | nil => rfl
  | cons k l ih => exact ih

end Machine

/-! ### Handlers -/

namespace Handler

open Machine Registers

variable (i : Instruction) (m : Machine)

/-- The skips on one register. -/
theorem skipOn_eq (condition : Instruction → Int → Bool) :
    skipOn condition i m = .ok (.ok (m.skipIf (condition i (m.v i.x)))) := by
  rw [skipOn, getChecked_of_find (find_xNumber i)]
  rfl

/-- The skips on two registers. -/
theorem skipOnBoth_eq (condition : Int → Int → Bool) :
    skipOnBoth condition i m = .ok (.ok (m.skipIf (condition (m.v i.x) (m.v i.y)))) := by
  rw [skipOnBoth, getChecked_of_find (find_xNumber i), getChecked_of_find (find_yNumber i)]
  rfl

/-- What gives a register a value that does not depend on it. -/
theorem put_eq (value : Instruction → Machine → Int) :
    put value i m = .ok (.ok (m.assign i.x (value i m))) := by
  rw [put, setChecked_of_find (find_xNumber i)]
  rfl

theorem addByte_eq : addByte i m = .ok (.ok (m.assign i.x ((m.v i.x + i.kk) % 256))) := by
  rw [addByte, getChecked_of_find (find_xNumber i), ok_bind, setChecked_of_find (find_xNumber i)]
  rfl

theorem copy_eq : copy i m = .ok (.ok (m.assign i.x (m.v i.y))) := by
  rw [copy, getChecked_of_find (find_yNumber i), ok_bind, setChecked_of_find (find_xNumber i)]
  rfl

/-- The bitwise operations. -/
theorem combine_eq (op : Byte → Byte → Byte) :
    combine op i m = .ok (.ok (m.combine op i.x i.y)) := by
  rw [combine, getChecked_of_find (find_xNumber i), ok_bind, getChecked_of_find (find_yNumber i),
    ok_bind, setChecked_of_find (find_xNumber i)]
  rfl

/-- The flag goes first, so that a result for the flag register itself is what stays. -/
theorem setWithFlagChecked_eq (value : Int) (flag : Bool) :
    m.setWithFlagChecked i.xNumber value flag = .ok (m.assignWithFlag i.x value flag) := by
  rw [setWithFlagChecked, setChecked_of_find find_flag, ok_bind,
    setChecked_of_find (find_xNumber i)]
  rfl

/-- The shifts. -/
theorem report_eq (value : Int → Int) (flag : Int → Bool) :
    report value flag i m = .ok (.ok (m.assignWithFlag i.x (value (m.v i.x)) (flag (m.v i.x)))) := by
  rw [report, getChecked_of_find (find_xNumber i), ok_bind, setWithFlagChecked_eq]
  rfl

/-- The operations on two registers that report in the flag. -/
theorem reportBoth_eq (value : Int → Int → Int) (flag : Int → Int → Bool) :
    reportBoth value flag i m =
      .ok (.ok (m.assignWithFlag i.x (value (m.v i.x) (m.v i.y)) (flag (m.v i.x) (m.v i.y)))) := by
  rw [reportBoth, getChecked_of_find (find_xNumber i), ok_bind,
    getChecked_of_find (find_yNumber i), ok_bind, setWithFlagChecked_eq]
  rfl

theorem random_eq (numbers : Nat → Int) :
    random numbers i m = .ok (.ok (m.assignRandom numbers i.x i.kk)) := by
  rw [random, setChecked_of_find (find_xNumber i)]
  rfl

theorem jumpOffset_eq :
    jumpOffset i m = .ok (.ok { m with pc := (i.nnn + m.v firstNumber) % 65536 }) := by
  rw [jumpOffset, getChecked_of_find find_zero]
  rfl

/-- What changes the machine by the value of a register. -/
theorem useX_eq (change : Machine → Int → Machine) :
    useX change i m = .ok (.ok (change m (m.v i.x))) := by
  rw [useX, getChecked_of_find (find_xNumber i)]
  rfl

/-- Both coordinates are read before the flag is written, which may be one of them. -/
theorem draw_eq (h : m.screen.IsScreen) : draw i m = .ok (.ok (m.drawSprite i.x i.y i.n)) := by
  rw [draw, getChecked_of_find (find_xNumber i), ok_bind, getChecked_of_find (find_yNumber i),
    ok_bind, drawChecked_eq h, ok_bind]
  dsimp only
  rw [setChecked_of_find find_flag]
  rfl

theorem storeDigits_eq : storeDigits i m = .ok (.ok (m.storeDigits (m.v i.x))) := by
  rw [storeDigits, getChecked_of_find (find_xNumber i), ok_bind, pokeChecked_eq, ok_bind,
    pokeChecked_eq, ok_bind, pokeChecked_eq]
  rfl

/-- A handler that goes through the registers does what the loop over them does. -/
theorem forRegisters_eq {act : Machine → Nat → Except Stray Machine}
    {step : Machine → Fin 16 → Machine} (h : ∀ m k, act m k.val = .ok (step m k)) :
    forRegisters act i m = .ok (.ok ((registersTo i.x).foldl step m)) := by
  have hlast : (i.xNumber + 1).toNat = i.x.val + 1 := by
    unfold Instruction.xNumber Instruction.x
    rw [Fin.val_ofNat, Nat.mod_eq_of_lt (by omega)]
    omega
  rw [forRegisters, hlast, ← map_val_registersTo, List.foldlM_map,
    foldlM_eq_ok (fun _ => True) (fun m k _ => h m k) (fun _ _ _ => trivial) _ _ trivial]
  rfl

theorem storeRegs_eq : storeRegs i m = .ok (.ok (m.storeRegisters i.x)) := by
  have hstep (m : Machine) (k : Fin 16) :
      (do m.pokeChecked (m.index + k.val) (← m.getChecked k.val)) =
        Except.ok { m with memory := m.memory.write (m.index + k.val) (m.v k) } := by
    rw [getChecked_of_find (find_val k), ok_bind, pokeChecked_eq]
  rw [storeRegs, forRegisters_eq i m hstep, foldl_memory]
  rfl

theorem loadRegs_eq : loadRegs i m = .ok (.ok (m.loadRegisters i.x)) := by
  have hstep (m : Machine) (k : Fin 16) :
      (do m.setChecked k.val (← m.peekChecked (m.index + k.val)).toInt) =
        Except.ok (m.assign k (m.memory.read (m.index + k.val)).toInt) := by
    rw [peekChecked_eq, ok_bind, setChecked_of_find (find_val k)]
  rw [loadRegs, forRegisters_eq i m hstep, foldl_registers]
  rfl

theorem ret_eq : ret i m = .ok (m.stack.pop.map fun (a, s) => { m with pc := a, stack := s }) := by
  rw [ret, Stack.popChecked_eq]
  rfl

end Handler

/-! ### The cycle -/

namespace Machine

variable {m : Machine}

/-- An instruction strays nowhere on a full screen. -/
theorem executeChecked_eq_execute (h : m.screen.IsScreen) (keys : Keys) (random : Nat → Int)
    (i : Instruction) : m.executeChecked keys random i = .ok (m.execute keys random i) := by
  unfold executeChecked execute
  cases hop : i.operation
  case clear | jump | loadIndex | waitKey => rfl
  case ret =>
    refine (Handler.ret_eq i m).trans ?_
    rcases m.stack.pop with f | ⟨address, stack⟩ <;> rfl
  case call =>
    change Handler.call i m = _
    rw [Handler.call]
    rcases m.stack.push m.pc with f | stack <;> rfl
  case skipEqByte | skipNeByte | skipPressed | skipReleased => exact Handler.skipOn_eq i m _
  case skipEqReg | skipNeReg => exact Handler.skipOnBoth_eq i m _
  case loadByte | readDelay => exact Handler.put_eq i m _
  case addByte => exact Handler.addByte_eq i m
  case loadReg => exact Handler.copy_eq i m
  case bitOr | bitAnd | bitXor => exact Handler.combine_eq i m _
  case addReg | sub | subFrom => exact Handler.reportBoth_eq i m _ _
  case shiftRight | shiftLeft => exact Handler.report_eq i m _ _
  case jumpOffset => exact Handler.jumpOffset_eq i m
  case random => exact Handler.random_eq i m _
  case draw => exact Handler.draw_eq i m h
  case setDelay | setSound | addIndex | loadGlyph => exact Handler.useX_eq i m _
  case storeDigits => exact Handler.storeDigits_eq i m
  case storeRegs => exact Handler.storeRegs_eq i m
  case loadRegs => exact Handler.loadRegs_eq i m

/-- The key goes to a register that was noted by its number when the wait began. -/
theorem resumeChecked_eq (key : Option Int) : m.resumeChecked key = .ok (m.resume key) := by
  cases key with
  | none => rfl
  | some key =>
    rw [resumeChecked, setChecked_of_find (Registers.find_val m.keyRegister)]
    rfl

/-- A cycle strays nowhere within the bounds. -/
theorem cycleChecked_eq_cycle (h : m.InBounds) (tracing : Bool) (env : Surroundings) :
    m.cycleChecked tracing env = .ok (m.cycle tracing env) := by
  rcases hclock : (m.timers.update env.now).2 with f | k
  · rw [cycleChecked, hclock, cycle_of_error hclock]
  rw [cycleChecked, hclock, cycle_of_ok hclock]
  have hticked := h.ticked env.now
  generalize m.ticked env.now = n at hticked
  change n.stepChecked tracing env = .ok (n.step tracing env)
  rw [stepChecked]
  by_cases hidle : n.Idle env.keys
  · rw [step_of_idle hidle]
    simp only [if_pos (idle_iff.mp hidle)]
    rfl
  simp only [if_neg fun hi => hidle (idle_iff.mpr hi), fetchChecked_eq, ok_bind]
  rcases hcode : decode n.fetch with _ | i
  · rw [step_of_decode_none hidle hcode]
    rfl
  simp only [resumeChecked_eq, ok_bind]
  have hscreen : (n.resume (n.awaitedKey env.keys)).advance.screen.IsScreen :=
    (hticked.poised env.keys).screen
  rw [executeChecked_eq_execute hscreen, ok_bind]
  change Except.ok ((n.poised env.keys).finish tracing i
    ((n.poised env.keys).execute env.keys env.random i)) = Except.ok (n.step tracing env)
  rcases hexec : (n.poised env.keys).execute env.keys env.random i with f | m'
  · rw [step_of_error hidle hcode hexec]
    rfl
  · rw [step_of_ok hidle hcode hexec]
    rfl

end Machine

end ChipEight
