import ChipEight.Proofs.Bounds

/-!
The machine with every access checked. A register must have its number, a cell, a slot and a pixel
must be there, and an operation must have a handler in the table that is searched for it; where one
of these is missing the cycle ends in a `Stray` access. That a machine within its bounds never
strays is the subject of the module after this one.
-/

namespace ChipEight

/-- Something that is not there. -/
inductive Stray where
  | register (error : RegisterError)
  | cell (place : Nat)
  | slot (place : Nat)
  | pixel (error : PixelError)
  /-- No handler carries the operation out. -/
  | handler (operation : Operation)
  deriving DecidableEq, Repr

/-- What carries out an instruction: it may stray, and it may fault. -/
abbrev Handler := Instruction → Machine → Except Stray (Except Fault Machine)

namespace Instruction

/-- The second nibble as a register number. -/
def xNumber (i : Instruction) : Int := i.opcode / 256 % 16

/-- The third nibble as a register number. -/
def yNumber (i : Instruction) : Int := i.opcode / 16 % 16

end Instruction

/-- Toggles a pixel that is there and tells whether it was lit. -/
def Framebuffer.toggleChecked (f : Framebuffer) (x y : Int) : Except Stray (Framebuffer × Bool) := do
  let (hit, g) ← (f.toggle? x y).mapError .pixel
  match f.rows[f.row y]?.bind (·[f.column x]?) with
  | none => .error (.pixel .noPixel)
  | some _ => return (g, hit)

/-- Takes the newest address off, out of a slot that is there. -/
def Stack.popChecked (s : Stack) : Except Stray (Except Fault (Int × Stack)) :=
  if s.used = 0 then .ok (.error .stackUnderflow)
  else
    match s.slots[s.used - 1]? with
    | none => .error (.slot (s.used - 1))
    | some _ => .ok s.pop

namespace Machine

/-- The value of the register with a number. -/
def getChecked (m : Machine) (number : Int) : Except Stray Int :=
  (m.registers.read? number).mapError .register

/-- Puts a value into the register with a number. -/
def setChecked (m : Machine) (number value : Int) : Except Stray Machine :=
  ((m.registers.write? number value).mapError .register).map fun r => { m with registers := r }

/-- Puts a report into the flag and then a result into the register with a number. -/
def setWithFlagChecked (m : Machine) (number value : Int) (flag : Bool) : Except Stray Machine := do
  (← m.setChecked 15 flag.toInt).setChecked number value

/-- The byte in the cell that an address means. -/
def peekChecked (m : Machine) (address : Int) : Except Stray Byte :=
  match m.memory.cells.toList[(address % 4096).toNat]? with
  | none => .error (.cell (address % 4096).toNat)
  | some b => .ok b

/-- Puts the low byte of a value into the cell that an address means. -/
def pokeChecked (m : Machine) (address value : Int) : Except Stray Machine :=
  match m.memory.cells.toList[(address % 4096).toNat]? with
  | none => .error (.cell (address % 4096).toNat)
  | some _ => .ok { m with memory := m.memory.write address value }

/-- The two bytes at the program counter, high byte first. -/
def fetchChecked (m : Machine) : Except Stray Int := do
  return (← m.peekChecked m.pc).toInt * 256 + (← m.peekChecked (m.pc + 1)).toInt

/-- Toggles pixels one after another and tells whether any of them was lit at its turn. -/
def toggleEach (drawn : Framebuffer × Bool) (ps : List (Int × Int)) :
    Except Stray (Framebuffer × Bool) :=
  ps.foldlM (fun (g, hit) p => do
    let (g, lit) ← g.toggleChecked p.1 p.2
    return (g, hit || lit)) drawn

/-- Draws the rows of the sprite at I one after another. -/
def drawChecked (m : Machine) (x y : Int) (n : Nat) : Except Stray (Framebuffer × Bool) :=
  (List.range n).foldlM (fun drawn (k : Nat) => do
    let bits ← m.peekChecked (m.index + k)
    toggleEach drawn (Framebuffer.spriteRow x (y + k) bits)) (m.screen, false)

end Machine

/-! ### Handlers -/

namespace Handler

/-- Passes over the next instruction if Vx meets a condition. -/
def skipOn (condition : Instruction → Int → Bool) : Handler := fun i m => do
  let vx ← m.getChecked i.xNumber
  return .ok (m.skipIf (condition i vx))

/-- Passes over the next instruction if Vx and Vy meet a condition. -/
def skipOnBoth (condition : Int → Int → Bool) : Handler := fun i m => do
  let vx ← m.getChecked i.xNumber
  let vy ← m.getChecked i.yNumber
  return .ok (m.skipIf (condition vx vy))

/-- Puts a value that no register is read for into Vx. -/
def put (value : Instruction → Machine → Int) : Handler := fun i m => do
  return .ok (← m.setChecked i.xNumber (value i m))

/-- Puts Vx and the low byte of the opcode together. -/
def addByte : Handler := fun i m => do
  let vx ← m.getChecked i.xNumber
  return .ok (← m.setChecked i.xNumber ((vx + i.kk) % 256))

/-- Puts Vy into Vx. -/
def copy : Handler := fun i m => do
  let vy ← m.getChecked i.yNumber
  return .ok (← m.setChecked i.xNumber vy)

/-- Puts a bitwise combination of Vx and Vy into Vx. -/
def combine (op : Byte → Byte → Byte) : Handler := fun i m => do
  let vx ← m.getChecked i.xNumber
  let vy ← m.getChecked i.yNumber
  return .ok (← m.setChecked i.xNumber (op (Byte.wrap vx) (Byte.wrap vy)).toInt)

/-- Puts a result from Vx into Vx and a report into the flag. -/
def report (value : Int → Int) (flag : Int → Bool) : Handler := fun i m => do
  let vx ← m.getChecked i.xNumber
  return .ok (← m.setWithFlagChecked i.xNumber (value vx) (flag vx))

/-- Puts a result from Vx and Vy into Vx and a report into the flag. -/
def reportBoth (value : Int → Int → Int) (flag : Int → Int → Bool) : Handler := fun i m => do
  let vx ← m.getChecked i.xNumber
  let vy ← m.getChecked i.yNumber
  return .ok (← m.setWithFlagChecked i.xNumber (value vx vy) (flag vx vy))

/-- Puts a random number under the mask of the opcode into Vx. -/
def random (numbers : Nat → Int) : Handler := fun i m => do
  let value := (Byte.wrap (numbers m.randoms) &&& Byte.wrap i.kk).toInt
  return .ok (← { m with randoms := m.randoms + 1 }.setChecked i.xNumber value)

/-- Jumps as far behind an address as V0 says. -/
def jumpOffset : Handler := fun i m => do
  let v0 ← m.getChecked 0
  return .ok { m with pc := (i.nnn + v0) % 65536 }

/-- Changes something else with the help of Vx. -/
def useX (change : Machine → Int → Machine) : Handler := fun i m => do
  let vx ← m.getChecked i.xNumber
  return .ok (change m vx)

def ret : Handler := fun _ m => do
  return (← m.stack.popChecked).map fun (address, stack) => { m with pc := address, stack := stack }

def call : Handler := fun i m =>
  .ok ((m.stack.push m.pc).map fun stack => { m with pc := i.nnn, stack := stack })

def draw : Handler := fun i m => do
  let x ← m.getChecked i.xNumber
  let y ← m.getChecked i.yNumber
  let (screen, hit) ← m.drawChecked x y i.n
  return .ok (← { m with screen := screen, drew := true }.setChecked 15 hit.toInt)

def storeDigits : Handler := fun i m => do
  let value ← m.getChecked i.xNumber
  let m ← m.pokeChecked m.index (value / 100)
  let m ← m.pokeChecked (m.index + 1) (value / 10 % 10)
  return .ok (← m.pokeChecked (m.index + 2) (value % 10))

/-- Does something for V0 to Vx in turn, each time to the machine as it is by then. -/
def forRegisters (act : Machine → Nat → Except Stray Machine) : Handler := fun i m => do
  return .ok (← (List.range (i.xNumber + 1).toNat).foldlM act m)

def storeRegs : Handler :=
  forRegisters fun m k => do m.pokeChecked (m.index + k) (← m.getChecked k)

def loadRegs : Handler :=
  forRegisters fun m k => do m.setChecked k (← m.peekChecked (m.index + k)).toInt

/-- The handlers of the operations. -/
def table (keys : Keys) (numbers : Nat → Int) : List (Operation × Handler) := [
  (.clear, fun _ m => .ok (.ok { m with screen := m.screen.clear, drew := true })),
  (.ret, ret),
  (.jump, fun i m => .ok (.ok { m with pc := i.nnn })),
  (.call, call),
  (.skipEqByte, skipOn fun i vx => vx == i.kk),
  (.skipNeByte, skipOn fun i vx => vx != i.kk),
  (.skipEqReg, skipOnBoth fun vx vy => vx == vy),
  (.loadByte, put fun i _ => i.kk),
  (.addByte, addByte),
  (.loadReg, copy),
  (.bitOr, combine (· ||| ·)),
  (.bitAnd, combine (· &&& ·)),
  (.bitXor, combine (· ^^^ ·)),
  (.addReg, reportBoth (fun vx vy => (vx + vy) % 256) (fun vx vy => 255 < vx + vy)),
  (.sub, reportBoth (fun vx vy => (vx - vy) % 256) (fun vx vy => vy < vx)),
  (.shiftRight, report (fun vx => vx / 2) (fun vx => vx % 2 == 1)),
  (.subFrom, reportBoth (fun vx vy => (vy - vx) % 256) (fun vx vy => vx < vy)),
  (.shiftLeft, report (fun vx => 2 * vx % 256) (fun vx => vx / 128 % 2 == 1)),
  (.skipNeReg, skipOnBoth fun vx vy => vx != vy),
  (.loadIndex, fun i m => .ok (.ok { m with index := i.nnn })),
  (.jumpOffset, jumpOffset),
  (.random, random numbers),
  (.draw, draw),
  (.skipPressed, skipOn fun _ vx => keys.held (vx % 16)),
  (.skipReleased, skipOn fun _ vx => !keys.held (vx % 16)),
  (.readDelay, put fun _ m => m.timers.delay),
  (.waitKey, fun i m => .ok (.ok { m with waiting := true, keyRegister := i.x })),
  (.setDelay, useX fun m vx => { m with timers := { m.timers with delay := vx } }),
  (.setSound, useX fun m vx => { m with timers := { m.timers with sound := vx } }),
  (.addIndex, useX fun m vx => { m with index := (m.index + vx) % 65536 }),
  (.loadGlyph, useX fun m vx => { m with index := Font.start + vx * Font.glyphSize }),
  (.storeDigits, storeDigits),
  (.storeRegs, storeRegs),
  (.loadRegs, loadRegs)]

end Handler

namespace Machine

/-- Finds the handler of an instruction and lets it work. -/
def executeChecked (keys : Keys) (random : Nat → Int) (i : Instruction) (m : Machine) :
    Except Stray (Except Fault Machine) :=
  match (Handler.table keys random).lookup i.operation with
  | none => .error (.handler i.operation)
  | some handler => handler i m

/-- Takes the awaited key, if there is one, into the register whose number was kept. -/
def resumeChecked (m : Machine) : Option Int → Except Stray Machine
  | some key => do return { ← m.setChecked m.keyRegister.val (key % 16) with waiting := false }
  | none => .ok m

/-- How a cycle ends once its instruction has been carried out, or has faulted. -/
def finish (m : Machine) (tracing : Bool) (i : Instruction) : Except Fault Machine → Outcome
  | .ok m' => ⟨m'.gateBuzzer, m.trace tracing i, none⟩
  | .error f => ⟨m, m.trace tracing i, some (.fault f)⟩

/-- The part of a cycle after the timers. -/
def stepChecked (m : Machine) (tracing : Bool) (env : Surroundings) : Except Stray Outcome := do
  let key := m.awaitedKey env.keys
  if m.waiting && key.isNone then return ⟨m.gateBuzzer, [], none⟩
  let opcode ← m.fetchChecked
  match decode opcode with
  | none => return ⟨m, [], some (.fault (.unknownOpcode opcode))⟩
  | some i =>
      let m := (← m.resumeChecked key).advance
      return m.finish tracing i (← m.executeChecked env.keys env.random i)

/-- One cycle. -/
def cycleChecked (m : Machine) (tracing : Bool) (env : Surroundings) : Except Stray Outcome :=
  match (m.timers.update env.now).2 with
  | .error f => .ok ⟨m.ticked env.now, [], some (.clock f)⟩
  | .ok _ => (m.ticked env.now).stepChecked tracing env

end Machine

end ChipEight
