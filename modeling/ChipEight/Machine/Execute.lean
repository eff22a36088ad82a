import ChipEight.Instruction
import ChipEight.Keys
import ChipEight.Machine

/-!
What each instruction does to the machine. Only a subroutine call on a full stack and a return on
an empty one can fail, and a failing instruction leaves no trace. Instructions that report in the
flag work out both results first and write the flag before the result, so where the destination is
the flag itself the result stays.
-/

namespace ChipEight.Machine

/-- Moves on by one instruction, inside sixteen bits. -/
def advance (m : Machine) : Machine := { m with pc := (m.pc + 2) % 65536 }

/-- Passes over the next instruction if a condition holds. -/
def skipIf (m : Machine) (condition : Bool) : Machine := if condition then m.advance else m

/-- Puts a value into a register. -/
def assign (m : Machine) (x : Fin 16) (value : Int) : Machine :=
  { m with registers := m.registers.write x value }

/-- Puts a report into the flag and then a result into a register. -/
def assignWithFlag (m : Machine) (x : Fin 16) (value : Int) (flag : Bool) : Machine :=
  (m.assign Registers.flagNumber flag.toInt).assign x value

/-- Puts the result of a bitwise operation on two registers into the first. -/
def combine (m : Machine) (op : Byte → Byte → Byte) (x y : Fin 16) : Machine :=
  m.assign x (op (Byte.wrap (m.v x)) (Byte.wrap (m.v y))).toInt

/-- Draws the sprite at I, `n` rows high, and reports in the flag whether it hit a lit pixel. -/
def drawSprite (m : Machine) (x y : Fin 16) (n : Nat) : Machine :=
  let (screen, hit) := m.screen.draw (m.v x) (m.v y) (m.memory.window m.index n)
  { m with screen := screen, drew := true }.assign Registers.flagNumber hit.toInt

/-- Writes the three decimal digits of a value from I on. -/
def storeDigits (m : Machine) (value : Int) : Machine :=
  let memory := m.memory.write m.index (value / 100)
  let memory := memory.write (m.index + 1) (value / 10 % 10)
  { m with memory := memory.write (m.index + 2) (value % 10) }

/-- The registers from V0 to a last one. -/
def registersTo (x : Fin 16) : List (Fin 16) := (List.finRange 16).take (x.val + 1)

/-- Writes the registers from V0 to a last one into memory from I on. -/
def storeRegisters (m : Machine) (x : Fin 16) : Machine :=
  let put (memory : Memory) (k : Fin 16) := memory.write (m.index + k.val) (m.v k)
  { m with memory := (registersTo x).foldl put m.memory }

/-- Fills the registers from V0 to a last one with the bytes from I on. -/
def loadRegisters (m : Machine) (x : Fin 16) : Machine :=
  let fill (r : Registers) (k : Fin 16) := r.write k (m.memory.read (m.index + k.val)).toInt
  { m with registers := (registersTo x).foldl fill m.registers }

/-- Uses up the next random number. -/
def assignRandom (m : Machine) (random : Nat → Int) (x : Fin 16) (mask : Int) : Machine :=
  { m with randoms := m.randoms + 1 }.assign x
    (Byte.wrap (random m.randoms) &&& Byte.wrap mask).toInt

/-- Carries out an instruction. The program counter already stands behind it. -/
def execute (keys : Keys) (random : Nat → Int) (i : Instruction) (m : Machine) :
    Except Fault Machine :=
  let vx := m.v i.x
  let vy := m.v i.y
  match i.operation with
  | .clear => .ok { m with screen := m.screen.clear, drew := true }
  | .ret => do
      let (address, stack) ← m.stack.pop
      return { m with pc := address, stack := stack }
  | .jump => .ok { m with pc := i.nnn }
  | .call => do
      let stack ← m.stack.push m.pc
      return { m with pc := i.nnn, stack := stack }
  | .skipEqByte => .ok (m.skipIf (vx == i.kk))
  | .skipNeByte => .ok (m.skipIf (vx != i.kk))
  | .skipEqReg => .ok (m.skipIf (vx == vy))
  | .skipNeReg => .ok (m.skipIf (vx != vy))
  | .loadByte => .ok (m.assign i.x i.kk)
  | .addByte => .ok (m.assign i.x ((vx + i.kk) % 256))
  | .loadReg => .ok (m.assign i.x vy)
  | .bitOr => .ok (m.combine (· ||| ·) i.x i.y)
  | .bitAnd => .ok (m.combine (· &&& ·) i.x i.y)
  | .bitXor => .ok (m.combine (· ^^^ ·) i.x i.y)
  | .addReg => .ok (m.assignWithFlag i.x ((vx + vy) % 256) (255 < vx + vy))
  | .sub => .ok (m.assignWithFlag i.x ((vx - vy) % 256) (vy < vx))
  | .subFrom => .ok (m.assignWithFlag i.x ((vy - vx) % 256) (vx < vy))
  | .shiftRight => .ok (m.assignWithFlag i.x (vx / 2) (vx % 2 == 1))
  | .shiftLeft => .ok (m.assignWithFlag i.x (2 * vx % 256) (vx / 128 % 2 == 1))
  | .loadIndex => .ok { m with index := i.nnn }
  | .jumpOffset => .ok { m with pc := (i.nnn + m.v Registers.firstNumber) % 65536 }
  | .random => .ok (m.assignRandom random i.x i.kk)
  | .draw => .ok (m.drawSprite i.x i.y i.n)
  | .skipPressed => .ok (m.skipIf (keys.held (vx % 16)))
  | .skipReleased => .ok (m.skipIf (!keys.held (vx % 16)))
  | .readDelay => .ok (m.assign i.x m.timers.delay)
  | .waitKey => .ok { m with waiting := true, keyRegister := i.x }
  | .setDelay => .ok { m with timers := { m.timers with delay := vx } }
  | .setSound => .ok { m with timers := { m.timers with sound := vx } }
  | .addIndex => .ok { m with index := (m.index + vx) % 65536 }
  | .loadGlyph => .ok { m with index := Font.start + vx * Font.glyphSize }
  | .storeDigits => .ok (m.storeDigits vx)
  | .storeRegs => .ok (m.storeRegisters i.x)
  | .loadRegs => .ok (m.loadRegisters i.x)

end ChipEight.Machine
