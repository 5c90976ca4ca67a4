/-
  Chip8.Machine.Execute — what each instruction does.

  The program counter stands behind the instruction when its effect begins. An effect checks what
  can fail before it changes anything; only a sprite on a screen of negative size can fail half way.
-/
import Chip8.Keys
import Chip8.Machine

namespace Chip8

/-- The machine after an effect, and the fault that cut it short if there was one. -/
structure Effect where
  machine : Machine
  fault : Option Fault
  deriving DecidableEq, Repr

namespace Effect

def done (m : Machine) : Effect := ⟨m, none⟩

def failed (m : Machine) (f : Fault) : Effect := ⟨m, some f⟩

/-- Goes on with a result, or stops at its fault with the machine unchanged. -/
def check {α : Type} (m : Machine) (result : Except Fault α) (next : α → Effect) : Effect :=
  match result with
  | .error f => failed m f
  | .ok a => next a

end Effect

namespace Machine

/-! ## Parts of effects -/

def skipIf (m : Machine) (condition : Bool) : Machine := if condition then { m with pc := m.pc + 2 } else m

def setRegister (m : Machine) (x : Register) (b : UInt8) : Machine := { m with v := m.v.set x b }

def setFlagged (m : Machine) (x : Register) (b : UInt8) (flagged : Bool) : Machine :=
  { m with v := m.v.setFlagged x b flagged }

def setLogic (m : Machine) (x : Register) (b : UInt8) : Machine :=
  if m.dialect.clearFlag then m.setFlagged x b false else m.setRegister x b

def shifted (m : Machine) (x y : Register) : UInt8 := m.v.get (if m.dialect.shiftInPlace then x else y)

/-- Moves I behind the registers up to `x`, in the dialect that does so. The index has 16 bits. -/
def advanced (m : Machine) (x : Register) : Machine :=
  if m.dialect.advanceIndex then { m with index := (m.index + x.val + 1) % 0x10000 } else m

def decimal (b : UInt8) : List UInt8 := [b / 100, b / 10 % 10, b % 10]

def drawPoints (m : Machine) (points : List (Int × Int)) : Effect :=
  let (screen, hit, fault) := m.screen.flipAll points
  let flag : UInt8 := if hit && fault.isNone then 1 else 0
  { machine := { m with
      screen := { screen with dirty := screen.dirty || fault.isNone }
      v := m.v.set Registers.flag flag }
    fault := fault }

/-- Draws the sprite at I. Its corner is always brought onto the screen; the flag is set if a set
    pixel was hit. -/
def drawSprite (m : Machine) (x y : Register) (rows : Nat) : Effect :=
  if m.screen.width = 0 ∨ m.screen.height = 0 then .failed m .divisionByZero
  else
    let left := ((m.v.get x).toNat : Int).fmod m.screen.width
    let top := ((m.v.get y).toNat : Int).fmod m.screen.height
    match m.memory.readBlock m.index rows with
    | .error f => .failed m f
    | .ok sprite => m.drawPoints (Sprite.points left top sprite)

/-! ## Instructions -/

def execute (m : Machine) (keys : Keys) (chance : UInt8) : Instruction → Effect
  | .clearScreen => .done { m with screen := m.screen.clear }
  | .ret => .check m m.stack.pop fun (address, stack) => .done { m with pc := address, stack := stack }
  | .jump nnn => .done { m with pc := nnn.val }
  | .call nnn => .check m (m.stack.push m.pc) fun stack => .done { m with pc := nnn.val, stack := stack }
  | .skipEqByte x kk => .done (m.skipIf (m.v.get x == kk))
  | .skipNeByte x kk => .done (m.skipIf (m.v.get x != kk))
  | .skipEq x y => .done (m.skipIf (m.v.get x == m.v.get y))
  | .setByte x kk => .done (m.setRegister x kk)
  | .addByte x kk => .done (m.setRegister x (m.v.get x + kk))
  | .copy x y => .done (m.setRegister x (m.v.get y))
  | .or x y => .done (m.setLogic x (m.v.get x ||| m.v.get y))
  | .and x y => .done (m.setLogic x (m.v.get x &&& m.v.get y))
  | .xor x y => .done (m.setLogic x (m.v.get x ^^^ m.v.get y))
  | .add x y => .done (m.setFlagged x (m.v.get x + m.v.get y) (255 < (m.v.get x).toNat + (m.v.get y).toNat))
  | .sub x y => .done (m.setFlagged x (m.v.get x - m.v.get y) (m.v.get y ≤ m.v.get x))
  | .shiftRight x y => .done (m.setFlagged x (m.shifted x y >>> 1) (m.shifted x y % 2 == 1))
  | .subFrom x y => .done (m.setFlagged x (m.v.get y - m.v.get x) (m.v.get x ≤ m.v.get y))
  | .shiftLeft x y => .done (m.setFlagged x (m.shifted x y <<< 1) (128 ≤ m.shifted x y))
  | .skipNe x y => .done (m.skipIf (m.v.get x != m.v.get y))
  | .setIndex nnn => .done { m with index := nnn.val }
  | .jumpOffset nnn => .done { m with pc := nnn.val + (m.v.get Registers.offset).toNat }
  | .random x kk => .done (m.setRegister x (chance &&& kk))
  | .draw x y n => m.drawSprite x y n.val
  | .skipHeld x => .done (m.skipIf (keys.held (Keys.ofByte (m.v.get x))))
  | .skipFree x => .done (m.skipIf (!keys.held (Keys.ofByte (m.v.get x))))
  | .readDelay x =>
    if 0 ≤ m.delay ∧ m.delay < 256 then .done (m.setRegister x (UInt8.ofNat m.delay.toNat)) else .failed m .notByte
  | .awaitKey x =>
    match keys.highest? with
    | none => .done { m with pc := m.pc - 2 }
    | some k => .done (m.setRegister x (UInt8.ofNat k.val))
  | .setDelay x => .done { m with delay := (m.v.get x).toNat }
  | .setSound x => .done { m with sound := (m.v.get x).toNat }
  | .addIndex x => .done { m with index := (m.index + (m.v.get x).toNat) % 0x10000 }
  | .setGlyph x => .done { m with index := Layout.fontStart + Layout.glyphSize * (m.v.get x).toNat }
  | .storeDecimal x =>
    .check m (m.memory.writeBlock m.index (decimal (m.v.get x))) fun memory => .done { m with memory := memory }
  | .store x =>
    .check m (m.memory.writeBlock m.index (m.v.upTo x)) fun memory => .done ({ m with memory := memory }.advanced x)
  | .load x =>
    .check m (m.memory.readBlock m.index (x.val + 1)) fun block =>
      .done ({ m with v := m.v.load block }.advanced x)

end Machine

def Instruction.drawsChance : Instruction → Bool
  | .random _ _ => true
  | _ => false

end Chip8
