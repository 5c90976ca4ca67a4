/-
  Chip8.Machine — the state of the machine and its dialect.

  Sixteen registers of a byte, the index I, two timers, a program counter, a call stack, memory and
  a screen. `origin` is the address of the instruction in progress and `opcode` its word; they are
  kept for reports. The counters are whole numbers: no program takes them out of their ranges, but
  a machine that was set up by hand may start anywhere.

  The interpreters of the time differ in three points, which make up the dialect.
-/
import Chip8.CallStack
import Chip8.Instruction
import Chip8.Layout
import Chip8.Screen

namespace Chip8

/-! ## Registers -/

abbrev Registers := Vector UInt8 16

namespace Registers

def zero : Registers := Vector.replicate 16 0

def get (v : Registers) (x : Register) : UInt8 := v[x]

def set (v : Registers) (x : Register) (b : UInt8) : Registers := Vector.set v x.val b x.isLt

def flag : Register := 0xF

def offset : Register := 0

/-- A register and then the flag; where they are one, the flag is what remains. -/
def setFlagged (v : Registers) (x : Register) (b : UInt8) (flagged : Bool) : Registers :=
  (v.set x b).set flag (if flagged then 1 else 0)

def upTo (v : Registers) (x : Register) : List UInt8 := v.toList.take (x + 1)

def load (v : Registers) (block : List UInt8) : Registers :=
  Vector.ofFn fun k => block.getD k.val (v.get k)

theorem get_set (v : Registers) (x y : Register) (b : UInt8) : (v.set x b).get y = if x = y then b else v.get y := by
  simp [get, set, Vector.getElem_set, Fin.ext_iff]

theorem get_load (v : Registers) (block : List UInt8) (k : Register) :
    (v.load block).get k = block.getD k.val (v.get k) := by
  simp [load, get]

end Registers

/-! ## Dialects -/

structure Dialect where
  /-- Shifts work on `Vx` alone; otherwise `Vy` is shifted into `Vx`. -/
  shiftInPlace : Bool := true
  /-- Stores and loads leave I behind the last register. -/
  advanceIndex : Bool := false
  /-- Or, and, exclusive or set the flag register to zero. -/
  clearFlag : Bool := false
  deriving DecidableEq, Repr

/-! ## The machine -/

structure Machine where
  memory : Memory
  stack : CallStack
  screen : Screen
  dialect : Dialect
  /-- Is every instruction traced? -/
  traced : Bool
  v : Registers
  index : Int
  delay : Int
  sound : Int
  pc : Int
  origin : Int
  opcode : Int
  deriving DecidableEq, Repr

namespace Machine

/-- Zero registers, timers and index, an empty call stack, a clear screen, and the program's first
    address. Memory is left alone. -/
def reset (m : Machine) : Machine :=
  { m with
    v := .zero, index := 0, delay := 0, sound := 0
    pc := Layout.programStart, origin := Layout.programStart, opcode := 0
    stack := m.stack.clear, screen := m.screen.clear }

def create (memory : Memory) (stack : CallStack) (screen : Screen) (dialect : Dialect) (traced : Bool) : Machine :=
  reset { memory, stack, screen, dialect, traced, v := .zero, index := 0, delay := 0, sound := 0,
          pc := 0, origin := 0, opcode := 0 }

def standard (dialect : Dialect) (wrapping traced : Bool) : Machine :=
  create (.zeros Layout.memorySize) (.empty Layout.stackDepth)
    (.blank Layout.screenWidth Layout.screenHeight wrapping) dialect traced

/-- The timers go down by one each and stop at zero. -/
def countDown (m : Machine) : Machine :=
  { m with
    delay := if 0 < m.delay then m.delay - 1 else m.delay
    sound := if 0 < m.sound then m.sound - 1 else m.sound }

/-- The buzzer sounds while the sound timer runs. -/
def isBuzzing (m : Machine) : Bool := 0 < m.sound

def fetch (m : Machine) : Except Fault Nat := m.memory.readWord m.pc

end Machine

end Chip8
