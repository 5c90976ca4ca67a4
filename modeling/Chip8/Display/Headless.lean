/-
  Chip8.Display.Headless — a display that shows nothing.

  It keeps the size it was told and counts the frames it was handed.
-/
import Chip8.Display.Command

namespace Chip8.Display

structure Headless where
  scale : Int
  width : Int
  height : Int
  frames : Nat
  deriving DecidableEq, Repr

namespace Headless

def create (scale : Option Int) : Headless := ⟨scale.getD 1, 0, 0, 0⟩

def apply (d : Headless) : Command → Headless
  | .resolution width height => { d with width := width, height := height }
  | .frame _ _ => { d with frames := d.frames + 1 }
  | .title _ => d

end Headless

end Chip8.Display
