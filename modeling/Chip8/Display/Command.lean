/-
  Chip8.Display.Command — what a display is told.

  The screen never draws on the host itself. It gives a display its size, whole frames and a title.
-/

namespace Chip8.Display

inductive Command where
  /-- The screen has this many columns and rows. -/
  | resolution (width height : Int)
  /-- The pixels, row by row, and whether anything changed since the last frame. -/
  | frame (pixels : Array UInt8) (dirty : Bool)
  | title (text : String)
  deriving DecidableEq, Repr

end Chip8.Display
