/-
  Chip8.Fault — what can go wrong inside the machine.

  Each fault is a cause; its wording is in one place. A program can only run into the first four:
  the others need a machine that was set up by hand.
-/
import Chip8.Size
import Chip8.Text.Hex

namespace Chip8

inductive Fault where
  /-- An access outside memory, or outside the pixel plane. -/
  | outOfRange (address : Int)
  /-- A word that is no instruction, and where it was fetched. -/
  | notInstruction (word address : Int)
  | stackOverflow (limit : Int)
  | stackUnderflow
  /-- A value that is no byte was to be stored. -/
  | notByte
  /-- A size that no block can have. -/
  | badSize (error : SizeError)
  /-- A coordinate was to be reduced modulo a screen of no width or no height. -/
  | divisionByZero
  /-- A limit that is no number was to be compared. -/
  | notNumber
  deriving DecidableEq, Repr

namespace Fault

def message : Fault → String
  | outOfRange address => "Memory access out of range at address 0x" ++ Text.Hex.padded 4 address
  | notInstruction word address =>
    "Opcode 0x" ++ Text.Hex.padded 4 word ++ " at address 0x" ++ Text.Hex.padded 3 address
      ++ " is not a CHIP-8 instruction."
  | stackOverflow limit => "Stack overflow (more than " ++ toString limit ++ " nested calls)"
  | stackUnderflow => "Stack underflow (return with an empty call stack)"
  | notByte => "Value is not a byte"
  | badSize error => error.message
  | divisionByZero => "Screen has no size"
  | notNumber => "Limit is not a number"

/-- Does a program's run into this fault end in a crash report? -/
def isReported : Fault → Bool
  | outOfRange _ | notInstruction _ _ | stackOverflow _ | stackUnderflow => true
  | notByte | badSize _ | divisionByZero | notNumber => false

end Fault

end Chip8
