/-
  Chip8.Display.Host — what a host grants to its displays.

  A host has room for so many bytes in one block. It makes pads for a text terminal and opens windows, or
  refuses to; which sizes it grants is its own affair.
-/
import Chip8.Size

namespace Chip8.Display

inductive ModeError where
  /-- A size that is none to the host. -/
  | unreadable
  | badSize
  deriving DecidableEq, Repr

structure Host where
  room : Nat
  /-- Is there a pad of so many lines and columns? -/
  pads : Int → Int → Bool
  /-- The columns and rows of a window that is to have so many. -/
  mode : Int × Int → Except ModeError (Int × Int)

/-- A host that keeps the sides of a pad in signed words of 16 bits, and opens any window that has sides. -/
def Host.common : Host where
  room := 0x40000000
  pads lines columns := decide (0 < lines ∧ lines < 0x8000 ∧ 0 < columns ∧ columns < 0x8000)
  mode size := if 0 < size.1 ∧ 0 < size.2 then .ok size else .error .badSize

theorem Host.ample_common : 0x10000 ≤ Host.common.room := Nat.le_of_ble_eq_true rfl

end Chip8.Display
