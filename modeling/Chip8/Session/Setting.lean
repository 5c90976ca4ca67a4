/-
  Chip8.Session.Setting — values as they are handed to a session.

  Another program may hand over any kind of value for any setting, and the kind is looked at only
  where it matters. Every value can be taken for a switch; of the others only some can be taken for
  a number or a name.
-/
import Chip8.Emulator
import Chip8.Text.Wide

namespace Chip8.Session

inductive Setting where
  | unset
  | flag (on : Bool)
  | number (n : Number)
  | text (s : String)
  /-- A text that holds halves of surrogate pairs. -/
  | garbled (t : Text.Wide)
  /-- So many values together. -/
  | list (length : Nat)
  deriving DecidableEq, Repr

namespace Setting

def isOn : Setting → Bool
  | unset => false
  | flag on => on
  | number n => !n.isZero
  | text s => s != ""
  | garbled t => !t.isEmpty
  | list length => length != 0

def switch? : Setting → Option Bool
  | unset => none
  | s => some s.isOn

/-- The number; a flag counts as one or zero. -/
def number? : Setting → Option Number
  | flag on => some (.whole (if on then 1 else 0))
  | number n => some n
  | _ => none

/-- The name that is chosen, if one is set. A value that is no text is a name that nothing has. -/
def choice? : Setting → Option String
  | unset => none
  | text s => some s
  | _ => some ""

/-- The text where one is taken apart. A half is part of no numeral and of no name to choose from, and
    neither is the character that replaces it. -/
def text? : Setting → Option String
  | text s => some s
  | garbled t => some t.legible
  | _ => none

def name? : Setting → Option Text.Wide
  | text s => some (.ofString s)
  | garbled t => some t
  | _ => none

def ofWide (t : Text.Wide) : Setting := match t.text? with
  | some s => text s
  | none => garbled t

theorem text?_ofWide (t : Text.Wide) : (ofWide t).text? = some t.legible := by
  unfold ofWide
  split
  · next s found =>
    obtain rfl := Text.Wide.text?_eq_some.mp found
    rw [Text.Wide.legible_ofString, text?]
  · rfl

theorem name?_ofWide (t : Text.Wide) : (ofWide t).name? = some t := by
  unfold ofWide
  split
  · next found => rw [Text.Wide.text?_eq_some.mp found, name?]
  · rfl

def limit : Setting → Limit
  | unset => .never
  | s => (s.number?).elim .unreadable .after

end Setting

end Chip8.Session
