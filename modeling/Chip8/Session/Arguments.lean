/-
  Chip8.Session.Arguments — what a session is asked for.

  A session can be started from the command line or by another program, which hands over its
  arguments entry by entry. An entry may be unset, and then its default counts where it has one; an
  entry that is missing altogether is an error of the caller, found at the moment the entry is read.
-/
import Chip8.Options
import Chip8.Session.Setting

namespace Chip8.Session

/-- The entries; `none` where one is missing. -/
structure Arguments where
  filename : Option Setting
  clockSpeed : Option Setting
  renderer : Option Setting
  scale : Option Setting
  mute : Option Setting
  keymap : Option Setting
  cursorMode : Option Setting
  palette : Option Setting
  shift : Option Setting
  load : Option Setting
  logic : Option Setting
  wrap : Option Setting
  maxCycles : Option Setting
  debug : Option Setting
  deriving DecidableEq, Repr

namespace Setting

variable {α : Type}

/-- The setting for an option's value. The mark hands over no value at all. -/
def ofValue (ofGiven : α → Setting) : OptionValue α → Setting
  | .given value => ofGiven value
  | .mark => list 0

def ofOption (ofGiven : α → Setting) : Option (OptionValue α) → Setting
  | none => unset
  | some v => ofValue ofGiven v

def ofInt (n : Int) : Setting := number (.whole n)

end Setting

def Arguments.ofOptions (o : Options) : Arguments where
  filename := some (.text o.filename)
  clockSpeed := some (.ofValue .ofInt o.clockSpeed)
  renderer := some (.ofOption .text o.renderer)
  scale := some (.ofOption .ofInt o.scale)
  mute := some (.ofOption .ofInt o.mute)
  keymap := some (.ofValue .text o.keymap)
  cursorMode := some (.ofValue .ofInt o.cursorMode)
  palette := some (.ofOption .text o.palette)
  shift := some (.ofOption .ofInt o.shift)
  load := some (.ofOption .ofInt o.load)
  logic := some (.ofOption .ofInt o.logic)
  wrap := some (.ofOption .ofInt o.wrap)
  maxCycles := some (.ofOption .ofInt o.maxCycles)
  debug := some (.flag o.debug)

end Chip8.Session
