/-
  Chip8.Keypad.Terminal — keys of a text terminal.

  A terminal sends characters and never says that a key came up. A key counts as held for a fifth of
  a second after its character was seen; holding it down repeats the character in time. The moment
  of a batch is sampled at its first character that is a key, and the keys are judged at a second
  sample at its end.
-/
import Chip8.Keypad.Keymap
import Chip8.Number.Double

namespace Chip8.Keypad

structure Terminal where
  keymap : Keymap
  /-- For each key, the moment until which it counts as held. -/
  heldUntil : Vector Double 16
  deriving DecidableEq, Repr

namespace Terminal

/-- How long a key counts as held, in seconds. -/
def holdTime : Double := Double.ofRatio 1 5

def create (keymap : String) : Except KeymapError Terminal := do
  let m ← Keymap.parse true Controls.characters.codes keymap.toList
  return ⟨m, Vector.replicate 16 (.finite 0 0)⟩

def handle (t : Terminal) (moment : Double) (event : Option HostEvent) (code : Int) : Terminal × Option HostEvent :=
  match Controls.characters.event? code with
  | some e => (t, merge event e)
  | none =>
    match t.keymap.key? code with
    | some k => ({ t with heldUntil := t.heldUntil.setIfInBounds k.val (moment.add holdTime) }, event)
    | none => (t, event)

def handleAll (t : Terminal) (moment : Double) (event : Option HostEvent) :
    List Int → Terminal × Option HostEvent
  | [] => (t, event)
  | code :: rest =>
    let (t, event) := t.handle moment event code
    handleAll t moment event rest

def heldAt (t : Terminal) (now : Double) : Keys := Keys.ofPred fun k => now.lt (t.heldUntil.get k)

/-- One poll, with the batch's moment and the moment of judgement. -/
def poll (t : Terminal) (codes : List Int) (moment now : Double) : Terminal × Input :=
  let (t, event) := t.handleAll moment none codes
  (t, ⟨t.heldAt now, event⟩)

end Terminal

end Chip8.Keypad
