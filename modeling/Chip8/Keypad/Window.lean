/-
  Chip8.Keypad.Window — keys of a window.

  A window reports when a key goes down and when it comes up, so a key is held from the one to the
  other, across polls. Control keys and closing the window are events and never held keys.
-/
import Chip8.Keypad.Keymap

namespace Chip8.Keypad

inductive WindowEvent where
  | down (code : Int)
  | up (code : Int)
  | close
  | other
  deriving DecidableEq, Repr

structure Window where
  keymap : Keymap
  held : Keys
  deriving DecidableEq, Repr

namespace Window

def create (keymap : String) : Except KeymapError Window := do
  let m ← Keymap.parse false Controls.keyboard.codes keymap.toList
  return ⟨m, Keys.none⟩

/-- Sets whether the key of a code is held; other codes do nothing. -/
def mark (w : Window) (code : Int) (held : Bool) : Window :=
  match w.keymap.key? code with
  | some k => { w with held := w.held.setIfInBounds k.val held }
  | none => w

def handle (w : Window) : WindowEvent → Window × Option HostEvent
  | .down code =>
    match Controls.keyboard.event? code with
    | some e => (w, some e)
    | none => (w.mark code true, none)
  | .up code => (w.mark code false, none)
  | .close => (w, some .quit)
  | .other => (w, none)

def handleAll (w : Window) (event : Option HostEvent) : List WindowEvent → Window × Option HostEvent
  | [] => (w, event)
  | e :: rest =>
    let (w, next) := w.handle e
    handleAll w (match next with
      | some n => merge event n
      | none => event) rest

def poll (w : Window) (events : List WindowEvent) : Window × Input :=
  let (w, event) := w.handleAll none events
  (w, ⟨w.held, event⟩)

end Window

end Chip8.Keypad
