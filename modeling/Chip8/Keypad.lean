/-
  Chip8.Keypad — the keypad of a session.

  What a host collects between two polls are signals; each kind of keypad makes of them what it can.
  Without a display no key is ever held, but the keymap is still read and may be refused.
-/
import Chip8.Frontend
import Chip8.Keypad.Terminal
import Chip8.Keypad.Window
import Chip8.Tape

namespace Chip8

namespace Keypad

/-- What a host collected since the last poll: events of a window, characters of a terminal with the
    two moments at which the clock is read for them. -/
structure Signals where
  events : List WindowEvent
  codes : List Int
  moment : Double
  now : Double
  deriving DecidableEq, Repr

def Signals.quiet : Signals := ⟨[], [], .infinite false, .infinite false⟩

end Keypad

inductive Keypad where
  | headless (keymap : Keypad.Keymap)
  | window (keypad : Keypad.Window)
  | terminal (keypad : Keypad.Terminal)
  deriving DecidableEq, Repr

namespace Keypad

def create (frontend : Frontend) (keymap : String) : Except KeymapError Keypad :=
  match frontend with
  | .headless => (Keymap.parse false [] keymap.toList).map headless
  | .window => (Window.create keymap).map window
  | .terminal => (Terminal.create keymap).map terminal

def poll (k : Keypad) (s : Signals) : Keypad × Input :=
  match k with
  | headless _ => (k, .idle)
  | window w => let (w, input) := w.poll s.events; (window w, input)
  | terminal t => let (t, input) := t.poll s.codes s.moment s.now; (terminal t, input)

def pollAll (k : Keypad) : List Signals → List Input × Keypad
  | [] => ([], k)
  | s :: rest =>
    let (k, input) := k.poll s
    let (inputs, k) := pollAll k rest
    (input :: inputs, k)

/-- The answers to polls without end: nothing happens any more after the last signals. -/
def inputs (k : Keypad) (signals : List Signals) : Tape Input :=
  let (inputs, k) := k.pollAll signals
  .ofList inputs (k.poll .quiet).2

end Keypad

end Chip8
