/-
  Chip8.Display — the display of a session.

  A command is carried out or refused. Without a display nothing is refused.
-/
import Chip8.Display.Headless
import Chip8.Display.Terminal
import Chip8.Display.Window

namespace Chip8

inductive Display where
  | headless (d : Display.Headless)
  | window (w : Display.Window)
  | terminal (t : Display.Terminal)
  deriving DecidableEq, Repr

namespace Display

inductive Error where
  | window (error : WindowError)
  | terminal (error : TerminalError)
  deriving DecidableEq, Repr

def apply (host : Host) (size : Int × Int) (d : Display) (command : Command) : Except Error Display :=
  match d with
  | headless d => .ok (headless (d.apply command))
  | window w => match w.apply host command with
    | (w, none) => .ok (window w)
    | (_, some e) => .error (.window e)
  | terminal t => match t.apply host size command with
    | .ok (t, _) => .ok (terminal t)
    | .error e => .error (.terminal e)

end Display

end Chip8
