/-
  Chip8.Host — what passes between the emulator and its host.

  Once per turn the host tells which keys are held and whether the user asked for something. The
  emulator calls the host to poll the keypad, to show something and to switch the buzzer.
-/
import Chip8.Display.Command
import Chip8.Keys

namespace Chip8

inductive HostEvent where
  | quit
  | pause
  | reset
  deriving DecidableEq, Repr

/-- The answer to one poll of the keypad. -/
structure Input where
  keys : Keys
  event : Option HostEvent
  deriving DecidableEq, Repr

inductive HostCall where
  /-- The keypad is asked for its input. -/
  | poll
  | display (command : Display.Command)
  /-- The buzzer is switched. -/
  | buzzer (on : Bool)
  deriving DecidableEq, Repr

namespace HostEvent

def name : HostEvent → String
  | quit => "quit"
  | pause => "pause"
  | reset => "reset"

def ofName? (s : String) : Option HostEvent := [quit, pause, reset].find? fun e => e.name == s

end HostEvent

namespace Input

def idle : Input := ⟨Keys.none, none⟩

end Input

end Chip8
