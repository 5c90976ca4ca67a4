/-
  Chip8.Frontend — which display, keypad and buzzer serve a session.

  A window comes first, then a terminal, if the user left the choice open; a chosen one that is not
  available is refused. Any other choice runs without a display. A window is heard unless it is
  muted, a terminal is silent unless it is not.
-/
import Chip8.Buzzer

namespace Chip8

inductive Frontend where
  | headless
  | window
  | terminal
  deriving DecidableEq, Repr

structure Libraries where
  window : Bool
  terminal : Bool
  deriving DecidableEq, Repr

inductive FrontendError where
  | noWindow
  | noTerminal
  | neither
  deriving DecidableEq, Repr

namespace FrontendError

def message : FrontendError → String
  | noWindow => "PyGame does not appear to be installed."
  | noTerminal => "Curses (or Windows-Curses) does not appear to be installed."
  | neither => "Neither PyGame nor Curses (or Windows-Curses) appear to be installed."

end FrontendError

namespace Frontend

def windowChoice : String := "pygame"

def terminalChoice : String := "curses"

def headlessChoice : String := "null"

def windowBuzzer (mute : Option Bool) : BuzzerKind := if mute = some true then .silent else .mixer

def terminalBuzzer (mute : Option Bool) : BuzzerKind := if mute = some false then .bell else .silent

def select (libraries : Libraries) (choice : Option String) (mute : Option Bool) :
    Except FrontendError (Frontend × BuzzerKind) :=
  match choice with
  | none =>
    if libraries.window then .ok (window, windowBuzzer mute)
    else if libraries.terminal then .ok (terminal, terminalBuzzer mute)
    else .error .neither
  | some name =>
    if name = windowChoice then
      if libraries.window then .ok (window, windowBuzzer mute) else .error .noWindow
    else if name = terminalChoice then
      if libraries.terminal then .ok (terminal, terminalBuzzer mute) else .error .noTerminal
    else .ok (headless, .silent)

end Frontend

end Chip8
