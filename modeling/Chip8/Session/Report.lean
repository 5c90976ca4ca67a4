/-
  Chip8.Session.Report — what a session did and how it ended.

  A session has three parts: a display, a keypad and a buzzer. Its log holds, in order, when the
  opening of a part began, when the part was open, every call of the emulator, when a part was
  closed, and what the user was told of a failure. The titles of a window and the calls to a sound
  device follow from the log.
-/
import Chip8.Display
import Chip8.Folder
import Chip8.Frontend
import Chip8.Host

namespace Chip8.Session

inductive Part where
  | display
  | keypad
  | buzzer
  deriving DecidableEq, Repr

inductive Deed where
  | began (part : Part)
  | opened (part : Part)
  | called (call : HostCall)
  | closed (part : Part)
  | told (text : String)
  deriving DecidableEq, Repr

/-- Why a session breaks off without a word to the user. -/
inductive Escape where
  | missingEntry
  /-- A value that can name no file. -/
  | badFilename
  /-- A number below zero in place of a file's name. -/
  | negativeFile
  /-- A name that stands for no path. -/
  | badName (error : NameError)
  /-- A value that is no text where one is taken apart. -/
  | notText
  /-- A value that is no number where one is reckoned with. -/
  | notNumber
  | window (error : Display.WindowError)
  | terminal (error : Display.TerminalError)
  | fault (fault : Fault)
  deriving DecidableEq, Repr

inductive Trouble where
  /-- The user is told, and the exit status is one. -/
  | refused (text : String)
  | escaped (cause : Escape)
  deriving DecidableEq, Repr

inductive Ending where
  | exit (status : Nat)
  | escaped (cause : Escape)
  /-- The session was cut off before it ended. -/
  | unfinished
  deriving DecidableEq, Repr

structure Report where
  ending : Ending
  /-- The lines of output. -/
  lines : List String
  /-- The frontend and the kind of buzzer, once they are chosen. -/
  choice : Option (Frontend × BuzzerKind)
  log : List Deed
  deriving DecidableEq, Repr

namespace Report

def text (lines : List String) : String := String.join (lines.map fun line => line ++ "\n")

def output (r : Report) : String := text r.lines

def complaints (r : Report) : List String := r.log.filterMap fun d => match d with
  | .told text => some text
  | _ => none

def errorOutput (r : Report) : String := text r.complaints

/-! ## What a window and a sound device saw -/

def windowTitle? : Deed → Option String
  | .began .display => some Display.Window.firstCaption
  | .called (.display (.title text)) => some text
  | _ => none

def titles (r : Report) : List String :=
  match r.choice with
  | some (.window, _) => r.log.filterMap windowTitle?
  | _ => []

structure Sounding where
  buzzer : Buzzer
  calls : Array SoundCall

def Sounding.after (s : Sounding) : Deed → Sounding
  | .opened .buzzer => let (b, calls) := Buzzer.standard s.buzzer.kind; ⟨b, s.calls ++ calls⟩
  | .called (.buzzer on) => let (b, calls) := s.buzzer.enable on; ⟨b, s.calls ++ calls⟩
  | .closed .buzzer => ⟨s.buzzer, s.calls ++ s.buzzer.shutdown⟩
  | _ => s

def sounds (r : Report) : List SoundCall :=
  match r.choice with
  | some (_, kind) => (r.log.foldl Sounding.after ⟨⟨kind, false⟩, #[]⟩).calls.toList
  | none => []

end Report

end Chip8.Session
