/-
  Chip8.Session — a whole session, from its arguments to its report.

  The program's file is read before anything is built. Then the display, the keypad and the buzzer
  are opened, in this order, and closed in the opposite one: before the user is told why the session
  ends, and also when it ends well. A session that is refused ends with status one, one that quits or
  reaches its limit with zero. An error of the caller, or a display without room for the screen, is not
  reported; from the moment the emulator is built, the parts are closed even then.
-/
import Chip8.Display
import Chip8.Keypad
import Chip8.Rom
import Chip8.Session.Arguments
import Chip8.Session.Report

namespace Chip8.Session

structure World where
  read : Text.Wide → Except ReadError (List UInt8)
  libraries : Libraries
  host : Display.Host
  /-- There is room for the memory, the screen, a picture of it and the wave of a tone. -/
  ample : 0x10000 ≤ host.room
  /-- The lines and columns of the terminal. -/
  terminal : Int × Int
  time : Tape Int
  random : Tape UInt8
  /-- What the host collects before each poll; then nothing any more. -/
  signals : List Keypad.Signals

/-! ## Choosing -/

structure Plan where
  dialect : Dialect
  rom : List UInt8
  frontend : Frontend
  buzzer : BuzzerKind
  deriving DecidableEq, Repr

structure Appearance where
  scale : Setting
  palette : Setting
  cursor : Setting
  deriving DecidableEq, Repr

def read : Option Setting → Except Trouble Setting
  | none => .error (.escaped .missingEntry)
  | some s => .ok s

namespace Arguments

def dialect (a : Arguments) : Except Trouble Dialect := do
  let shift ← read a.shift
  let load ← read a.load
  let logic ← read a.logic
  let d : Dialect := {}
  return { shiftInPlace := shift.switch?.getD d.shiftInPlace
           advanceIndex := load.switch?.getD d.advanceIndex
           clearFlag := logic.switch?.getD d.clearFlag }

/-- What a whole number in place of a file's name leads to: it would be the number of an open file,
    which is never below zero and has 31 bits. -/
def numberedFile (n : Int) : Trouble :=
  if Size.Short n then
    if n < 0 then .escaped .negativeFile else .refused (RomError.notOpen.message [])
  else .escaped .badFilename

def program (a : Arguments) (w : World) : Except Trouble (List UInt8) := do
  let filename ← read a.filename
  match filename.name?, filename.number? with
  | some name, _ =>
    match Rom.load w.read Layout.programRoom name with
    | .ok bytes => .ok bytes
    | .error (.name e) => .error (.escaped (.badName e))
    | .error (.rom e) => .error (.refused (e.message name))
  | none, some (.whole n) => .error (numberedFile n)
  | none, _ => .error (.escaped .badFilename)

def frontend (a : Arguments) (w : World) : Except Trouble (Frontend × BuzzerKind) := do
  let choice ← read a.renderer
  let mute ← read a.mute
  (Frontend.select w.libraries choice.choice? mute.switch?).mapError fun e => .refused e.message

def plan (a : Arguments) (w : World) : Except Trouble Plan := do
  let dialect ← a.dialect
  let rom ← a.program w
  let (frontend, buzzer) ← a.frontend w
  return ⟨dialect, rom, frontend, buzzer⟩

def appearance (a : Arguments) : Except Trouble Appearance := do
  let scale ← read a.scale
  let palette ← read a.palette
  let cursor ← read a.cursorMode
  return ⟨scale, palette, cursor⟩

end Arguments

/-! ## Opening and closing -/

/-- The width of a window for a number. A width with a fraction is cut to the whole number below it;
    a fraction that the host cannot hold is refused like one below zero. -/
def widthOf : Number → Int
  | .whole n => n
  | .real x => match x.floor? with
    | some n => if Size.Short n then n else -1
    | none => -1

def width? : Setting → Except Trouble (Option Int)
  | .unset => .ok none
  | s => match s.number? with
    | some n => .ok (some (widthOf n))
    | none => .error (.escaped .notNumber)

def windowTrouble : Display.WindowError → Trouble
  | .palette e => if e.isReported then .refused e.message else .escaped (.window (.palette e))
  | e => .escaped (.window e)

/-- Opens a window. Its size is settled before the palette is looked at. -/
def openWindow (host : Display.Host) (scale palette : Setting) : Except Trouble Display := do
  let width ← width? scale
  let create (text : Option String) : Except Trouble Display :=
    ((Display.Window.create host width text).mapError windowTrouble).map .window
  match palette, palette.text? with
  | .unset, _ => create none
  | _, some s => create (some s)
  | _, none => do
    let _ ← create none
    .error (.escaped .notText)

def columns? : Setting → Except Trouble (Option Int)
  | .unset => .ok none
  | s => match s.number? with
    | some (.whole n) => .ok (some n)
    | _ => .error (.escaped .notNumber)

/-- The cursor mode of a terminal, which has to be set. The host keeps it in 32 bits. -/
def cursorMode (cursor : Setting) : Except Trouble Int :=
  match cursor.number? with
  | some (.whole n) => if Size.Short n then .ok n else .error (.escaped (.fault (.badSize .uncountable)))
  | _ => .error (.escaped .notNumber)

/-- Opens a terminal's display. Its scale is settled before the cursor is looked at. -/
def openTerminal (host : Display.Host) (scale cursor : Setting) : Except Trouble Display := do
  let columns ← columns? scale
  let create (mode : Int) : Except Trouble Display :=
    ((Display.Terminal.create host columns mode).mapError fun e => .escaped (.terminal e)).map fun p => .terminal p.1
  match cursorMode cursor with
  | .ok mode => create mode
  | .error trouble => do
    let _ ← create 0
    .error trouble

def openDisplay (host : Display.Host) (frontend : Frontend) (look : Appearance) : Except Trouble Display :=
  match frontend with
  | .headless => .ok (.headless (.create none))
  | .window => openWindow host look.scale look.palette
  | .terminal => openTerminal host look.scale look.cursor

def openKeypad (a : Arguments) (frontend : Frontend) : Except Trouble Keypad := do
  let keymap ← read a.keymap
  match keymap.text? with
  | some keymap => (Keypad.create frontend keymap).mapError fun e => .refused e.message
  | none => .error (.escaped .notText)

def clockSpeed : Setting → Except Trouble Number
  | .unset => .ok (.whole Activity.defaultClockSpeed)
  | s => match s.number? with
    | some n => .ok n
    | none => .error (.escaped .notNumber)

def opening (part : Part) : List Deed := [.began part, .opened part]

def closing (parts : List Part) : List Deed := parts.reverse.map .closed

def allParts : List Part := [.display, .keypad, .buzzer]

/-- The report of a session in trouble: what is open is closed if the user is to be told. -/
def Report.troubled (choice : Option (Frontend × BuzzerKind)) (log : List Deed) (opened : List Part)
    (lines : List String) : Trouble → Report
  | .refused text => ⟨.exit 1, lines, choice, log ++ closing opened ++ [.told text]⟩
  | .escaped cause => ⟨.escaped cause, lines, choice, log⟩

/-! ## Preparing -/

def banner : List String := [About.banner]

/-- A session whose parts are open and whose emulator is about to boot. -/
structure Ready where
  plan : Plan
  display : Display
  keypad : Keypad
  emulator : Emulator
  time : Tape Int
  log : List Deed

def Escape.ofDisplay : Display.Error → Escape
  | .window e => window e
  | .terminal e => terminal e

/-- Tells the display what a new screen tells it; what it was told is in the log. -/
def greet (w : World) (trouble : List Deed → Trouble → Report) :
    List Display.Command → Display × List Deed → Except Report (Display × List Deed)
  | [], told => .ok told
  | command :: rest, (display, log) => do
    let log := log ++ [.called (.display command)]
    let display ← (display.apply w.host w.terminal command).mapError fun e => trouble log (.escaped (.ofDisplay e))
    greet w trouble rest (display, log)

def prepare (w : World) (a : Arguments) : Except Report Ready := do
  let plan ← (a.plan w).mapError (.troubled none [] [] banner)
  let trouble := Report.troubled (some (plan.frontend, plan.buzzer))
  let look ← a.appearance.mapError (trouble [] [] banner)
  let display ← (openDisplay w.host plan.frontend look).mapError (trouble [.began .display] [] banner)
  let log := opening .display
  let keypad ← (openKeypad a plan.frontend).mapError (trouble (log ++ [.began .keypad]) [.display] banner)
  let log := log ++ opening .keypad ++ opening .buzzer
  let wrap ← (read a.wrap).mapError (trouble log allParts banner)
  let greeting := Screen.greeting Layout.screenWidth Layout.screenHeight
  let (display, log) ← greet w (fun log => trouble log allParts banner) greeting (display, log)
  let debug ← (read a.debug).mapError (trouble log allParts banner)
  let machine := Machine.standard plan.dialect wrap.isOn debug.isOn
  let closed := log ++ closing allParts
  let speed ← (read a.clockSpeed).mapError (trouble closed [] banner)
  let limit ← (read a.maxCycles).mapError (trouble closed [] banner)
  let frequency ← (clockSpeed speed).mapError (trouble closed [] banner)
  let (emulator, time) ← (Emulator.create machine plan.rom frequency limit.limit w.time).mapError
    fun activity => trouble closed [] banner (.refused (Clock.refusal activity.name))
  return ⟨plan, display, keypad, emulator, time, log⟩

/-! ## Running -/

def troubleOf (m : Machine) (halt : Halt) : Trouble :=
  if halt.fault.isReported then .refused (halt.message m) else .escaped (.fault halt.fault)

def Ready.report (r : Ready) (run : Emulator.Run) (outcome : Emulator.Outcome) : Report :=
  let choice := some (r.plan.frontend, r.plan.buzzer)
  let log := r.log ++ run.calls.toList.map .called
  let closed := log ++ closing allParts
  let lines := banner ++ run.lines.toList
  match outcome with
  | .unfinished => ⟨.unfinished, lines, choice, log⟩
  | .finished => ⟨.exit 0, lines, choice, closed⟩
  | .halted halt => .troubled choice closed [] lines (troubleOf run.emulator.machine halt)

def run (fuel : Nat) (w : World) (a : Arguments) : Report :=
  match prepare w a with
  | .error report => report
  | .ok r =>
    let (run, outcome) := r.emulator.run fuel (r.keypad.inputs w.signals) r.time w.random
    r.report run outcome

end Chip8.Session
