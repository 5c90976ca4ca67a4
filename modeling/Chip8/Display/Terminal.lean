/-
  Chip8.Display.Terminal — the screen in a text terminal.

  A pad off the screen holds a title line and, below it, each pixel as a run of spaces, `scale` of
  them, in reverse video when the pixel is set. The pad has one column more than that, so that its
  last cell can be written. The pad is copied to the terminal when something was written to it, or
  when the terminal has changed its size.

  What the terminal is asked to do is a list of calls. A pixel or a title line that is too long to be
  spelled out is a fault, and nothing is asked. Without a new pad a new size is refused, and the terminal
  goes on with the old one.
-/
import Chip8.Display.Command
import Chip8.Display.Host
import Chip8.Fault

namespace Chip8.Display

inductive TerminalCall where
  | start
  /-- Cursor visibility: 0 hidden, 1 normal, 2 strong. -/
  | cursor (mode : Int)
  | echoOff
  | lineBufferOff
  /-- A new pad of so many lines and columns replaces the one before. -/
  | pad (lines columns : Int)
  | write (line column : Int) (text : String) (reverse : Bool)
  /-- Copies the pad's top left part to the cells up to this line and column. -/
  | copyPad (lastLine lastColumn : Int)
  | clear
  | resize (lines columns : Int)
  | refresh
  | lineBufferOn
  | echoOn
  | stop
  deriving DecidableEq, Repr

inductive TerminalError where
  | fault (f : Fault)
  /-- The host has no pad of the size. -/
  | noPad
  deriving DecidableEq, Repr

structure Terminal where
  scale : Int
  cursor : Int
  width : Int
  height : Int
  frames : Nat
  /-- Was the pad written to since it was copied? -/
  stale : Bool
  /-- The terminal's lines and columns when a frame was last shown. -/
  seen : Int × Int
  deriving DecidableEq, Repr

namespace Terminal

def cell (t : Terminal) : String := String.ofList (List.replicate t.scale.toNat ' ')

def checkRun (room : Nat) (length : Int) : Except TerminalError Unit :=
  ((Size.ofCopies room length 1).mapError fun e => .fault (.badSize e)).map fun _ => ()

/-- A text cut and filled with spaces to a width. A negative width drops so many characters from the
    end instead. -/
def fitted (text : String) (width : Int) : String :=
  let cs := text.toList
  if 0 ≤ width then
    let kept := cs.take width.toNat
    String.ofList (kept ++ List.replicate (width.toNat - kept.length) ' ')
  else String.ofList (cs.take (cs.length - width.natAbs))

def padColumns (t : Terminal) (width : Int) : Int := width * t.scale + 1

def resized (host : Host) (t : Terminal) (width height : Int) : Except TerminalError (Terminal × List TerminalCall) :=
  if host.pads (height + 1) (t.padColumns width) then
    .ok ({ t with width := width, height := height, stale := true }, [.pad (height + 1) (t.padColumns width)])
  else .error .noPad

/-- A new terminal display; a pixel is two columns wide unless the scale is given. -/
def create (host : Host) (scale : Option Int) (cursor : Int) :
    Except TerminalError (Terminal × List TerminalCall) := do
  let t : Terminal := ⟨scale.getD 2, cursor, 0, 0, 0, false, (-1, -1)⟩
  checkRun host.room t.scale
  let (t, calls) ← t.resized host 0 0
  return (t, [.start, .cursor cursor, .echoOff, .lineBufferOff] ++ calls)

def writePixel (t : Terminal) (pixel : UInt8) (number : Nat) : TerminalCall :=
  .write ((number : Int).fdiv t.width + 1) ((number : Int).fmod t.width * t.scale) t.cell (pixel != 0)

/-- All pixels; a screen of no width has no place for one. -/
def writePixels (t : Terminal) (pixels : List UInt8) : Except TerminalError (List TerminalCall) :=
  if t.width = 0 ∧ pixels ≠ [] then .error (.fault .divisionByZero)
  else .ok (pixels.zipIdx.map fun (pixel, number) => t.writePixel pixel number)

def adapted (t : Terminal) (size : Int × Int) : Terminal × List TerminalCall :=
  if t.seen = size then (t, [])
  else ({ t with seen := size, stale := true }, [.clear, .resize size.1 size.2, .refresh])

def copied (t : Terminal) (size : Int × Int) : Terminal × List TerminalCall :=
  if t.stale then ({ t with stale := false }, [.copyPad (size.1 - 1) (size.2 - 1)]) else (t, [])

/-- Carries out a command on a terminal of this many lines and columns. -/
def apply (host : Host) (t : Terminal) (size : Int × Int) :
    Command → Except TerminalError (Terminal × List TerminalCall)
  | .resolution width height => t.resized host width height
  | .title text => do
    let line := t.width * t.scale
    checkRun host.room line
    return ({ t with stale := true }, [.write 0 0 (fitted text line) true])
  | .frame pixels dirty => do
    let written ← if dirty then t.writePixels pixels.toList else .ok []
    let (t, cleared) := { t with stale := t.stale || dirty }.adapted size
    let (t, shown) := t.copied size
    return ({ t with frames := t.frames + 1 }, written ++ cleared ++ shown)

/-- A command that is refused leaves the terminal as it was. -/
def obey (host : Host) (size : Int × Int) (t : Terminal) (command : Command) : Terminal × Option TerminalError :=
  match t.apply host size command with
  | .ok (t, _) => (t, none)
  | .error e => (t, some e)

def shutdown (t : Terminal) : List TerminalCall :=
  [.lineBufferOn, .echoOn] ++ (if t.cursor = 1 then [] else [.cursor 1]) ++ [.stop]

end Terminal

end Chip8.Display
