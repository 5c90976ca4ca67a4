/-
  Chip8.Main — the program.

  Runs one session from the command line with the real clock, random bytes and files. This program
  has no graphics library, so it runs without a display and ends when a limit is reached or the
  machine crashes.
-/
import Chip8.Options.Help
import Chip8.Session

namespace Chip8.Program

/-- Is this the code of an error? Some systems give it with the opposite sign. -/
def isCode (code : UInt32) (e : FileError) : Bool := code.toNat == e.number || (0 - code).toNat == e.number

def readFile (path : String) : IO (Except ReadError (List UInt8)) := do
  if path.toList.contains (Char.ofNat 0) then return .error (.name .nul)
  try
    let bytes ← IO.FS.readBinFile path
    return .ok bytes.toList
  catch
    | .permissionDenied .. => return .error (.file .denied)
    | .inappropriateType _ code _ =>
      return .error (.file (if isCode code .notDirectory then .notDirectory else .isDirectory))
    | .invalidArgument .. => return .error (.file .nameTooLong)
    | _ => return .error (.file .notFound)

def microseconds : IO Int := do
  let now ← IO.monoNanosNow
  return now / 1000

partial def takeTurns (e : Emulator) : IO (Emulator × Emulator.Outcome) := do
  let now ← microseconds
  let byte ← IO.rand 0 255
  let t := e.turn Input.idle (Tape.ofFn fun _ => now) (Tape.ofFn fun _ => UInt8.ofNat byte)
  if let some line := t.line then IO.println line
  match t.halt with
  | some halt => return (t.emulator, .halted halt)
  | none => if t.final then return (t.emulator, .finished) else takeTurns t.emulator

def runEmulator (e : Emulator) : IO (Emulator × Emulator.Outcome) :=
  match e.boot with
  | (e, _, some fault) => return (e, .halted (.boot fault))
  | (e, _, none) => takeTurns e

def conclude (report : Session.Report) : IO UInt32 := do
  for text in report.complaints do IO.eprintln text
  match report.ending with
  | .exit status => return UInt32.ofNat status
  | _ => return 1

def runSession (options : Options) : IO UInt32 := do
  IO.println About.banner
  let found ← readFile options.filename
  let now ← microseconds
  let world : Session.World :=
    { read := fun _ => found, libraries := ⟨false, false⟩, host := .common, ample := Display.Host.ample_common
      terminal := (24, 80), time := Tape.ofFn fun _ => now, random := Tape.ofFn fun _ => 0, signals := [] }
  match Session.prepare world (.ofOptions options) with
  | .error report => conclude report
  | .ok ready =>
    let (e, outcome) ← runEmulator ready.emulator
    conclude (ready.report ⟨e, ready.time, world.random, #[], #[]⟩ outcome)

end Chip8.Program

def main (arguments : List String) : IO UInt32 := do
  match Chip8.Options.parse arguments with
  | .ok options => Chip8.Program.runSession options
  | .error .help =>
    for line in Chip8.Options.helpLines do IO.println line
    return 0
  | .error .usage =>
    IO.eprintln Chip8.Options.usage
    return 2
