/-
  Chip8.Emulator — a machine, its clocks, and the turns of the main loop.

  A turn polls the keypad, acts on what the user asked for, and then runs what is due: one
  instruction, the timers, a frame, and once a second the performance figures, always in this order.
  Quitting ends the turn before anything else. While paused only frames and figures go on, and the
  buzzer is silent; on resuming every clock starts a fresh period. Nothing waits: time samples and
  random bytes are read from tapes.
-/
import Chip8.Host
import Chip8.Machine.Cycle
import Chip8.Scheduler
import Chip8.Tape

namespace Chip8

/-! ## Activities -/

inductive Activity where
  | cpu
  | timers
  | display
  | performance
  deriving DecidableEq, Repr

namespace Activity

def name : Activity → String
  | cpu => "cpu"
  | timers => "timers"
  | display => "display"
  | performance => "perf"

def defaultClockSpeed : Nat := 1000

def timerFrequency : Nat := 60

def displayFrequency : Nat := 60

/-- The clocks of an emulator, in the order in which they are registered. -/
def frequencies (clockSpeed : Number) : List (Number × Activity) :=
  [(clockSpeed, cpu), (.whole timerFrequency, timers), (.whole displayFrequency, display), (.whole 1, performance)]

end Activity

/-! ## Limits -/

inductive Limit where
  | never
  /-- When so many instructions are completed. -/
  | after (instructions : Number)
  /-- The limit is no number. This comes to light when it is first compared. -/
  | unreadable
  deriving DecidableEq, Repr

def Limit.isReached (cycles : Nat) : Limit → Except Fault Bool
  | never => .ok false
  | after n => .ok (n.isAtMost cycles)
  | unreadable => .error .notNumber

/-! ## The emulator -/

structure Emulator where
  machine : Machine
  clocks : Scheduler Activity
  rom : List UInt8
  limit : Limit
  paused : Bool
  buzzing : Bool
  /-- Instructions completed since the emulator was built. -/
  cycles : Nat
  /-- Frames and instructions since the last report of the figures. -/
  frames : Nat
  instructions : Nat
  deriving DecidableEq, Repr

/-- Why an emulator stopped: the program did not fit, an instruction failed, or a limit could not be
    compared. -/
inductive Halt where
  | boot (fault : Fault)
  | crash (fault : Fault)
  | limit (fault : Fault)
  deriving DecidableEq, Repr

namespace Halt

def fault : Halt → Fault
  | boot f => f
  | crash f => f
  | limit f => f

def message (m : Machine) : Halt → String
  | boot f => f.message
  | crash f => m.faultReport f
  | limit f => f.message

end Halt

namespace Emulator

/-- Registers clocks, reading one time sample for each, up to one that is refused. -/
def register (clocks : Scheduler Activity) (time : Tape Int) :
    List (Number × Activity) → Except Activity (Scheduler Activity × Tape Int)
  | [] => .ok (clocks, time)
  | (frequency, activity) :: rest =>
    match clocks.add? frequency activity time.head with
    | none => .error activity
    | some clocks => register clocks time.tail rest

/-- An emulator before its first boot, and the time after its clocks are registered; the error is
    the activity whose clock was refused. -/
def create (machine : Machine) (rom : List UInt8) (clockSpeed : Number) (limit : Limit) (time : Tape Int) :
    Except Activity (Emulator × Tape Int) := do
  let (clocks, time) ← register [] time (Activity.frequencies clockSpeed)
  return ({ machine, clocks, rom, limit, paused := false, buzzing := false, cycles := 0, frames := 0,
            instructions := 0 }, time)

/-! ## Booting and pausing -/

def setBuzzer (e : Emulator) (on : Bool) : Emulator × List HostCall :=
  if on = e.buzzing then (e, []) else ({ e with buzzing := on }, [.buzzer on])

/-- The font and then the program in zeroed memory; the machine as far as it got. -/
def loadProgram (m : Machine) (rom : List UInt8) : Machine × Option Fault :=
  let cleared := m.memory.cleared
  match cleared.writeBlock Layout.fontStart Layout.font with
  | .error f => ({ m with memory := cleared }, some f)
  | .ok memory =>
    match memory.writeBlock Layout.programStart rom with
    | .error f => ({ m with memory := memory }, some f)
    | .ok memory => ({ m with memory := memory }, none)

def bootMachine (m : Machine) (rom : List UInt8) : Machine × Option Fault :=
  match loadProgram m rom with
  | (m, some f) => (m, some f)
  | (m, none) => (m.reset, none)

/-- Starts the program from the beginning. Counters, clocks and the pause are left as they are. -/
def boot (e : Emulator) : Emulator × List HostCall × Option Fault :=
  match bootMachine e.machine e.rom with
  | (m, some f) => ({ e with machine := m }, [], some f)
  | (m, none) =>
    let (e, calls) := { e with machine := m }.setBuzzer false
    (e, calls, none)

/-- Pauses, or resumes with every clock rebased to one time sample. -/
def togglePause (e : Emulator) (time : Tape Int) : Emulator × Tape Int × List HostCall :=
  if e.paused then ({ e with paused := false, clocks := e.clocks.rebase time.head }, time.tail, [])
  else
    let (e, calls) := { e with paused := true }.setBuzzer false
    (e, time, calls)

def respond (e : Emulator) (time : Tape Int) : Option HostEvent → Emulator × Tape Int × List HostCall × Option Fault
  | some .pause =>
    let (e, time, calls) := e.togglePause time
    (e, time, calls, none)
  | some .reset =>
    let (e, calls, fault) := e.boot
    (e, time, calls, fault)
  | _ => (e, time, [], none)

/-! ## What is due -/

structure Work where
  emulator : Emulator
  random : Tape UInt8
  calls : List HostCall
  line : Option String
  fault : Option Fault

def runCpu (e : Emulator) (due : List Activity) (keys : Keys) (random : Tape UInt8) : Work :=
  if .cpu ∈ due then
    let c := e.machine.cycle keys random.head
    let random := if c.drew then random.tail else random
    match c.fault with
    | some f => ⟨{ e with machine := c.machine }, random, [], c.line, some f⟩
    | none =>
      ⟨{ e with machine := c.machine, cycles := e.cycles + 1, instructions := e.instructions + 1 }, random, [],
        c.line, none⟩
  else ⟨e, random, [], none, none⟩

def runTimers (e : Emulator) (due : List Activity) : Emulator :=
  if .timers ∈ due then { e with machine := e.machine.countDown } else e

/-- The machine's part of a turn: nothing while paused, and nothing after a fault. -/
def runMachine (e : Emulator) (due : List Activity) (keys : Keys) (random : Tape UInt8) : Work :=
  if e.paused then ⟨e, random, [], none, none⟩
  else
    let work := e.runCpu due keys random
    match work.fault with
    | some _ => work
    | none =>
      let timed := work.emulator.runTimers due
      let (e, calls) := timed.setBuzzer timed.machine.isBuzzing
      { work with emulator := e, calls := calls }

def present (e : Emulator) : Emulator × List HostCall :=
  let (screen, command) := e.machine.screen.frame
  ({ e with machine := { e.machine with screen := screen } }, [.display command])

def runDisplay (e : Emulator) (due : List Activity) : Emulator × List HostCall :=
  if .display ∈ due then
    let (e, calls) := e.present
    ({ e with frames := e.frames + 1 }, calls)
  else (e, [])

def runPerformance (e : Emulator) (due : List Activity) : Emulator × List HostCall :=
  if .performance ∈ due then
    ({ e with frames := 0, instructions := 0 }, [.display (.title (About.title e.frames e.instructions))])
  else (e, [])

/-! ## Turns -/

structure Turn where
  emulator : Emulator
  time : Tape Int
  random : Tape UInt8
  calls : List HostCall
  line : Option String
  halt : Option Halt
  /-- Is this the last turn of a run? -/
  final : Bool

def turn (e : Emulator) (input : Input) (time : Tape Int) (random : Tape UInt8) : Turn :=
  if input.event = some .quit then ⟨e, time, random, [.poll], none, none, true⟩
  else
    let (e, time, asked, fault) := e.respond time input.event
    match fault with
    | some f => ⟨e, time, random, .poll :: asked, none, some (.boot f), false⟩
    | none =>
      let due := e.clocks.due time.head
      let e := { e with clocks := e.clocks.polled time.head }
      let time := time.tail
      let work := e.runMachine due input.keys random
      match work.fault with
      | some f =>
        ⟨work.emulator, time, work.random, .poll :: asked ++ work.calls, work.line, some (.crash f), false⟩
      | none =>
        let (e, shown) := work.emulator.runDisplay due
        let (e, reported) := e.runPerformance due
        let calls := .poll :: asked ++ work.calls ++ shown ++ reported
        match e.limit.isReached e.cycles with
        | .ok final => ⟨e, time, work.random, calls, work.line, none, final⟩
        | .error f => ⟨e, time, work.random, calls, work.line, some (.limit f), false⟩

/-! ## Runs -/

inductive Outcome where
  | finished
  | halted (halt : Halt)
  /-- The run was cut off before it ended. -/
  | unfinished
  deriving DecidableEq, Repr

structure Run where
  emulator : Emulator
  time : Tape Int
  random : Tape UInt8
  calls : Array HostCall
  lines : Array String

namespace Run

def after (r : Run) (t : Turn) : Run :=
  ⟨t.emulator, t.time, t.random, r.calls ++ t.calls, match t.line with
    | some line => r.lines.push line
    | none => r.lines⟩

def close (r : Run) : Run :=
  let (e, shown) := r.emulator.present
  let (e, silenced) := e.setBuzzer false
  { r with emulator := e, calls := r.calls ++ shown ++ silenced }

/-- Takes turns until one is the last, but at most `fuel` of them. -/
def go : Nat → Tape Input → Run → Run × Outcome
  | 0, _, r => (r, .unfinished)
  | fuel + 1, inputs, r =>
    let t := r.emulator.turn inputs.head r.time r.random
    let r := r.after t
    match t.halt with
    | some h => (r, .halted h)
    | none => if t.final then (r.close, .finished) else go fuel inputs.tail r

end Run

def run (fuel : Nat) (e : Emulator) (inputs : Tape Input) (time : Tape Int) (random : Tape UInt8) : Run × Outcome :=
  let (e, calls, fault) := e.boot
  let start : Run := ⟨e, time, random, calls.toArray, #[]⟩
  match fault with
  | some f => (start, .halted (.boot f))
  | none => Run.go fuel inputs start

end Emulator

end Chip8
