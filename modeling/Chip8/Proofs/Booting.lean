/-
  Chip8.Proofs.Booting — a boot forgets everything that came before it.

  Of a machine only its build lasts: sizes, dialect, wrapping and tracing. `Machine.wiped` is a machine
  with all the rest at its start, and nothing that the main loop does changes it (`Move.asBuilt`). A
  boot makes the machine from the wiped one, the font and the program (`bootMachine_eq`), so it ends in
  the same state whatever the program did before. What a boot leaves alone are the clocks and the
  counts. They tell nothing to a turn that is handed what is due (`turnOn_alike`), so a booted emulator
  and a new one go on alike.
-/
import Chip8.Proofs.Changes
import Chip8.Proofs.Moves

namespace Chip8

/-! ## What lasts -/

theorem Memory.cleared_zeros (n : Nat) : (Memory.zeros n).cleared = .zeros n := by
  simp only [Memory.cleared, Memory.zeros, Array.size_replicate]

namespace Machine

variable {m n : Machine}

def wiped (m : Machine) : Machine := { m.reset with memory := m.memory.cleared }

theorem Kept.wiped (kept : Kept m n) : n.wiped = m.wiped := by
  simp only [Machine.wiped, reset, CallStack.clear, kept.dialect, kept.traced, kept.limit, kept.clear,
    Memory.cleared_of_size kept.size]

theorem wiped_standard (dialect : Dialect) (wrapping traced : Bool) :
    (standard dialect wrapping traced).wiped = standard dialect wrapping traced := by
  have plane := Memory.cleared_zeros (Layout.screenWidth * Layout.screenHeight)
  simp only [wiped, standard, create, reset, Memory.cleared_zeros, Screen.clear, Screen.blank, plane]
  rfl

/-! ## What a boot makes -/

def image (rom : List UInt8) : Memory :=
  ((Memory.zeros Layout.memorySize).withBlock Layout.fontStart Layout.font).withBlock Layout.programStart rom

/-- Is a machine at the start of a program, with nothing but the font and the program in it? -/
structure Booted (m : Machine) (rom : List UInt8) : Prop where
  size : m.memory.size = 0x1000
  font : ∀ k : Nat, k < 80 → m.memory.byteAt (0x50 + k) = Layout.font.getD k 0
  program : ∀ k : Nat, k < rom.length → m.memory.byteAt (0x200 + k) = rom.getD k 0
  zero : ∀ a : Int, ¬(0x50 ≤ a ∧ a < 0x50 + 80) → ¬(0x200 ≤ a ∧ a < 0x200 + rom.length) → m.memory.byteAt a = 0
  registers : ∀ x, m.v.get x = 0
  index : m.index = 0
  delay : m.delay = 0
  sound : m.sound = 0
  pc : m.pc = 0x200
  origin : m.origin = 0x200
  opcode : m.opcode = 0
  stack : m.stack.addresses = []
  screen : m.screen.Shaped 64 32
  clear : ∀ b ∈ m.screen.plane.bytes, b = 0
  dirty : m.screen.dirty = true

theorem holds_font : (Memory.zeros Layout.memorySize).Holds Layout.fontStart Layout.font.length := by
  simp only [Memory.Holds, Memory.size_zeros, Layout.memorySize, Layout.fontStart, Layout.font_length, Layout.glyphSize]
  omega

theorem size_font : ((Memory.zeros Layout.memorySize).withBlock Layout.fontStart Layout.font).size = 0x1000 := by
  rw [Memory.size_withBlock, Memory.size_zeros]
  rfl

section

variable {rom : List UInt8} (fits : rom.length ≤ Layout.programRoom)
include fits

theorem holds_program {m : Memory} (size : m.size = 0x1000) : m.Holds Layout.programStart rom.length := by
  simp only [Layout.programRoom, Layout.memorySize, Layout.programStart] at fits
  simp only [Memory.Holds, Layout.programStart]
  omega

theorem byteAt_image (a : Int) :
    (image rom).byteAt a =
      if 0x200 ≤ a ∧ a < 0x200 + rom.length then rom.getD (a - 0x200).toNat 0
      else if 0x50 ≤ a ∧ a < 0x50 + 80 then Layout.font.getD (a - 0x50).toNat 0 else 0 := by
  rw [image, Memory.byteAt_withBlock (holds_program fits size_font),
    Memory.byteAt_withBlock holds_font, Memory.byteAt_zeros]
  rfl

/-- A program that fits is loaded, and the machine is as wiped but for memory. -/
theorem bootMachine_eq {m : Machine} (size : m.memory.size = Layout.memorySize) :
    Emulator.bootMachine m rom = ({ m.wiped with memory := image rom }, none) := by
  have cleared : m.memory.cleared = .zeros Layout.memorySize :=
    (Memory.cleared_of_size (size.trans (Memory.size_zeros _).symm)).trans (Memory.cleared_zeros _)
  simp only [Emulator.bootMachine, Emulator.loadProgram, cleared, Memory.writeBlock_of_holds holds_font,
    Memory.writeBlock_of_holds (holds_program fits size_font)]
  rfl

theorem booted_standard (dialect : Dialect) (wrapping traced : Bool) :
    Booted { standard dialect wrapping traced with memory := image rom } rom where
  size := by rw [image, Memory.size_withBlock, Memory.size_withBlock, Memory.size_zeros]; rfl
  font k small := by
    simp only [byteAt_image fits]
    rw [if_neg (by omega), if_pos (by omega), show (0x50 + (k : Int) - 0x50).toNat = k by omega]
  program k small := by
    simp only [byteAt_image fits]
    rw [if_pos (by omega), show (0x200 + (k : Int) - 0x200).toNat = k by omega]
  zero a notFont notProgram := by
    simp only [byteAt_image fits]
    rw [if_neg notProgram, if_neg notFont]
  registers x := by simp [standard, create, reset, Registers.zero, Registers.get]
  index := rfl
  delay := rfl
  sound := rfl
  pc := rfl
  origin := rfl
  opcode := rfl
  stack := rfl
  screen := Screen.clear_shaped (Screen.blank_shaped 64 32 wrapping)
  clear b mem := by
    simp only [standard, create, reset, Screen.clear, Memory.cleared, Array.mem_replicate] at mem
    exact mem.2
  dirty := rfl

end

end Machine

namespace Emulator

/-! ## Emulators of the same settings -/

structure Settings where
  dialect : Dialect
  wrapping : Bool
  traced : Bool
  rom : List UInt8
  speed : Number
  limit : Limit

namespace Settings

def machine (s : Settings) : Machine := .standard s.dialect s.wrapping s.traced

def build (s : Settings) (time : Tape Int) : Except Activity (Emulator × Tape Int) :=
  create s.machine s.rom s.speed s.limit time

end Settings

def fresh (s : Settings) (clocks : Scheduler Activity) : Emulator :=
  { machine := s.machine, clocks, rom := s.rom, limit := s.limit, paused := false, buzzing := false, cycles := 0,
    frames := 0, instructions := 0 }

/-- A new emulator has its clocks registered, and nothing else done to it. -/
theorem register_of_build {s : Settings} {e : Emulator} {time later : Tape Int}
    (made : s.build time = .ok (e, later)) :
    e = fresh s e.clocks ∧ register [] time (Activity.frequencies s.speed) = .ok (e.clocks, later) := by
  unfold Settings.build create at made
  rcases registered : register [] time (Activity.frequencies s.speed) with _ | ⟨clocks, rest⟩
  · rw [registered] at made
    cases made
  · rw [registered] at made
    cases made
    exact ⟨rfl, rfl⟩

theorem eq_fresh_of_build {s : Settings} {e : Emulator} {time later : Tape Int}
    (made : s.build time = .ok (e, later)) : ∃ clocks, e = fresh s clocks :=
  ⟨e.clocks, (register_of_build made).1⟩

theorem register_cons {frequency : Number} {activity : Activity} {rest : List (Number × Activity)}
    {clocks made : Scheduler Activity} {time later : Tape Int}
    (done : register clocks time ((frequency, activity) :: rest) = .ok (made, later)) :
    ∃ c, Clock.create? frequency activity time.head = some c ∧ (c.frequency, c.activity) = (frequency, activity) ∧
      register (clocks ++ [c]) time.tail rest = .ok (made, later) := by
  by_cases positive : frequency.isPositive = true
  · have created : Clock.create? frequency activity time.head = some ⟨activity, frequency, _, _, rfl, time.head⟩ :=
      if_pos positive
    simp only [register, Scheduler.add?, created, Option.map_some] at done
    exact ⟨_, created, rfl, done⟩
  · have refused : Clock.create? frequency activity time.head = none := if_neg positive
    simp only [register, Scheduler.add?, refused, Option.map_none] at done
    cases done

theorem register_of_positive {frequencies : List (Number × Activity)}
    (positive : ∀ p ∈ frequencies, p.1.isPositive = true) (clocks : Scheduler Activity) (time : Tape Int) :
    ∃ registered, register clocks time frequencies = .ok registered := by
  induction frequencies generalizing clocks time with
  | nil => exact ⟨_, rfl⟩
  | cons p rest ih =>
    obtain ⟨first, others⟩ := List.forall_mem_cons.mp positive
    simp only [register, Scheduler.add?, Clock.create?, first, if_true, Option.map_some]
    exact ih others _ _

/-- Only the clock of the instructions can be refused. -/
theorem build_of_positive (s : Settings) (fast : s.speed.isPositive = true) (time : Tape Int) :
    ∃ clocks later, s.build time = .ok (fresh s clocks, later) := by
  have positive : ∀ p ∈ Activity.frequencies s.speed, p.1.isPositive = true := by
    simp only [Activity.frequencies, List.forall_mem_cons]
    exact ⟨fast, rfl, rfl, rfl, fun _ none => absurd none List.not_mem_nil⟩
  obtain ⟨⟨clocks, later⟩, registered⟩ := register_of_positive positive [] time
  refine ⟨clocks, later, ?_⟩
  rw [Settings.build, create, registered]
  rfl

/-- The emulators of some settings: a new one, and what boots, pauses, turns and runs make of it. -/
inductive Reached (s : Settings) : Emulator → Prop
  | built {e : Emulator} {time later : Tape Int} : s.build time = .ok (e, later) → Reached s e
  | boot {e : Emulator} : Reached s e → Reached s e.boot.1
  | togglePause {e : Emulator} (time : Tape Int) : Reached s e → Reached s (e.togglePause time).1
  | turn {e : Emulator} (input : Input) (time : Tape Int) (random : Tape UInt8) :
      Reached s e → Reached s (e.turn input time random).emulator
  | run {e : Emulator} (fuel : Nat) (inputs : Tape Input) (time : Tape Int) (random : Tape UInt8) :
      Reached s e → Reached s (e.run fuel inputs time random).1.emulator

structure AsBuilt (s : Settings) (e : Emulator) : Prop where
  machine : e.machine.wiped = s.machine
  rom : e.rom = s.rom
  limit : e.limit = s.limit

theorem Move.asBuilt {s : Settings} {e f : Emulator} {calls : List HostCall} (built : AsBuilt s e)
    (move : Move e f calls) : AsBuilt s f := by
  cases move with
  | boot => exact { built with machine := (e.machine.kept_boot e.rom).wiped.trans built.machine }
  | complete keys chance _ | crash keys chance _ =>
    exact { built with machine := (e.machine.kept_cycle keys chance).wiped.trans built.machine }
  | _ => exact { built with }

theorem Moves.asBuilt {s : Settings} {e f : Emulator} {calls : List HostCall} (built : AsBuilt s e)
    (moves : Moves e f calls) : AsBuilt s f := by
  induction moves with
  | none => exact built
  | snoc _ move ih => exact move.asBuilt ih

theorem Reached.asBuilt {s : Settings} {e : Emulator} (reached : Reached s e) : AsBuilt s e := by
  induction reached with
  | built made =>
    obtain ⟨clocks, rfl⟩ := eq_fresh_of_build made
    exact ⟨Machine.wiped_standard _ _ _, rfl, rfl⟩
  | boot _ ih => exact (boot_moves _).asBuilt ih
  | togglePause time _ ih => exact (togglePause_moves _ time).asBuilt ih
  | turn input time random _ ih => exact (turn_moves _ input time random).asBuilt ih
  | run fuel inputs time random _ ih => exact (run_moves fuel _ inputs time random).asBuilt ih

/-! ## What clocks and counts do not show -/

/-- Do two emulators differ at most in their clocks and counts? -/
def Alike (e f : Emulator) : Prop :=
  ∃ clocks cycles frames instructions,
    f = { e with clocks := clocks, cycles := cycles, frames := frames, instructions := instructions }

section

variable {e f : Emulator}

theorem Alike.machine_eq (alike : Alike e f) : f.machine = e.machine := by
  obtain ⟨_, _, _, _, rfl⟩ := alike
  rfl

theorem Alike.paused_eq (alike : Alike e f) : f.paused = e.paused := by
  obtain ⟨_, _, _, _, rfl⟩ := alike
  rfl

theorem Alike.limit_eq (alike : Alike e f) : f.limit = e.limit := by
  obtain ⟨_, _, _, _, rfl⟩ := alike
  rfl

theorem setBuzzer_alike (alike : Alike e f) (on : Bool) : Alike (e.setBuzzer on).1 (f.setBuzzer on).1 := by
  obtain ⟨clocks, cycles, frames, instructions, rfl⟩ := alike
  unfold setBuzzer
  split <;> exact ⟨clocks, cycles, frames, instructions, rfl⟩

theorem boot_alike (alike : Alike e f) : Alike e.boot.1 f.boot.1 ∧ e.boot.2.2 = f.boot.2.2 := by
  obtain ⟨clocks, cycles, frames, instructions, rfl⟩ := alike
  unfold boot
  simp only
  rcases bootMachine e.machine e.rom with ⟨m, _ | fault⟩
  · exact ⟨setBuzzer_alike ⟨clocks, cycles, frames, instructions, rfl⟩ false, rfl⟩
  · exact ⟨⟨clocks, cycles, frames, instructions, rfl⟩, rfl⟩

theorem togglePause_alike (alike : Alike e f) (time later : Tape Int) :
    Alike (e.togglePause time).1 (f.togglePause later).1 := by
  obtain ⟨clocks, cycles, frames, instructions, rfl⟩ := alike
  unfold togglePause
  split
  · exact ⟨_, cycles, frames, instructions, rfl⟩
  · exact setBuzzer_alike ⟨clocks, cycles, frames, instructions, rfl⟩ false

theorem respond_alike (alike : Alike e f) (time later : Tape Int) (event : Option HostEvent) :
    Alike (e.respond time event).1 (f.respond later event).1 ∧
      (e.respond time event).2.2.2 = (f.respond later event).2.2.2 := by
  unfold respond
  split
  · exact ⟨togglePause_alike alike time later, rfl⟩
  · exact boot_alike alike
  · exact ⟨alike, rfl⟩

def Work.Alike (w v : Work) : Prop :=
  Emulator.Alike w.emulator v.emulator ∧ w.random = v.random ∧ w.line = v.line ∧ w.fault = v.fault

theorem runCpu_alike (alike : Alike e f) (due : List Activity) (keys : Keys) (random : Tape UInt8) :
    (e.runCpu due keys random).Alike (f.runCpu due keys random) := by
  obtain ⟨clocks, cycles, frames, instructions, rfl⟩ := alike
  unfold runCpu
  split
  · simp only
    split
    · exact ⟨⟨clocks, cycles, frames, instructions, rfl⟩, rfl, rfl, rfl⟩
    · exact ⟨⟨clocks, _, frames, _, rfl⟩, rfl, rfl, rfl⟩
  · exact ⟨⟨clocks, cycles, frames, instructions, rfl⟩, rfl, rfl, rfl⟩

theorem runTimers_alike (alike : Alike e f) (due : List Activity) : Alike (e.runTimers due) (f.runTimers due) := by
  obtain ⟨clocks, cycles, frames, instructions, rfl⟩ := alike
  unfold runTimers
  split <;> exact ⟨clocks, cycles, frames, instructions, rfl⟩

theorem runMachine_alike (alike : Alike e f) (due : List Activity) (keys : Keys) (random : Tape UInt8) :
    (e.runMachine due keys random).Alike (f.runMachine due keys random) := by
  obtain ⟨same, tape, line, fault⟩ := runCpu_alike alike due keys random
  unfold runMachine
  rw [alike.paused_eq]
  split
  · exact ⟨alike, rfl, rfl, rfl⟩
  · simp only [← fault]
    split
    · next g failed => exact ⟨same, tape, line, fault⟩
    · have timed := runTimers_alike same due
      rw [← timed.machine_eq]
      exact ⟨setBuzzer_alike timed _, tape, line, rfl⟩

theorem runDisplay_alike (alike : Alike e f) (due : List Activity) :
    Alike (e.runDisplay due).1 (f.runDisplay due).1 := by
  obtain ⟨clocks, cycles, frames, instructions, rfl⟩ := alike
  unfold runDisplay
  split
  · exact ⟨clocks, cycles, _, instructions, rfl⟩
  · exact ⟨clocks, cycles, frames, instructions, rfl⟩

theorem runPerformance_alike (alike : Alike e f) (due : List Activity) :
    Alike (e.runPerformance due).1 (f.runPerformance due).1 := by
  obtain ⟨clocks, cycles, frames, instructions, rfl⟩ := alike
  unfold runPerformance
  split
  · exact ⟨clocks, cycles, 0, 0, rfl⟩
  · exact ⟨clocks, cycles, frames, instructions, rfl⟩

def Turn.Alike (t u : Turn) : Prop :=
  Emulator.Alike t.emulator u.emulator ∧ t.random = u.random ∧ t.line = u.line ∧ t.halt = u.halt

/-- Whether a limit can be compared does not depend on the count. -/
theorem isReached_alike (limit : Limit) (n k : Nat) :
    (∃ a b, limit.isReached n = .ok a ∧ limit.isReached k = .ok b) ∨
      ∃ f, limit.isReached n = .error f ∧ limit.isReached k = .error f := by
  cases limit with
  | never => exact .inl ⟨_, _, rfl, rfl⟩
  | after count => exact .inl ⟨_, _, rfl, rfl⟩
  | unreadable => exact .inr ⟨_, rfl, rfl⟩

/-- A turn that is handed what is due shows nothing of clocks and counts. -/
theorem turnOn_alike (alike : Alike e f) (due : List Activity) (input : Input) (time later : Tape Int)
    (random : Tape UInt8) : (e.turnOn due input time random).Alike (f.turnOn due input later random) := by
  obtain ⟨responded, fault⟩ := respond_alike alike time later input.event
  unfold turnOn
  split
  · exact ⟨alike, rfl, rfl, rfl⟩
  · rcases first : e.respond time input.event with ⟨a, timeA, askedA, faultA⟩
    rcases second : f.respond later input.event with ⟨b, timeB, askedB, faultB⟩
    rw [first, second] at responded fault
    obtain rfl : faultA = faultB := fault
    cases faultA with
    | some g => exact ⟨responded, rfl, rfl, rfl⟩
    | none =>
      -- the answers to a pause and a poll of the clocks are all that the time goes into
      have polled : Alike { a with clocks := a.clocks.polled timeA.head }
          { b with clocks := b.clocks.polled timeB.head } := by
        obtain ⟨_, cycles, frames, instructions, rfl⟩ := responded
        exact ⟨_, cycles, frames, instructions, rfl⟩
      obtain ⟨worked, tape, line, fault⟩ := runMachine_alike polled due input.keys random
      simp only [← fault]
      split
      · next g failed => exact ⟨worked, tape, line, rfl⟩
      · have reported := runPerformance_alike (runDisplay_alike worked due) due
        have limit := reported.limit_eq
        rw [limit]
        rcases isReached_alike _ _ _ with ⟨x, y, reachedX, reachedY⟩ | ⟨g, reachedX, reachedY⟩
        · rw [reachedX, reachedY]
          exact ⟨reported, tape, line, rfl⟩
        · rw [reachedX, reachedY]
          exact ⟨reported, tape, line, rfl⟩

end

/-! ## Booting -/

structure View where
  machine : Machine
  buzzing : Bool
  line : Option String
  halt : Option Halt

def Turn.view (t : Turn) : View := ⟨t.emulator.machine, t.emulator.buzzing, t.line, t.halt⟩

/-- Turns one after another, faults or not, each with its input and what is due. -/
def turnsOn (e : Emulator) (time : Tape Int) (random : Tape UInt8) : List (Input × List Activity) → List Turn
  | [] => []
  | (input, due) :: rest =>
    let t := e.turnOn due input time random
    t :: t.emulator.turnsOn t.time t.random rest

theorem turnsOn_alike {e f : Emulator} (alike : Alike e f) (feeds : List (Input × List Activity))
    (time later : Tape Int) (random : Tape UInt8) :
    (e.turnsOn time random feeds).map Turn.view = (f.turnsOn later random feeds).map Turn.view := by
  induction feeds generalizing e f time later random with
  | nil => rfl
  | cons feed rest ih =>
    obtain ⟨input, due⟩ := feed
    obtain ⟨same, tape, line, halt⟩ := turnOn_alike alike due input time later random
    have head : (e.turnOn due input time random).view = (f.turnOn due input later random).view := by
      obtain ⟨_, _, _, _, parts⟩ := same
      simp only [Turn.view, parts, line, halt]
    rw [turnsOn, turnsOn, List.map_cons, List.map_cons, head, tape]
    exact congrArg _ (ih same _ _ _)

theorem AsBuilt.boot_eq {s : Settings} {e : Emulator} (built : AsBuilt s e) (fits : s.rom.length ≤ Layout.programRoom) :
    e.boot = ({ e with machine := { s.machine with memory := Machine.image s.rom }, buzzing := false },
      if e.buzzing then [.buzzer false] else [], none) := by
  have size : e.machine.memory.size = Layout.memorySize := by
    have wiped : e.machine.memory.cleared = s.machine.memory := congrArg Machine.memory built.machine
    rw [← Memory.size_cleared, wiped]
    exact Memory.size_zeros _
  unfold boot
  rw [built.rom, Machine.bootMachine_eq fits size, built.machine]
  cases sounding : e.buzzing <;> simp [setBuzzer]

/-- A boot never fails for a program that fits. It leaves the font, the program and zeros, whatever ran
    before, and from there on an emulator that is not paused does turn for turn what a new one does. -/
theorem boot_forgets (s : Settings) (fits : s.rom.length ≤ 3584) {e new : Emulator} {time later : Tape Int}
    (reached : Reached s e) (built : s.build time = .ok (new, later)) :
    e.boot.2.2 = none ∧ e.boot.1.machine.Booted s.rom ∧ e.boot.1.buzzing = false ∧
    (e.paused = false → ∀ feeds timeA timeB random,
      (e.boot.1.turnsOn timeA random feeds).map Turn.view = (new.boot.1.turnsOn timeB random feeds).map Turn.view) := by
  have first := reached.asBuilt.boot_eq fits
  have second := (Reached.built built).asBuilt.boot_eq fits
  rw [first, second]
  have booted := Machine.booted_standard fits s.dialect s.wrapping s.traced
  refine ⟨rfl, booted, rfl, ?_⟩
  intro running feeds timeA timeB random
  obtain ⟨clocks, rfl⟩ := eq_fresh_of_build built
  refine turnsOn_alike ⟨clocks, 0, 0, 0, ?_⟩ feeds timeA timeB random
  simp only [fresh, running, reached.asBuilt.rom, reached.asBuilt.limit]

/-- An emulator that was not booted runs into a word of zeros; booted then, it goes on like a new one. -/
theorem boot_forgets_a_crash :
    let s : Settings := ⟨{}, true, false, [0x60, 0x07, 0xF0, 0x29], .whole 1000, .never⟩
    let time : Tape Int := .ofFn fun k => 1000 * k
    let random : Tape UInt8 := .ofFn fun _ => 0
    ∃ new later, s.build time = .ok (new, later) ∧
      ∀ feeds, (((new.turn .idle later random).emulator.boot.1.turnsOn later random feeds).map Turn.view) =
        (new.boot.1.turnsOn later random feeds).map Turn.view := by
  intro s time random
  obtain ⟨clocks, later, built⟩ := build_of_positive s rfl time
  have turned : Reached s ((fresh s clocks).turn .idle later random).emulator := .turn .idle later random (.built built)
  have running : ((fresh s clocks).turn .idle later random).emulator.paused = false :=
    paused_turnOn (fresh s clocks) _ rfl later random
  obtain ⟨-, -, -, alike⟩ := boot_forgets s (by decide) turned built
  exact ⟨fresh s clocks, later, built, fun feeds => alike running feeds later later random⟩

end Emulator

end Chip8
