/-
  Chip8.Proofs.Figures — no frame and no instruction is lost from the figures, and none is told twice.

  A title tells two figures, and they are read back from its words (`Figures.read?_title`). Whatever a part
  of the main loop does, the instructions that it completes are those it tells of and those it leaves to be
  told, less those that were left before; and likewise the frames it shows (`Tally`). A report tells all that
  is left and leaves nothing. A step in which the instruction fails ends before its report, and then nothing
  more is counted or told. So both sums are kept by every step, whatever is due in it (`tally_turnOn`), and by
  every sequence of steps from a new emulator on (`Stepped`), and every emulator that can be reached has one
  (`Reached.stepped`).
-/
import Chip8.Proofs.Pausing
import Chip8.Proofs.Texts

namespace Chip8

/-! ## Titles -/

structure Figures where
  fps : Nat
  ops : Nat
  deriving DecidableEq, Repr

namespace Figures

def read? (text : String) : Option Figures :=
  match Text.fields ' ' text.toList with
  | [_, _, _, fps, _, ops, _] => some ⟨Nat.ofDigitChars 10 fps 0, Nat.ofDigitChars 10 ops 0⟩
  | _ => none

theorem space_not_mem_toDigits (n : Nat) : ' ' ∉ Nat.toDigits 10 n := by
  intro mem
  exact absurd (Nat.isDigit_of_mem_toDigits (by decide) (by decide) mem) (by decide)

theorem fields_title (fps ops : Nat) :
    Text.fields ' ' (About.title fps ops).toList =
      ["ChocChip-8".toList, "Emulator".toList, ['-'], Nat.toDigits 10 fps, "FPS,".toList, Nat.toDigits 10 ops,
        "OPS".toList] := by
  rw [Text.fields_eq_iff (by simp)]
  constructor
  · rw [About.title, show toString (fps : Int) = fps.repr from rfl, show toString (ops : Int) = ops.repr from rfl]
    simp [About.name, Nat.toList_repr, List.intercalate, List.intersperse]
  · simp [space_not_mem_toDigits]

theorem read?_title (fps ops : Nat) : read? (About.title fps ops) = some ⟨fps, ops⟩ := by
  rw [read?, fields_title]
  simp only [Nat.ofDigitChars_ten_toDigits]

end Figures

namespace Emulator

def reported (calls : List HostCall) : List Figures := calls.filterMap fun call => match call with
  | .display (.title text) => Figures.read? text
  | _ => none

theorem reported_append (calls more : List HostCall) : reported (calls ++ more) = reported calls ++ reported more :=
  List.filterMap_append

/-! ## Tallies -/

/-- From one emulator to another, with some calls and so many instructions completed on the way: is all that
    happened either told or left to be told? -/
structure Tally (e f : Emulator) (calls : List HostCall) (ticks : Nat) : Prop where
  cycles : f.cycles = e.cycles + ticks
  instructions : ((reported calls).map Figures.ops).sum + f.instructions = e.instructions + ticks
  frames : ((reported calls).map Figures.fps).sum + f.frames = e.frames + (pictures calls).length

structure SameCounts (e f : Emulator) : Prop where
  cycles : f.cycles = e.cycles
  instructions : f.instructions = e.instructions
  frames : f.frames = e.frames

structure Blank (calls : List HostCall) : Prop where
  reported : reported calls = []
  pictures : pictures calls = []

section

variable {e f g : Emulator} {calls more : List HostCall} {n k : Nat}

theorem Tally.trans (first : Tally e f calls n) (second : Tally f g more k) : Tally e g (calls ++ more) (n + k) where
  cycles := by rw [second.cycles, first.cycles, Nat.add_assoc]
  instructions := by
    have before := first.instructions
    have after := second.instructions
    rw [reported_append, List.map_append, List.sum_append]
    omega
  frames := by
    have before := first.frames
    have after := second.frames
    rw [reported_append, pictures_append, List.map_append, List.sum_append, List.length_append]
    omega

theorem SameCounts.tally (same : SameCounts e f) (blank : Blank calls) : Tally e f calls 0 where
  cycles := same.cycles
  instructions := by rw [blank.reported, same.instructions]; simp
  frames := by rw [blank.reported, blank.pictures, same.frames]; simp

/-- Nothing is counted, shown or told. -/
theorem SameCounts.still (same : SameCounts e f) : Tally e f [] 0 := same.tally ⟨rfl, rfl⟩

theorem SameCounts.refl (e : Emulator) : SameCounts e e := ⟨rfl, rfl, rfl⟩

/-- What follows in silence is no part of a tally. -/
theorem Tally.between (tally : Tally e f calls n) (same : SameCounts f g) : Tally e g calls n := by
  have kept := tally.trans same.still
  rwa [List.append_nil] at kept

/-! ## Parts of turns -/

theorem setBuzzer_counts (e : Emulator) (on : Bool) : SameCounts e (e.setBuzzer on).1 := by
  rw [setBuzzer_eq]
  exact ⟨rfl, rfl, rfl⟩

theorem setBuzzer_blank (e : Emulator) (on : Bool) : Blank (e.setBuzzer on).2 := by
  unfold setBuzzer
  split <;> exact ⟨rfl, rfl⟩

theorem tally_setBuzzer (e : Emulator) (on : Bool) : Tally e (e.setBuzzer on).1 (e.setBuzzer on).2 0 :=
  (e.setBuzzer_counts on).tally (e.setBuzzer_blank on)

/-- A boot keeps the counts, whether or not the program fits. -/
theorem boot_counts (e : Emulator) : SameCounts e e.boot.1 := by
  unfold boot
  rcases bootMachine e.machine e.rom with ⟨m, _ | fault⟩
  · have silenced := setBuzzer_counts { e with machine := m } false
    exact ⟨silenced.cycles, silenced.instructions, silenced.frames⟩
  · exact ⟨rfl, rfl, rfl⟩

theorem boot_blank (e : Emulator) : Blank e.boot.2.1 := by
  unfold boot
  rcases bootMachine e.machine e.rom with ⟨m, _ | fault⟩
  · exact setBuzzer_blank { e with machine := m } false
  · exact ⟨rfl, rfl⟩

theorem togglePause_counts (e : Emulator) (time : Tape Int) : SameCounts e (e.togglePause time).1 := by
  unfold togglePause
  split
  · exact ⟨rfl, rfl, rfl⟩
  · have silenced := setBuzzer_counts { e with paused := true } false
    exact ⟨silenced.cycles, silenced.instructions, silenced.frames⟩

theorem togglePause_blank (e : Emulator) (time : Tape Int) : Blank (e.togglePause time).2.2 := by
  unfold togglePause
  split
  · exact ⟨rfl, rfl⟩
  · exact setBuzzer_blank { e with paused := true } false

theorem tally_respond (e : Emulator) (time : Tape Int) (event : Option HostEvent) :
    Tally e (e.respond time event).1 (e.respond time event).2.2.1 0 := by
  unfold respond
  split
  · exact (e.togglePause_counts time).tally (e.togglePause_blank time)
  · exact e.boot_counts.tally e.boot_blank
  · exact (SameCounts.refl e).still

theorem tally_runCpu (e : Emulator) (due : List Activity) (keys : Keys) (random : Tape UInt8) :
    Tally e (e.runCpu due keys random).emulator (e.runCpu due keys random).calls
      (if .cpu ∈ due ∧ (e.machine.cycle keys random.head).fault = none then 1 else 0) := by
  unfold runCpu
  by_cases ticks : .cpu ∈ due
  · cases ended : (e.machine.cycle keys random.head).fault with
    | some fault =>
      have same : SameCounts e { e with machine := (e.machine.cycle keys random.head).machine } := ⟨rfl, rfl, rfl⟩
      simpa [ticks, ended] using same.still
    | none =>
      simp only [ticks, ended, and_self, if_true]
      exact ⟨rfl, Nat.zero_add _, Nat.zero_add _⟩
  · simpa [ticks] using (SameCounts.refl e).still

theorem runTimers_counts (e : Emulator) (due : List Activity) : SameCounts e (e.runTimers due) := by
  unfold runTimers
  split <;> exact ⟨rfl, rfl, rfl⟩

theorem tally_runMachine (e : Emulator) (due : List Activity) (keys : Keys) (random : Tape UInt8) :
    Tally e (e.runMachine due keys random).emulator (e.runMachine due keys random).calls
      (if e.paused = false ∧ .cpu ∈ due ∧ (e.machine.cycle keys random.head).fault = none then 1 else 0) := by
  have worked := e.tally_runCpu due keys random
  unfold runMachine
  cases e.paused with
  | true => simpa using (SameCounts.refl e).still
  | false =>
    simp only [true_and, Bool.false_eq_true, if_false]
    split
    · exact worked
    · rw [runCpu_calls] at worked
      exact (worked.between (runTimers_counts _ due)).trans (tally_setBuzzer _ _)

/-- A frame is shown, and counted after that. -/
theorem tally_runDisplay (e : Emulator) (due : List Activity) :
    Tally e (e.runDisplay due).1 (e.runDisplay due).2 0 := by
  unfold runDisplay
  split
  · exact ⟨rfl, Nat.zero_add _, Nat.zero_add _⟩
  · exact (SameCounts.refl e).still

/-- All that is left to be told is told at once. -/
theorem tally_runPerformance (e : Emulator) (due : List Activity) :
    Tally e (e.runPerformance due).1 (e.runPerformance due).2 0 := by
  unfold runPerformance
  split
  · have told : reported [.display (.title (About.title e.frames e.instructions))] = [⟨e.frames, e.instructions⟩] := by
      simp only [reported, List.filterMap_cons, Figures.read?_title, List.filterMap_nil]
    have unseen : pictures [.display (.title (About.title e.frames e.instructions))] = [] := rfl
    constructor
    · rfl
    · rw [told]; rfl
    · rw [told, unseen]; rfl
  · exact (SameCounts.refl e).still

end

/-! ## Steps -/

def Completes (e : Emulator) (due : List Activity) (input : Input) (time : Tape Int) (random : Tape UInt8) : Prop :=
  let (after, _, _, fault) := e.respond time input.event
  input.event ≠ some .quit ∧ fault = none ∧ after.paused = false ∧ .cpu ∈ due ∧
    (after.machine.cycle input.keys random.head).fault = none

instance (e : Emulator) (due : List Activity) (input : Input) (time : Tape Int) (random : Tape UInt8) :
    Decidable (e.Completes due input time random) :=
  inferInstanceAs (Decidable (_ ∧ _))

theorem tally_turnOn (e : Emulator) (due : List Activity) (input : Input) (time : Tape Int) (random : Tape UInt8) :
    Tally e (e.turnOn due input time random).emulator (e.turnOn due input time random).calls
      (if e.Completes due input time random then 1 else 0) := by
  have polled : Tally e e [.poll] 0 := (SameCounts.refl e).tally ⟨rfl, rfl⟩
  have responded := polled.trans (e.tally_respond time input.event)
  unfold turnOn Completes
  by_cases quits : input.event = some .quit
  · simpa [quits] using polled
  · simp only [quits, if_false, not_false_eq_true, true_and, ne_eq]
    rcases answer : e.respond time input.event with ⟨after, later, asked, _ | fault⟩
    · rw [answer] at responded
      have clocked : SameCounts after { after with clocks := after.clocks.polled later.head } := ⟨rfl, rfl, rfl⟩
      have worked := (responded.between clocked).trans (tally_runMachine _ due input.keys random)
      rw [Nat.zero_add] at worked
      simp only [true_and]
      split
      · exact worked
      · have shown := worked.trans (tally_runDisplay _ due)
        have told := shown.trans (tally_runPerformance _ due)
        split <;> exact told
    · rw [answer] at responded
      simpa using responded

structure Step where
  calls : List HostCall
  completed : Bool
  deriving DecidableEq, Repr

def stepOn (e : Emulator) (due : List Activity) (input : Input) (time : Tape Int) (random : Tape UInt8) : Step :=
  ⟨(e.turnOn due input time random).calls, e.Completes due input time random⟩

/-- The emulators of some settings, with the steps that led to them. Anything may be due in a step. Between
    steps an emulator may be booted, paused and resumed, and it may show its last frame. -/
inductive Stepped (s : Settings) : Emulator → List Step → Prop
  | built {e : Emulator} {time later : Tape Int} : s.build time = .ok (e, later) → Stepped s e []
  | boot {e : Emulator} {steps : List Step} : Stepped s e steps → Stepped s e.boot.1 steps
  | togglePause {e : Emulator} {steps : List Step} (time : Tape Int) :
      Stepped s e steps → Stepped s (e.togglePause time).1 steps
  | close {e : Emulator} {steps : List Step} : Stepped s e steps → Stepped s (e.present.1.setBuzzer false).1 steps
  | step {e : Emulator} {steps : List Step} (due : List Activity) (input : Input) (time : Tape Int)
      (random : Tape UInt8) : Stepped s e steps →
      Stepped s (e.turnOn due input time random).emulator (steps ++ [e.stepOn due input time random])

section

variable {s : Settings} {e : Emulator} {steps : List Step}

theorem Stepped.go {r : Run} (stepped : Stepped s r.emulator steps) (fuel : Nat) (inputs : Tape Input) :
    ∃ steps, Stepped s (Run.go fuel inputs r).1.emulator steps := by
  induction fuel generalizing inputs r steps with
  | zero => exact ⟨steps, stepped⟩
  | succ fuel ih =>
    have turned := stepped.step (r.emulator.dueIn inputs.head r.time) inputs.head r.time r.random
    rw [← turn_eq] at turned
    unfold Run.go
    simp only
    split
    · exact ⟨_, turned⟩
    · split
      · exact ⟨_, turned.close⟩
      · exact ih (r := r.after (r.emulator.turn inputs.head r.time r.random)) turned inputs.tail

/-- Whatever is made of a new emulator is made by steps. -/
theorem Reached.stepped (reached : Reached s e) : ∃ steps, Stepped s e steps := by
  induction reached with
  | built made => exact ⟨[], .built made⟩
  | boot _ ih =>
    obtain ⟨steps, stepped⟩ := ih
    exact ⟨steps, stepped.boot⟩
  | togglePause time _ ih =>
    obtain ⟨steps, stepped⟩ := ih
    exact ⟨steps, stepped.togglePause time⟩
  | @turn e input time random _ ih =>
    obtain ⟨steps, stepped⟩ := ih
    exact ⟨_, stepped.step (e.dueIn input time) input time random⟩
  | @run e fuel inputs time random _ ih =>
    obtain ⟨steps, stepped⟩ := ih
    have booted := stepped.boot
    unfold Emulator.run
    rcases start : e.boot with ⟨after, calls, _ | fault⟩
    · rw [start] at booted
      exact Stepped.go (r := ⟨after, time, random, calls.toArray, #[]⟩) booted fuel inputs
    · rw [start] at booted
      exact ⟨steps, booted⟩

theorem Stepped.tally (stepped : Stepped s e steps) :
    ∃ clocks, Tally (fresh s clocks) e (steps.flatMap Step.calls) (steps.countP Step.completed) := by
  induction stepped with
  | built made =>
    obtain ⟨clocks, rfl⟩ := eq_fresh_of_build made
    exact ⟨clocks, (SameCounts.refl _).still⟩
  | @boot e _ _ ih =>
    obtain ⟨clocks, tally⟩ := ih
    exact ⟨clocks, tally.between e.boot_counts⟩
  | @togglePause e _ time _ ih =>
    obtain ⟨clocks, tally⟩ := ih
    exact ⟨clocks, tally.between (e.togglePause_counts time)⟩
  | @close e _ _ ih =>
    obtain ⟨clocks, tally⟩ := ih
    have closed := e.present.1.setBuzzer_counts false
    exact ⟨clocks, tally.between ⟨closed.cycles, closed.instructions, closed.frames⟩⟩
  | @step e steps due input time random _ ih =>
    obtain ⟨clocks, tally⟩ := ih
    refine ⟨clocks, ?_⟩
    have stepped := tally.trans (e.tally_turnOn due input time random)
    rw [List.flatMap_append, List.countP_append, List.flatMap_singleton, List.countP_singleton]
    simpa [stepOn] using stepped

/-- Between any two steps, the instructions that the steps so far have told of and those left to be told are
    those completed; and the frames they have told of and those left to be told are those they showed. -/
theorem figures_add_up (stepped : Stepped s e steps) :
    let calls := steps.flatMap Step.calls
    let completed := steps.countP Step.completed
    e.cycles = completed ∧
      ((reported calls).map Figures.ops).sum + e.instructions = completed ∧
      ((reported calls).map Figures.fps).sum + e.frames = (pictures calls).length := by
  intro calls completed
  obtain ⟨clocks, tally⟩ := stepped.tally
  refine ⟨?_, ?_, ?_⟩
  · simpa [fresh] using tally.cycles
  · simpa [fresh] using tally.instructions
  · simpa [fresh] using tally.frames

/-- An instruction that fails with all else due, a pause in which the figures are told, and a reset. -/
theorem figures_add_up_through_a_fault :
    let s : Settings := ⟨{}, true, false, [0x60, 0x00, 0x00, 0xEE], .whole 1000, .never⟩
    ∃ e steps, Stepped s e steps ∧ steps.map Step.completed = [true, false, false, true] ∧
      reported (steps.flatMap Step.calls) = [⟨2, 1⟩] ∧ (pictures (steps.flatMap Step.calls)).length = 3 ∧
      e.cycles = 2 ∧ e.instructions = 1 ∧ e.frames = 1 := by
  intro s
  let time : Tape Int := .ofFn fun k => k
  let random : Tape UInt8 := .ofFn fun _ => 0
  have built : s.build time = .ok (fresh s _, _) := rfl
  have failed := ((Stepped.built built).boot.step [.cpu, .display] .idle time random).step
    [.cpu, .display, .performance] .idle time random
  have paused := failed.step [.cpu, .display, .performance] ⟨Keys.none, some .pause⟩ time random
  have stepped := (paused.togglePause time).step [.cpu, .display] ⟨Keys.none, some .reset⟩ time random
  have counts {e : Emulator} {steps : List Step} (stepped : Stepped s e steps)
      (ran : steps.map Step.completed = [true, false, false, true] ∧
        reported (steps.flatMap Step.calls) = [⟨2, 1⟩] ∧ (pictures (steps.flatMap Step.calls)).length = 3) :
      e.cycles = 2 ∧ e.instructions = 1 ∧ e.frames = 1 := by
    obtain ⟨ticks, told, shown⟩ := ran
    have two : steps.countP Step.completed = 2 := by
      have counted := congrArg (List.countP id) ticks
      rwa [List.countP_map, Function.id_comp] at counted
    obtain ⟨cycles, instructions, frames⟩ := figures_add_up stepped
    simp only [told, shown, two, List.map_cons, List.map_nil, List.sum_cons, List.sum_nil] at cycles instructions frames
    omega
  refine ⟨_, _, stepped, ?_⟩
  -- one evaluation of the steps
  suffices ran : (_ ∧ _ ∧ _) by
    obtain ⟨ticks, told, shown⟩ := ran
    exact ⟨ticks, told, shown, counts stepped ⟨ticks, told, shown⟩⟩
  decide +kernel

end

end Emulator

end Chip8
