/-
  Chip8.Proofs.Moves — the main loop, one move at a time.

  Whatever the main loop does to an emulator is a sequence of moves, each with the calls that it makes
  to the host: a poll, a boot, one instruction, one count of the timers, a frame, and so on (`Move`). A
  boot, a turn and a run are such sequences (`boot_moves`, `turn_moves`, `run_moves`), so what every
  move keeps is kept by the main loop, and an invariant is shown by one look at each move. The clocks
  matter to a turn only through the activities that they find due (`turn_eq`).
-/
import Chip8.Emulator

namespace Chip8.Emulator

inductive Move (e : Emulator) : Emulator → List HostCall → Prop
  | poll : Move e e [.poll]
  /-- A boot, whether or not the program fits. -/
  | boot : Move e { e with machine := (bootMachine e.machine e.rom).1 } []
  | switch (on : Bool) : on ≠ e.buzzing → Move e { e with buzzing := on } [.buzzer on]
  | pause (paused : Bool) : Move e { e with paused := paused } []
  | rebase (now : Int) : Move e { e with clocks := e.clocks.rebase now } []
  | pollClocks (now : Int) : Move e { e with clocks := e.clocks.polled now } []
  | complete (keys : Keys) (chance : UInt8) : (e.machine.cycle keys chance).fault = none →
      Move e { e with
        machine := (e.machine.cycle keys chance).machine
        cycles := e.cycles + 1, instructions := e.instructions + 1 } []
  | crash (keys : Keys) (chance : UInt8) : (e.machine.cycle keys chance).fault ≠ none →
      Move e { e with machine := (e.machine.cycle keys chance).machine } []
  | countDown : Move e { e with machine := e.machine.countDown } []
  | present : Move e e.present.1 e.present.2
  | count : Move e { e with frames := e.frames + 1 } []
  | report : Move e { e with frames := 0, instructions := 0 }
      [.display (.title (About.title e.frames e.instructions))]

inductive Moves (e : Emulator) : Emulator → List HostCall → Prop
  | none : Moves e e []
  | snoc {f g : Emulator} {calls more : List HostCall} : Moves e f calls → Move f g more → Moves e g (calls ++ more)

namespace Moves

variable {e f g : Emulator} {calls more : List HostCall}

theorem one (move : Move e f calls) : Moves e f calls := .snoc .none move

theorem append (first : Moves e f calls) (second : Moves f g more) : Moves e g (calls ++ more) := by
  induction second with
  | none => rw [List.append_nil]; exact first
  | snoc _ move ih => rw [← List.append_assoc]; exact .snoc ih move

/-- Moves that make no calls may stand before others. -/
theorem silent (first : Moves e f []) (second : Moves f g more) : Moves e g more := first.append second

end Moves

/-! ## Parts of turns -/

theorem setBuzzer_eq (e : Emulator) (on : Bool) : (e.setBuzzer on).1 = { e with buzzing := on } := by
  unfold setBuzzer
  split
  · next same => rw [same]
  · rfl

theorem setBuzzer_moves (e : Emulator) (on : Bool) : Moves e (e.setBuzzer on).1 (e.setBuzzer on).2 := by
  unfold setBuzzer
  split
  · exact .none
  · next changes => exact .one (.switch on changes)

theorem boot_moves (e : Emulator) : Moves e e.boot.1 e.boot.2.1 := by
  have booted : Moves e { e with machine := (bootMachine e.machine e.rom).1 } [] := .one .boot
  unfold boot
  rcases result : bootMachine e.machine e.rom with ⟨m, _ | f⟩
  · rw [result] at booted
    exact booted.silent (setBuzzer_moves { e with machine := m } false)
  · rw [result] at booted
    exact booted

theorem togglePause_moves (e : Emulator) (time : Tape Int) :
    Moves e (e.togglePause time).1 (e.togglePause time).2.2 := by
  unfold togglePause
  split
  · exact (Moves.one (.pause false)).silent (.one (.rebase time.head))
  · exact (Moves.one (.pause true)).silent (setBuzzer_moves _ false)

theorem respond_moves (e : Emulator) (time : Tape Int) (event : Option HostEvent) :
    Moves e (e.respond time event).1 (e.respond time event).2.2.1 := by
  unfold respond
  split
  · exact e.togglePause_moves time
  · exact e.boot_moves
  · exact .none

theorem runCpu_moves (e : Emulator) (due : List Activity) (keys : Keys) (random : Tape UInt8) :
    Moves e (e.runCpu due keys random).emulator (e.runCpu due keys random).calls := by
  unfold runCpu
  split
  · simp only
    split
    · next f faults => exact .one (.crash keys random.head (by rw [faults]; exact Option.some_ne_none f))
    · next done => exact .one (.complete keys random.head done)
  · exact .none

theorem runCpu_calls (e : Emulator) (due : List Activity) (keys : Keys) (random : Tape UInt8) :
    (e.runCpu due keys random).calls = [] := by
  unfold runCpu
  split
  · simp only
    split <;> rfl
  · rfl

theorem runTimers_moves (e : Emulator) (due : List Activity) : Moves e (e.runTimers due) [] := by
  unfold runTimers
  split
  · exact .one .countDown
  · exact .none

theorem runMachine_moves (e : Emulator) (due : List Activity) (keys : Keys) (random : Tape UInt8) :
    Moves e (e.runMachine due keys random).emulator (e.runMachine due keys random).calls := by
  have worked := e.runCpu_moves due keys random
  unfold runMachine
  split
  · exact .none
  · simp only
    split
    · exact worked
    · rw [runCpu_calls] at worked
      exact (worked.silent (runTimers_moves _ due)).silent (setBuzzer_moves _ _)

theorem runDisplay_moves (e : Emulator) (due : List Activity) :
    Moves e (e.runDisplay due).1 (e.runDisplay due).2 := by
  have presented : Moves e e.present.1 e.present.2 := .one .present
  have counted := presented.append (.one .count)
  rw [List.append_nil] at counted
  unfold runDisplay
  split
  · exact counted
  · exact .none

theorem runPerformance_moves (e : Emulator) (due : List Activity) :
    Moves e (e.runPerformance due).1 (e.runPerformance due).2 := by
  unfold runPerformance
  split
  · exact .one .report
  · exact .none

/-! ## Turns and runs -/

/-- The activities that a turn finds due, after its response to the user. -/
def dueIn (e : Emulator) (input : Input) (time : Tape Int) : List Activity :=
  let (e, time, _, _) := e.respond time input.event
  e.clocks.due time.head

/-- A turn in which these activities are due, whatever the clocks say. -/
def turnOn (e : Emulator) (due : List Activity) (input : Input) (time : Tape Int) (random : Tape UInt8) : Turn :=
  if input.event = some .quit then ⟨e, time, random, [.poll], none, none, true⟩
  else
    let (e, time, asked, fault) := e.respond time input.event
    match fault with
    | some f => ⟨e, time, random, .poll :: asked, none, some (.boot f), false⟩
    | none =>
      let e := { e with clocks := e.clocks.polled time.head }
      let time := time.tail
      let work := e.runMachine due input.keys random
      match work.fault with
      | some f =>
        ⟨work.emulator, time, work.random, .poll :: asked ++ work.calls, work.line, some (.crash f), false⟩
      | none =>
        let (e, shown) := work.emulator.runDisplay due
        let (e, reported) := e.runPerformance due
        let calls := .poll :: asked ++ work.calls ++ shown ++ reported
        match e.limit.isReached e.cycles with
        | .ok final => ⟨e, time, work.random, calls, work.line, none, final⟩
        | .error f => ⟨e, time, work.random, calls, work.line, some (.limit f), false⟩

/-- The clocks matter to a turn only through what is due. -/
theorem turn_eq (e : Emulator) (input : Input) (time : Tape Int) (random : Tape UInt8) :
    e.turn input time random = e.turnOn (e.dueIn input time) input time random := rfl

theorem turnOn_moves (e : Emulator) (due : List Activity) (input : Input) (time : Tape Int) (random : Tape UInt8) :
    Moves e (e.turnOn due input time random).emulator (e.turnOn due input time random).calls := by
  have polled : Moves e e [.poll] := .one .poll
  have responded := polled.append (e.respond_moves time input.event)
  unfold turnOn
  split
  · exact polled
  · rcases response : e.respond time input.event with ⟨after, later, asked, _ | f⟩
    · rw [response] at responded
      have clocked : Moves e { after with clocks := after.clocks.polled later.head } (.poll :: asked) :=
        List.append_nil (.poll :: asked) ▸ .snoc responded (.pollClocks later.head)
      have worked := clocked.append (runMachine_moves _ due input.keys random)
      simp only
      split
      · exact worked
      · have shown := worked.append (runDisplay_moves _ due)
        have reported := shown.append (runPerformance_moves _ due)
        split <;> exact reported
    · rw [response] at responded
      exact responded

theorem turn_moves (e : Emulator) (input : Input) (time : Tape Int) (random : Tape UInt8) :
    Moves e (e.turn input time random).emulator (e.turn input time random).calls :=
  e.turnOn_moves (e.dueIn input time) input time random

theorem close_moves (r : Run) :
    ∃ calls, r.close.calls.toList = r.calls.toList ++ calls ∧ Moves r.emulator r.close.emulator calls := by
  have shown : Moves r.emulator r.emulator.present.1 r.emulator.present.2 := .one .present
  refine ⟨_, ?_, shown.append (setBuzzer_moves _ false)⟩
  simp only [Run.close, Array.toList_appendList, List.append_assoc]

theorem go_moves (fuel : Nat) (inputs : Tape Input) (r : Run) :
    ∃ calls, (Run.go fuel inputs r).1.calls.toList = r.calls.toList ++ calls ∧
      Moves r.emulator (Run.go fuel inputs r).1.emulator calls := by
  induction fuel generalizing inputs r with
  | zero => exact ⟨[], (List.append_nil _).symm, .none⟩
  | succ fuel ih =>
    have turned := r.emulator.turn_moves inputs.head r.time r.random
    have logged : (r.after (r.emulator.turn inputs.head r.time r.random)).calls.toList =
        r.calls.toList ++ (r.emulator.turn inputs.head r.time r.random).calls := by
      simp only [Run.after, Array.toList_appendList]
    unfold Run.go
    simp only
    split
    · exact ⟨_, logged, turned⟩
    · split
      · obtain ⟨more, closed, moves⟩ := close_moves (r.after (r.emulator.turn inputs.head r.time r.random))
        exact ⟨_, by rw [closed, logged, List.append_assoc], turned.append moves⟩
      · obtain ⟨more, gone, moves⟩ := ih inputs.tail (r.after (r.emulator.turn inputs.head r.time r.random))
        exact ⟨_, by rw [gone, logged, List.append_assoc], turned.append moves⟩

/-- A run, however it ends. -/
theorem run_moves (fuel : Nat) (e : Emulator) (inputs : Tape Input) (time : Tape Int) (random : Tape UInt8) :
    Moves e (e.run fuel inputs time random).1.emulator (e.run fuel inputs time random).1.calls.toList := by
  have booted := e.boot_moves
  unfold run
  rcases start : e.boot with ⟨after, calls, _ | f⟩
  · rw [start] at booted
    obtain ⟨more, gone, moves⟩ := go_moves fuel inputs ⟨after, time, random, calls.toArray, #[]⟩
    simp only
    rw [gone]
    exact booted.append moves
  · rw [start] at booted
    exact booted

theorem close_of_finished {fuel : Nat} {inputs : Tape Input} {r : Run}
    (finished : (Run.go fuel inputs r).2 = .finished) : ∃ last : Run, (Run.go fuel inputs r).1 = last.close := by
  induction fuel generalizing inputs r with
  | zero => cases finished
  | succ fuel ih =>
    unfold Run.go at finished ⊢
    simp only at finished ⊢
    split at finished
    · cases finished
    · split at finished
      · next final => exact ⟨_, by rw [if_pos final]⟩
      · next more => rw [if_neg more]; exact ih finished

/-! ## The pause and the clocks -/

structure SamePace (e f : Emulator) : Prop where
  paused : f.paused = e.paused
  clocks : f.clocks = e.clocks

theorem SamePace.refl (e : Emulator) : SamePace e e := ⟨rfl, rfl⟩

theorem SamePace.trans {e f g : Emulator} (first : SamePace e f) (second : SamePace f g) : SamePace e g :=
  ⟨second.paused.trans first.paused, second.clocks.trans first.clocks⟩

theorem setBuzzer_pace (e : Emulator) (on : Bool) : SamePace e (e.setBuzzer on).1 := by
  rw [setBuzzer_eq]
  exact ⟨rfl, rfl⟩

theorem boot_pace (e : Emulator) : SamePace e e.boot.1 := by
  unfold boot
  rcases bootMachine e.machine e.rom with ⟨m, _ | fault⟩
  · have silenced := setBuzzer_pace { e with machine := m } false
    exact ⟨silenced.paused, silenced.clocks⟩
  · exact ⟨rfl, rfl⟩

theorem runCpu_pace (e : Emulator) (due : List Activity) (keys : Keys) (random : Tape UInt8) :
    SamePace e (e.runCpu due keys random).emulator := by
  unfold runCpu
  split
  · simp only
    split <;> exact ⟨rfl, rfl⟩
  · exact .refl e

theorem runTimers_pace (e : Emulator) (due : List Activity) : SamePace e (e.runTimers due) := by
  unfold runTimers
  split <;> exact ⟨rfl, rfl⟩

theorem runMachine_pace (e : Emulator) (due : List Activity) (keys : Keys) (random : Tape UInt8) :
    SamePace e (e.runMachine due keys random).emulator := by
  have worked := e.runCpu_pace due keys random
  unfold runMachine
  split
  · exact .refl e
  · simp only
    split
    · exact worked
    · exact (worked.trans (runTimers_pace _ due)).trans (setBuzzer_pace _ _)

theorem runDisplay_pace (e : Emulator) (due : List Activity) : SamePace e (e.runDisplay due).1 := by
  unfold runDisplay
  split <;> exact ⟨rfl, rfl⟩

theorem runPerformance_pace (e : Emulator) (due : List Activity) : SamePace e (e.runPerformance due).1 := by
  unfold runPerformance
  split <;> exact ⟨rfl, rfl⟩

/-- Once the user is answered a turn leaves the pause alone, and does nothing to the clocks but poll them. -/
theorem turnOn_pace (e : Emulator) (due : List Activity) (input : Input) (time : Tape Int) (random : Tape UInt8) :
    (e.turnOn due input time random).emulator.paused = (e.respond time input.event).1.paused ∧
    ((e.turnOn due input time random).emulator.clocks = (e.respond time input.event).1.clocks ∨
      ∃ now, (e.turnOn due input time random).emulator.clocks = (e.respond time input.event).1.clocks.polled now) := by
  by_cases quits : input.event = some .quit
  · rw [turnOn, if_pos quits, quits]
    exact ⟨rfl, .inl rfl⟩
  · unfold turnOn
    rw [if_neg quits]
    rcases e.respond time input.event with ⟨after, later, asked, _ | fault⟩
    · have worked := runMachine_pace { after with clocks := after.clocks.polled later.head } due input.keys random
      simp only
      split
      · exact ⟨worked.paused, .inr ⟨_, worked.clocks⟩⟩
      · have ended := (worked.trans (runDisplay_pace _ due)).trans (runPerformance_pace _ due)
        split <;> exact ⟨ended.paused, .inr ⟨_, ended.clocks⟩⟩
    · exact ⟨rfl, .inl rfl⟩

/-- Only the user pauses and resumes. -/
theorem paused_turnOn (e : Emulator) (due : List Activity) {input : Input} (unasked : input.event = none)
    (time : Tape Int) (random : Tape UInt8) : (e.turnOn due input time random).emulator.paused = e.paused := by
  rw [(e.turnOn_pace due input time random).1, unasked]
  rfl

end Chip8.Emulator
