/-
  Chip8.Proofs.Journal — what a run does, one thing at a time.

  The journal of a run has an entry for each poll of the keypad, boot, poll of the clocks, instruction, count of the
  timers, frame and so on. It is written from what the turns are given: the requests of the user and what the
  clocks find due, which here may be anything (`runOn`), so a run on real clocks is one of these
  (`run_eq_runOn`). Redoing the entries gives the emulator and the calls of the run (`replay_journal`), so what
  is true of the journal is true of the run. The count of instructions goes up at the entries of instructions
  that are carried out and at no others (`cycles_replay`).
-/
import Chip8.Proofs.Booting
import Chip8.Proofs.Unattended

namespace Chip8.Emulator

/-! ## Entries -/

inductive Entry where
  /-- The keypad is asked. -/
  | ask
  | boot
  /-- A pause begins or ends, with the moment that the clocks start again from. -/
  | toggle (now : Int)
  | pollClocks (now : Int)
  | tick (keys : Keys) (chance : UInt8)
  | countDown
  /-- The buzzer is told what the sound timer says. -/
  | sound
  /-- The buzzer is told to be silent. -/
  | silence
  | render
  | countFrame
  | report
  deriving DecidableEq

namespace Entry

def redo (e : Emulator) : Entry → Emulator × List HostCall
  | ask => (e, [.poll])
  | boot => (e.boot.1, e.boot.2.1)
  | toggle now =>
    if e.paused then ({ e with paused := false, clocks := e.clocks.rebase now }, [])
    else { e with paused := true }.setBuzzer false
  | pollClocks now => ({ e with clocks := e.clocks.polled now }, [])
  | tick keys chance =>
    let c := e.machine.cycle keys chance
    match c.fault with
    | some _ => ({ e with machine := c.machine }, [])
    | none => ({ e with machine := c.machine, cycles := e.cycles + 1, instructions := e.instructions + 1 }, [])
  | countDown => ({ e with machine := e.machine.countDown }, [])
  | sound => e.setBuzzer e.machine.isBuzzing
  | silence => e.setBuzzer false
  | render => e.present
  | countFrame => ({ e with frames := e.frames + 1 }, [])
  | report => ({ e with frames := 0, instructions := 0 }, [.display (.title (About.title e.frames e.instructions))])

def completes (e : Emulator) : Entry → Bool
  | tick keys chance => (e.machine.cycle keys chance).fault.isNone
  | _ => false

end Entry

def replay (e : Emulator) : List Entry → Emulator × List HostCall
  | [] => (e, [])
  | entry :: rest =>
    let (f, calls) := entry.redo e
    let (g, more) := f.replay rest
    (g, calls ++ more)

def completions (e : Emulator) : List Entry → Nat
  | [] => 0
  | entry :: rest => (entry.completes e).toNat + (entry.redo e).1.completions rest

section

variable {e f : Emulator}

theorem replay_append (e : Emulator) (entries more : List Entry) :
    e.replay (entries ++ more) =
      (((e.replay entries).1.replay more).1, (e.replay entries).2 ++ ((e.replay entries).1.replay more).2) := by
  induction entries generalizing e with
  | nil => rfl
  | cons entry rest ih => simp only [List.cons_append, replay, ih, List.append_assoc]

theorem completions_append (e : Emulator) (entries more : List Entry) :
    e.completions (entries ++ more) = e.completions entries + (e.replay entries).1.completions more := by
  induction entries generalizing e with
  | nil => simp [completions, replay]
  | cons entry rest ih => simp only [List.cons_append, completions, replay, ih, Nat.add_assoc]

theorem completions_mono {done all : List Entry} (sooner : done <+: all) :
    e.completions done ≤ e.completions all := by
  obtain ⟨rest, rfl⟩ := sooner
  rw [completions_append]
  exact Nat.le_add_right _ _

theorem cycles_boot (e : Emulator) : e.boot.1.cycles = e.cycles := by
  unfold boot
  rcases bootMachine e.machine e.rom with ⟨m, _ | fault⟩
  · show ({ e with machine := m }.setBuzzer false).1.cycles = e.cycles
    rw [setBuzzer_eq]
  · rfl

theorem cycles_redo (e : Emulator) (entry : Entry) :
    (entry.redo e).1.cycles = e.cycles + (entry.completes e).toNat := by
  cases entry with
  | boot => exact e.cycles_boot
  | toggle now =>
    simp only [Entry.redo]
    split
    · rfl
    · rw [setBuzzer_eq]
      rfl
  | tick keys chance =>
    cases done : (e.machine.cycle keys chance).fault <;> simp [Entry.redo, Entry.completes, done]
  | sound | silence =>
    simp only [Entry.redo, setBuzzer_eq]
    rfl
  | _ => rfl

/-- Only an instruction that is carried out is counted. -/
theorem cycles_replay (e : Emulator) (entries : List Entry) :
    (e.replay entries).1.cycles = e.cycles + e.completions entries := by
  induction entries generalizing e with
  | nil => rfl
  | cons entry rest ih =>
    simp only [replay, completions, ih, cycles_redo]
    exact Nat.add_assoc _ _ _

end

/-! ## The journal of a turn -/

def answerEntries (time : Tape Int) : Option HostEvent → List Entry
  | some .pause => [.toggle time.head]
  | some .reset => [.boot]
  | _ => []

/-- The machine's part of a turn: nothing while paused, and nothing after an instruction that fails. -/
def machineEntries (e : Emulator) (due : List Activity) (keys : Keys) (random : Tape UInt8) : List Entry :=
  if e.paused then []
  else
    (if .cpu ∈ due then [.tick keys random.head] else []) ++
      if (e.runCpu due keys random).fault.isSome then []
      else (if .timers ∈ due then [.countDown] else []) ++ [.sound]

def shownEntries (due : List Activity) : List Entry :=
  (if .display ∈ due then [.render, .countFrame] else []) ++ if .performance ∈ due then [.report] else []

/-- What a turn does in which these activities are due. -/
def turnEntries (e : Emulator) (due : List Activity) (input : Input) (time : Tape Int) (random : Tape UInt8) :
    List Entry :=
  if input.event = some .quit then [.ask]
  else
    let (f, later, _, fault) := e.respond time input.event
    .ask :: answerEntries time input.event ++
      if fault.isSome then []
      else
        let polled := { f with clocks := f.clocks.polled later.head }
        .pollClocks later.head :: polled.machineEntries due input.keys random ++
          if (polled.runMachine due input.keys random).fault.isSome then [] else shownEntries due

theorem replay_answer (e : Emulator) (time : Tape Int) (event : Option HostEvent) :
    e.replay (answerEntries time event) = ((e.respond time event).1, (e.respond time event).2.2.1) := by
  rcases event with _ | _ | _ | _
  · rfl
  · rfl
  · simp only [answerEntries, respond, replay, Entry.redo, togglePause]
    split <;> simp
  · simp [answerEntries, respond, replay, Entry.redo]

theorem replay_machine (e : Emulator) (due : List Activity) (keys : Keys) (random : Tape UInt8) :
    e.replay (e.machineEntries due keys random) =
      ((e.runMachine due keys random).emulator, (e.runMachine due keys random).calls) := by
  unfold machineEntries runMachine runCpu runTimers
  by_cases paused : e.paused = true
  · simp [paused, replay]
  · by_cases ticks : .cpu ∈ due
    · cases done : (e.machine.cycle keys random.head).fault with
      | some f => simp [paused, ticks, done, replay, Entry.redo]
      | none => by_cases counts : .timers ∈ due <;> simp [paused, ticks, done, counts, replay, Entry.redo]
    · by_cases counts : .timers ∈ due <;> simp [paused, ticks, counts, replay, Entry.redo]

theorem replay_shown (e : Emulator) (due : List Activity) :
    e.replay (shownEntries due) =
      (((e.runDisplay due).1.runPerformance due).1,
        (e.runDisplay due).2 ++ ((e.runDisplay due).1.runPerformance due).2) := by
  unfold shownEntries runDisplay runPerformance
  by_cases frame : .display ∈ due <;> by_cases figures : .performance ∈ due <;>
    simp [frame, figures, replay, Entry.redo, present]

theorem replay_turn (e : Emulator) (due : List Activity) (input : Input) (time : Tape Int) (random : Tape UInt8) :
    e.replay (e.turnEntries due input time random) =
      ((e.turnOn due input time random).emulator, (e.turnOn due input time random).calls) := by
  have answered := e.replay_answer time input.event
  unfold turnEntries turnOn
  by_cases quits : input.event = some .quit
  · rw [if_pos quits, if_pos quits]
    rfl
  · rw [if_neg quits, if_neg quits]
    rcases answer : e.respond time input.event with ⟨f, later, asked, _ | fault⟩
    · rw [answer] at answered
      have worked := replay_machine { f with clocks := f.clocks.polled later.head } due input.keys random
      simp only
      generalize runMachine { f with clocks := f.clocks.polled later.head } due input.keys random = work at worked ⊢
      cases work.fault with
      | some g => simp [replay, replay_append, answered, worked, Entry.redo]
      | none =>
        have shown := work.emulator.replay_shown due
        simp only [Option.isSome_none, Bool.false_eq_true, if_false]
        split <;> simp [replay, replay_append, answered, worked, shown, Entry.redo]
    · rw [answer] at answered
      simp [replay, answered, Entry.redo]

/-! ## The instructions of a turn -/

namespace Entry

def isTick : Entry → Bool
  | tick _ _ => true
  | _ => false

theorem isTick_of_completes {e : Emulator} {entry : Entry} (done : entry.completes e = true) : entry.isTick = true := by
  cases entry with
  | tick => rfl
  | _ => cases done

end Entry

theorem completions_le (e : Emulator) (entries : List Entry) : e.completions entries ≤ entries.countP Entry.isTick := by
  induction entries generalizing e with
  | nil => exact Nat.le_refl 0
  | cons entry rest ih =>
    have others := ih (entry.redo e).1
    rw [completions, List.countP_cons]
    cases done : entry.completes e with
    | false =>
      simp only [Bool.toNat_false]
      omega
    | true =>
      simp only [Bool.toNat_true, Entry.isTick_of_completes done, if_true]
      omega

theorem ticks_machine (e : Emulator) (due : List Activity) (keys : Keys) (random : Tape UInt8) :
    (e.machineEntries due keys random).countP Entry.isTick ≤ 1 := by
  unfold machineEntries
  repeat' split
  all_goals simp [List.countP_cons, Entry.isTick]

theorem ticks_shown (due : List Activity) : (shownEntries due).countP Entry.isTick = 0 := by
  unfold shownEntries
  repeat' split
  all_goals simp [Entry.isTick]

/-- A turn runs one instruction at most. -/
theorem ticks_turn (e : Emulator) (due : List Activity) (input : Input) (time : Tape Int) (random : Tape UInt8) :
    (e.turnEntries due input time random).countP Entry.isTick ≤ 1 := by
  have answered : (answerEntries time input.event).countP Entry.isTick = 0 := by
    rcases input.event with _ | _ | _ | _ <;> simp [answerEntries, Entry.isTick]
  unfold turnEntries
  split
  · simp [Entry.isTick]
  · rcases e.respond time input.event with ⟨f, later, asked, fault⟩
    have worked := ticks_machine { f with clocks := f.clocks.polled later.head } due input.keys random
    have shown := ticks_shown due
    cases fault with
    | some g => simp [answered, Entry.isTick]
    | none =>
      simp only [List.cons_append, List.countP_cons, List.countP_append, answered, Entry.isTick, Option.isSome_none,
        Bool.false_eq_true, if_false]
      split
      · simp only [List.countP_nil]
        omega
      · omega

/-! ## Turns below a limit -/

abbrev Feed := Input × List Activity

section

variable {e : Emulator} {due : List Activity} {input : Input} {time : Tape Int} {random : Tape UInt8}

theorem cycles_turnOn (e : Emulator) (due : List Activity) (input : Input) (time : Tape Int) (random : Tape UInt8) :
    (e.turnOn due input time random).emulator.cycles ≤ e.cycles + 1 := by
  have counted := e.cycles_replay (e.turnEntries due input time random)
  have few := Nat.le_trans (e.completions_le _) (e.ticks_turn due input time random)
  rw [replay_turn] at counted
  simp only at counted
  omega

/-- A turn that neither quits nor halts is the last one just if the limit is reached. -/
theorem reached_turnOn (stays : input.event ≠ some .quit) (on : (e.turnOn due input time random).halt = none) :
    (e.turnOn due input time random).emulator.limit.isReached (e.turnOn due input time random).emulator.cycles =
      .ok (e.turnOn due input time random).final := by
  revert on
  unfold turnOn
  rw [if_neg stays]
  rcases e.respond time input.event with ⟨f, later, asked, _ | fault⟩
  · simp only
    generalize runMachine { f with clocks := f.clocks.polled later.head } due input.keys random = work
    cases work.fault with
    | some g => nofun
    | none =>
      simp only
      split
      · next final reached => exact fun _ => reached
      · nofun
  · nofun

theorem limit_turnOn (e : Emulator) (due : List Activity) (input : Input) (time : Tape Int) (random : Tape UInt8) :
    (e.turnOn due input time random).emulator.limit = e.limit :=
  (e.turnOn_moves due input time random).steady.1

theorem cycles_respond (e : Emulator) (time : Tape Int) (event : Option HostEvent) :
    (e.respond time event).1.cycles = e.cycles := by
  have counted := e.cycles_replay (answerEntries time event)
  rw [replay_answer] at counted
  refine counted.trans ?_
  rcases event with _ | _ | _ | _ <;> rfl

theorem cycles_runMachine_of_fault {keys : Keys} {f : Fault} (fails : (e.runMachine due keys random).fault = some f) :
    (e.runMachine due keys random).emulator.cycles = e.cycles := by
  revert fails
  unfold runMachine runCpu
  by_cases paused : e.paused = true
  · simp [paused]
  · by_cases ticks : .cpu ∈ due
    · cases done : (e.machine.cycle keys random.head).fault <;> simp [paused, ticks, done]
    · simp [paused, ticks]

/-- A turn that halts, but for a limit that cannot be read, counts nothing. -/
theorem cycles_of_halt {n : Number} (readable : e.limit = .after n) {h : Halt}
    (halted : (e.turnOn due input time random).halt = some h) :
    (e.turnOn due input time random).emulator.cycles = e.cycles := by
  have same := e.limit_turnOn due input time random
  have asked := e.cycles_respond time input.event
  rw [readable] at same
  revert halted same
  unfold turnOn
  split
  · nofun
  · rcases answer : e.respond time input.event with ⟨f, later, calls, _ | fault⟩
    · rw [answer] at asked
      have failed := @cycles_runMachine_of_fault { f with clocks := f.clocks.polled later.head } due random input.keys
      simp only
      generalize runMachine { f with clocks := f.clocks.polled later.head } due input.keys random = work at failed ⊢
      cases fails : work.fault with
      | some g => exact fun _ _ => (failed fails).trans asked
      | none =>
        simp only
        split
        · nofun
        · next refused =>
          intro _ same
          rw [same] at refused
          cases refused
    · rw [answer] at asked
      exact fun _ _ => asked

theorem turnOn_of_quit (quits : input.event = some .quit) :
    e.turnOn due input time random = ⟨e, time, random, [.poll], none, none, true⟩ := if_pos quits

end

/-! ## Runs -/

namespace Run

/-- A run after a turn, even if it should have ended before. -/
def stepOn (r : Run) (feed : Feed) : Run := r.after (r.emulator.turnOn feed.2 feed.1 r.time r.random)

def stepsOn (r : Run) (feeds : List Feed) : Run := feeds.foldl stepOn r

def goOn : List Feed → Run → Run × Outcome
  | [], r => (r, .unfinished)
  | feed :: rest, r =>
    let t := r.emulator.turnOn feed.2 feed.1 r.time r.random
    let r := r.after t
    match t.halt with
    | some h => (r, .halted h)
    | none => if t.final then (r.close, .finished) else goOn rest r

def entries (r : Run) : List Feed → List Entry
  | [] => []
  | feed :: rest => r.emulator.turnEntries feed.2 feed.1 r.time r.random ++ (r.stepOn feed).entries rest

/-- What is done after the last turn: a frame, which is not counted, and the buzzer is silenced. -/
def closing : List Entry := [.render, .silence]

def feeds : Nat → Tape Input → Run → List Feed
  | 0, _, _ => []
  | n + 1, inputs, r =>
    let feed := (inputs.head, r.emulator.dueIn inputs.head r.time)
    feed :: feeds n inputs.tail (r.stepOn feed)

theorem go_eq_goOn (fuel : Nat) (inputs : Tape Input) (r : Run) : go fuel inputs r = goOn (feeds fuel inputs r) r := by
  induction fuel generalizing inputs r with
  | zero => rfl
  | succ fuel ih =>
    simp only [go, feeds, goOn, ih, turn_eq]
    rfl

theorem inputs_feeds (fuel : Nat) (inputs : Tape Input) (r : Run) :
    (feeds fuel inputs r).map Prod.fst = (List.range fuel).map fun k => (inputs.drop k).head := by
  induction fuel generalizing inputs r with
  | zero => rfl
  | succ fuel ih =>
    rw [feeds, List.map_cons, ih, List.range_succ_eq_map, List.map_cons, List.map_map]
    refine congrArg (inputs.head :: ·) (List.map_congr_left fun k _ => ?_)
    show inputs.cell (inputs.position + 1 + k) = inputs.cell (inputs.position + (k + 1))
    rw [Nat.add_assoc, Nat.add_comm 1]

theorem entries_append (r : Run) (earlier later : List Feed) :
    r.entries (earlier ++ later) = r.entries earlier ++ (r.stepsOn earlier).entries later := by
  induction earlier generalizing r with
  | nil => rfl
  | cons feed rest ih => rw [List.cons_append, entries, entries, ih, List.append_assoc]; rfl

/-- The entries of turns, done again. -/
theorem replay_entries (r : Run) (feeds : List Feed) :
    (r.emulator.replay (r.entries feeds)).1 = (r.stepsOn feeds).emulator ∧
      (r.stepsOn feeds).calls.toList = r.calls.toList ++ (r.emulator.replay (r.entries feeds)).2 := by
  induction feeds generalizing r with
  | nil => exact ⟨rfl, (List.append_nil _).symm⟩
  | cons feed rest ih =>
    obtain ⟨same, calls⟩ := ih (r.stepOn feed)
    have first := r.emulator.replay_turn feed.2 feed.1 r.time r.random
    have logged : (r.stepOn feed).calls.toList = r.calls.toList ++
        (r.emulator.turnOn feed.2 feed.1 r.time r.random).calls := by
      simp only [stepOn, after, Array.toList_appendList]
    rw [entries, replay_append, first]
    refine ⟨same, calls.trans ?_⟩
    rw [logged, List.append_assoc]
    rfl

theorem replay_closing (r : Run) :
    (r.emulator.replay closing).1 = r.close.emulator ∧
      r.close.calls.toList = r.calls.toList ++ (r.emulator.replay closing).2 := by
  simp [closing, replay, Entry.redo, close]

/-- The frame after the last turn is a call, and it is not counted. -/
theorem close_eq (r : Run) :
    r.close.calls.toList = r.calls.toList ++
        .display (.frame r.emulator.machine.screen.plane.bytes r.emulator.machine.screen.dirty) ::
          (r.emulator.setBuzzer false).2 ∧
      r.close.emulator.frames = r.emulator.frames := by
  have silenced : (r.emulator.present.1.setBuzzer false).2 = (r.emulator.setBuzzer false).2 := by
    unfold setBuzzer
    by_cases off : false = r.emulator.buzzing <;> simp [present, off]
  refine ⟨?_, by simp only [close, setBuzzer_eq]; rfl⟩
  simp only [close, Array.toList_appendList, silenced, List.append_assoc]
  rfl

/-- Has none of these turns been asked to quit or brought the count to the limit? -/
def Open (m : Nat) (r : Run) (taken : List Feed) : Prop :=
  (∀ feed ∈ taken, feed.1.event ≠ some .quit) ∧ (r.stepsOn taken).emulator.cycles < m

/-- Is the last of these turns the first one that was asked to quit or brought the count to the limit? -/
def Stops (m : Nat) (r : Run) (taken : List Feed) : Prop :=
  ∃ earlier last, taken = earlier ++ [last] ∧ r.Open m earlier ∧
    (last.1.event = some .quit ∨ (r.stepsOn taken).emulator.cycles = m)

section

variable {m : Nat} {r : Run} {feed : Feed}

theorem goOn_of_halt {h : Halt} (halts : (r.emulator.turnOn feed.2 feed.1 r.time r.random).halt = some h)
    (rest : List Feed) : goOn (feed :: rest) r = (r.stepOn feed, .halted h) := by
  simp only [goOn, halts]
  rfl

theorem goOn_of_quit (quits : feed.1.event = some .quit) (rest : List Feed) :
    goOn (feed :: rest) r = ((r.stepOn feed).close, .finished) := by
  simp only [goOn, turnOn_of_quit quits, if_true]
  rw [stepOn, turnOn_of_quit quits]

/-- Where it neither quits nor halts, a run goes on just below its limit. -/
theorem goOn_of_stay (limit : r.emulator.limit = .after (.whole m)) (stays : feed.1.event ≠ some .quit)
    (on : (r.emulator.turnOn feed.2 feed.1 r.time r.random).halt = none) (rest : List Feed) :
    goOn (feed :: rest) r =
      if m ≤ (r.stepOn feed).emulator.cycles then ((r.stepOn feed).close, .finished)
      else goOn rest (r.stepOn feed) := by
  have reached := reached_turnOn stays on
  rw [limit_turnOn, limit] at reached
  have final : (r.emulator.turnOn feed.2 feed.1 r.time r.random).final = true ↔
      m ≤ (r.stepOn feed).emulator.cycles := by
    rw [← Except.ok.inj reached]
    simp [Number.isAtMost, stepOn, after]
  simp only [goOn, on, final]
  rfl

theorem Open.cons {taken : List Feed} (stays : feed.1.event ≠ some .quit) (rest : (r.stepOn feed).Open m taken) :
    r.Open m (feed :: taken) :=
  ⟨List.forall_mem_cons.mpr ⟨stays, rest.1⟩, rest.2⟩

/-- Below its limit a run takes turns until they stop it, or until it halts or is cut off. -/
theorem goOn_taken (limit : r.emulator.limit = .after (.whole m)) (below : r.emulator.cycles < m)
    (feeds : List Feed) :
    ∃ taken, taken <+: feeds ∧ (r.stepsOn taken).emulator.cycles ≤ m ∧
      ((goOn feeds r).2 ≠ .finished ∧ (goOn feeds r).1 = r.stepsOn taken ∧ r.Open m taken ∨
        goOn feeds r = ((r.stepsOn taken).close, .finished) ∧ r.Stops m taken) := by
  have still : r.Open m [] := ⟨nofun, below⟩
  induction feeds generalizing r with
  | nil => exact ⟨[], List.prefix_rfl, Nat.le_of_lt below, .inl ⟨nofun, rfl, still⟩⟩
  | cons feed rest ih =>
    have alone : [feed] <+: feed :: rest := ⟨rest, rfl⟩
    have few : (r.stepOn feed).emulator.cycles ≤ m :=
      Nat.le_trans (r.emulator.cycles_turnOn feed.2 feed.1 r.time r.random) below
    by_cases quits : feed.1.event = some .quit
    · exact ⟨[feed], alone, few, .inr ⟨goOn_of_quit quits rest, [], feed, rfl, still, .inl quits⟩⟩
    cases halted : (r.emulator.turnOn feed.2 feed.1 r.time r.random).halt with
    | some h =>
      have short : (r.stepOn feed).emulator.cycles < m := by
        rw [← cycles_of_halt limit halted] at below
        exact below
      rw [goOn_of_halt halted]
      exact ⟨[feed], alone, few, .inl ⟨nofun, rfl, .cons quits ⟨nofun, short⟩⟩⟩
    | none =>
      rw [goOn_of_stay limit quits halted]
      by_cases full : m ≤ (r.stepOn feed).emulator.cycles
      · rw [if_pos full]
        exact ⟨[feed], alone, few, .inr ⟨rfl, [], feed, rfl, still, .inr (Nat.le_antisymm few full)⟩⟩
      · rw [if_neg full]
        have steady : (r.stepOn feed).emulator.limit = .after (.whole m) := (limit_turnOn ..).trans limit
        have short := Nat.lt_of_not_le full
        obtain ⟨taken, ahead, most, ended⟩ := ih steady short ⟨nofun, short⟩
        refine ⟨feed :: taken, List.cons_prefix_cons.mpr ⟨rfl, ahead⟩, most, ?_⟩
        rcases ended with ⟨on, same, rest⟩ | ⟨finished, earlier, last, rfl, rest, stop⟩
        · exact .inl ⟨on, same, rest.cons quits⟩
        · exact .inr ⟨finished, feed :: earlier, last, rfl, rest.cons quits, stop⟩

end

end Run

/-! ## Journals -/

def runOn (feeds : List Feed) (e : Emulator) (time : Tape Int) (random : Tape UInt8) : Run × Outcome :=
  match e.boot.2.2 with
  | some f => (e.started time random, .halted (.boot f))
  | none => Run.goOn feeds (e.started time random)

/-- A run is told what its clocks find due. -/
theorem run_eq_runOn (e : Emulator) (fuel : Nat) (inputs : Tape Input) (time : Tape Int) (random : Tape UInt8) :
    ∃ feeds : List Feed, feeds.map Prod.fst = (List.range fuel).map (fun k => (inputs.drop k).head) ∧
      e.run fuel inputs time random = e.runOn feeds time random := by
  refine ⟨Run.feeds fuel inputs (e.started time random), Run.inputs_feeds fuel inputs _, ?_⟩
  unfold runOn
  cases boots : e.boot.2.2 with
  | none => exact (run_of_boots boots fuel inputs time random).trans (Run.go_eq_goOn fuel inputs _)
  | some f =>
    simp only [run, boots]
    rfl

def journal (e : Emulator) (time : Tape Int) (random : Tape UInt8) (feeds : List Feed) : List Entry :=
  .boot :: (e.started time random).entries feeds

theorem journal_append (e : Emulator) (time : Tape Int) (random : Tape UInt8) (earlier later : List Feed) :
    e.journal time random (earlier ++ later) =
      e.journal time random earlier ++ ((e.started time random).stepsOn earlier).entries later :=
  congrArg (Entry.boot :: ·) (Run.entries_append _ earlier later)

/-- A journal gives the emulator and the calls after its turns. -/
theorem replay_journal (e : Emulator) (time : Tape Int) (random : Tape UInt8) (feeds : List Feed) :
    let r := (e.started time random).stepsOn feeds
    e.replay (e.journal time random feeds) = (r.emulator, r.calls.toList) := by
  obtain ⟨same, calls⟩ := Run.replay_entries (e.started time random) feeds
  simp only [calls, ← same]
  rfl

/-- Nothing else is done in a turn that quits. -/
theorem journal_of_quit (e : Emulator) (time : Tape Int) (random : Tape UInt8) (earlier : List Feed) {last : Feed}
    (quits : last.1.event = some .quit) :
    e.journal time random (earlier ++ [last]) = e.journal time random earlier ++ [.ask] := by
  rw [journal_append, Run.entries, Run.entries, turnEntries, if_pos quits]
  rfl

section

variable {s : Settings} {m : Nat} {e : Emulator} {time later : Tape Int} (made : s.build time = .ok (e, later))
include made

theorem cycles_of_build : e.cycles = 0 := by
  obtain ⟨clocks, rfl⟩ := eq_fresh_of_build made
  rfl

theorem limit_of_build : e.limit = s.limit := by
  obtain ⟨clocks, rfl⟩ := eq_fresh_of_build made
  rfl

/-- The count is the number of instructions carried out since the emulator was built. -/
theorem cycles_eq_completions (entries : List Entry) : (e.replay entries).1.cycles = e.completions entries := by
  rw [cycles_replay, cycles_of_build made, Nat.zero_add]

theorem completions_journal (clock : Tape Int) (random : Tape UInt8) (feeds : List Feed) :
    e.completions (e.journal clock random feeds) = ((e.started clock random).stepsOn feeds).emulator.cycles := by
  rw [← cycles_eq_completions made, replay_journal]

/-- A run takes turns until they stop it, or until it halts or is cut off. -/
theorem runOn_taken (positive : 1 ≤ m) (limit : s.limit = .after (.whole m)) (feeds : List Feed) (clock : Tape Int)
    (random : Tape UInt8) :
    let r := e.started clock random
    ∃ taken, taken <+: feeds ∧ (r.stepsOn taken).emulator.cycles ≤ m ∧
      ((e.runOn feeds clock random).2 ≠ .finished ∧ (e.runOn feeds clock random).1 = r.stepsOn taken ∧
          r.Open m taken ∨
        e.runOn feeds clock random = ((r.stepsOn taken).close, .finished) ∧ r.Stops m taken) := by
  intro r
  have below : r.emulator.cycles < m := by
    rw [show r.emulator.cycles = 0 from e.cycles_boot.trans (cycles_of_build made)]
    exact positive
  have same : r.emulator.limit = .after (.whole m) :=
    e.boot_moves.steady.1.trans ((limit_of_build made).trans limit)
  unfold runOn
  cases boots : e.boot.2.2 with
  | none => exact Run.goOn_taken same below feeds
  | some f => exact ⟨[], List.nil_prefix, Nat.le_of_lt below, .inl ⟨nofun, rfl, nofun, below⟩⟩

end

/-- Every run with a limit has a journal. In it the count is the number of instructions carried out since the
    emulator was built, and at most the limit. A run that ends by itself ends at the first turn that is asked to
    quit or that brings the count to the limit, and one that halts or is cut off had no such turn. Nothing else is done
    in a turn that is asked to quit, and after the last turn there are a frame, which is not counted, and the buzzer
    to silence. The frame is a call that hands over the pixels as they are. -/
theorem run_ends_at_limit_or_quit {s : Settings} {m : Nat} (positive : 1 ≤ m) (limit : s.limit = .after (.whole m))
    {e : Emulator} {time later : Tape Int} (made : s.build time = .ok (e, later)) (random : Tape UInt8) :
    (∀ fuel inputs, ∃ feeds : List Feed,
      feeds.map Prod.fst = (List.range fuel).map (fun k => (inputs.drop k).head) ∧
        e.run fuel inputs later random = e.runOn feeds later random) ∧
    (∀ earlier last, last.1.event = some .quit →
      e.journal later random (earlier ++ [last]) = e.journal later random earlier ++ [.ask]) ∧
    ∀ feeds, ∃ taken, taken <+: feeds ∧
      let ended := e.runOn feeds later random
      let all := e.journal later random taken ++ if ended.2 = .finished then [.render, .silence] else []
      e.replay all = (ended.1.emulator, ended.1.calls.toList) ∧
      (∀ done, done <+: all → (e.replay done).1.cycles = e.completions done ∧ e.completions done ≤ m) ∧
      (ended.2 = .finished → ∃ earlier last, taken = earlier ++ [last] ∧
        (∀ feed ∈ earlier, feed.1.event ≠ some .quit) ∧
        (∀ done, done <+: e.journal later random earlier → e.completions done < m) ∧
        (last.1.event = some .quit ∨ e.completions (e.journal later random taken) = m)) ∧
      (ended.2 ≠ .finished →
        (∀ feed ∈ taken, feed.1.event ≠ some .quit) ∧ e.completions (e.journal later random taken) < m) ∧
      (ended.2 = .finished →
        let (last, calls) := e.replay (e.journal later random taken)
        ended.1.calls.toList = calls ++
            .display (.frame last.machine.screen.plane.bytes last.machine.screen.dirty) :: (last.setBuzzer false).2 ∧
          ended.1.emulator.frames = last.frames) := by
  refine ⟨?_, ?_, ?_⟩
  · intro fuel inputs
    exact run_eq_runOn e fuel inputs later random
  · intro earlier last quits
    exact journal_of_quit e later random earlier quits
  · intro feeds
    obtain ⟨taken, ahead, few, ended⟩ := runOn_taken made positive limit feeds later random
    have counted := completions_journal made later random
    have redone := e.replay_journal later random taken
    have bounded (last : List Entry) (idle : (e.replay (e.journal later random taken)).1.completions last = 0) :
        ∀ done, done <+: e.journal later random taken ++ last →
          (e.replay done).1.cycles = e.completions done ∧ e.completions done ≤ m := by
      intro done sooner
      refine ⟨cycles_eq_completions made done, Nat.le_trans (completions_mono sooner) ?_⟩
      rw [completions_append, idle, counted]
      exact few
    refine ⟨taken, ahead, ?_⟩
    rcases ended with ⟨on, same, stay, short⟩ | ⟨finished, earlier, last, rfl, ⟨stay, short⟩, stop⟩
    · simp only [if_neg on]
      rw [← counted] at short
      refine ⟨?_, bounded [] rfl, fun finished => absurd finished on, fun _ => ⟨stay, short⟩,
        fun finished => absurd finished on⟩
      rw [List.append_nil, redone, same]
    · have closed := Run.replay_closing ((e.started later random).stepsOn (earlier ++ [last]))
      rw [← counted] at short stop
      simp only [finished, if_true]
      refine ⟨?_, bounded _ rfl, fun _ => ⟨earlier, last, rfl, stay, ?_, stop⟩, absurd rfl, fun _ => ?_⟩
      · rw [replay_append, redone]
        exact Prod.ext closed.1 closed.2.symm
      · intro done sooner
        exact Nat.lt_of_le_of_lt (completions_mono sooner) short
      · rw [redone]
        exact Run.close_eq _

/-- One instruction before a pause and a reset, and one after, are two. The request to quit comes too late. -/
theorem run_ends_at_limit_or_quit_across_a_reset :
    let s : Settings := ⟨{}, true, false, [0x70, 0x01, 0x12, 0x00], .whole 400, .after (.whole 2)⟩
    let time : Tape Int := .ofFn fun k => 1000 * k
    let random : Tape UInt8 := .ofFn fun _ => 0
    let asks (event : HostEvent) : Input := ⟨Keys.none, some event⟩
    let feeds : List Feed := [(.idle, [.cpu]), (asks .pause, [.cpu, .timers]), (asks .reset, [.cpu, .display]),
      (asks .pause, [.timers]), (.idle, []), (.idle, [.cpu]), (asks .quit, [.cpu])]
    ∃ e later, s.build time = .ok (e, later) ∧ (e.runOn feeds later random).2 = .finished ∧
      (e.runOn feeds later random).1.emulator.cycles = 2 ∧
      ∃ earlier last, earlier ++ [last] <+: feeds ∧ (∀ feed ∈ earlier, feed.1.event ≠ some .quit) ∧
        (∀ done, done <+: e.journal later random earlier → e.completions done < 2) ∧
        (last.1.event = some .quit ∨ e.completions (e.journal later random (earlier ++ [last])) = 2) := by
  intro s time random asks feeds
  obtain ⟨clocks, later, built⟩ := build_of_positive s rfl time
  obtain ⟨-, -, ends⟩ := run_ends_at_limit_or_quit (m := 2) (by decide) rfl built random
  obtain ⟨taken, ahead, -, -, stops, -, -⟩ := ends feeds
  have ran : (s.build time).toOption.map (fun new =>
      let ended := new.1.runOn feeds new.2 random
      (ended.2, ended.1.emulator.cycles)) = some (.finished, 2) := by decide +kernel
  simp only [built, Except.toOption, Option.map_some, Option.some.injEq, Prod.mk.injEq] at ran
  obtain ⟨finished, two⟩ := ran
  obtain ⟨earlier, last, rfl, stay, short, stop⟩ := stops finished
  exact ⟨fresh s clocks, later, built, finished, two, earlier, last, ahead, stay, short, stop⟩

end Chip8.Emulator
