/-
  Chip8.Proofs.Counting — how fast a timer runs down.

  A turn does to a timer what its beat says: the instruction, if one is run, and then a count, if the timers
  are due (`read_turn`). An instruction that does not set the timer leaves it alone, by its footprint
  (`read_cycle`), so over turns that do not set it a timer goes down by one for every beat that counts and
  stops at zero (`read_steps`).

  The beats that count are firings of one clock. These are a period apart, so there is room for only so many
  between two moments (`counts_le`), and a timer that was set never runs down faster than in real time.
-/
import Chip8.Proofs.Footprints
import Chip8.Proofs.Reachable
import Chip8.Proofs.Timekeeping

namespace Chip8

/-! ## A timer in a machine -/

/-- An instruction that does not set a timer leaves it alone. -/
theorem Timer.read_cycle (timer : Timer) {m : Machine} {keys : Keys} {chance : UInt8}
    (done : (m.cycle keys chance).fault = none) (unset : ∀ i, m.At i → ¬i.SetsTimer timer) :
    timer.read (m.cycle keys chance).machine = timer.read m := by
  obtain ⟨i, here⟩ := Machine.at_of_done done
  apply Decidable.byContradiction
  intro changed
  exact unset i here ((Machine.footprint_cycle here done).timers timer changed)

theorem Timer.read_nonneg (timer : Timer) {m : Machine} (bounded : m.InRange) : 0 ≤ timer.read m := by
  cases timer with
  | delay => exact bounded.delay.1
  | sound => exact bounded.sound.1

namespace Emulator

variable {e : Emulator} {input : Input} {time : Tape Int} {random : Tape UInt8} {b : Beat} {timer : Timer}

/-! ## A timer in a turn -/

/-- The machine after its part of a turn: the instruction first, then the count. -/
theorem runMachine_machine (e : Emulator) (due : List Activity) (keys : Keys) (random : Tape UInt8)
    (fine : (e.runMachine due keys random).fault = none) :
    let ticks := e.paused = false ∧ .cpu ∈ due
    let ticked := if ticks then (e.machine.cycle keys random.head).machine else e.machine
    (ticks → (e.machine.cycle keys random.head).fault = none) ∧
      (e.runMachine due keys random).emulator.machine =
        if e.paused = false ∧ .timers ∈ due then ticked.countDown else ticked := by
  intro ticks ticked
  have counted : ∀ e : Emulator, (e.runTimers due).machine =
      if .timers ∈ due then e.machine.countDown else e.machine := by
    intro e
    unfold runTimers
    split <;> rfl
  cases paused : e.paused with
  | true => simp [ticks, ticked, runMachine, paused]
  | false =>
    by_cases runs : .cpu ∈ due
    · cases faults : (e.machine.cycle keys random.head).fault with
      | some f => simp [runMachine, runCpu, paused, runs, faults] at fine
      | none => simp [ticks, ticked, runMachine, runCpu, paused, runs, faults, setBuzzer_eq, counted]
    · simp [ticks, ticked, runMachine, runCpu, paused, runs, setBuzzer_eq, counted]

theorem read_runDisplay (timer : Timer) (e : Emulator) (due : List Activity) :
    timer.read (e.runDisplay due).1.machine = timer.read e.machine := by
  unfold runDisplay
  split
  · cases timer <;> rfl
  · rfl

theorem machine_runPerformance (e : Emulator) (due : List Activity) :
    (e.runPerformance due).1.machine = e.machine := by
  unfold runPerformance
  split <;> rfl

def Beat.ticked (b : Beat) (keys : Keys) (chance : UInt8) : Machine :=
  if b.Ticks then (b.emulator.machine.cycle keys chance).machine else b.emulator.machine

/-- A turn that ends well after a beat does the machine's part, then a frame and the figures. -/
theorem turn_of_beat (here : e.beat? input time = some b) (fine : (e.turn input time random).halt = none) :
    let work := { b.emulator with clocks := b.emulator.clocks.polled b.now }.runMachine b.due input.keys random
    work.fault = none ∧
      (e.turn input time random).emulator = ((work.emulator.runDisplay b.due).1.runPerformance b.due).1 := by
  intro work
  obtain ⟨stays, later, asked, answer, now⟩ := respond_of_beat here
  unfold turn at fine ⊢
  rw [if_neg stays, answer] at fine ⊢
  simp only [now] at fine ⊢
  split at fine
  · cases fine
  · next done =>
    refine ⟨done, ?_⟩
    split <;> rfl

theorem read_turn (timer : Timer) (here : e.beat? input time = some b)
    (fine : (e.turn input time random).halt = none) :
    (b.Ticks → (b.emulator.machine.cycle input.keys random.head).fault = none) ∧
      timer.read (e.turn input time random).emulator.machine =
        if b.Counts then timer.read (b.ticked input.keys random.head).countDown
        else timer.read (b.ticked input.keys random.head) := by
  obtain ⟨done, ended⟩ := turn_of_beat here fine
  obtain ⟨ran, machine⟩ := runMachine_machine _ b.due input.keys random done
  refine ⟨ran, ?_⟩
  rw [ended, machine_runPerformance, read_runDisplay, machine]
  exact apply_ite timer.read _ _ _

theorem read_counted (timer : Timer) (b : Beat) {m : Machine} (nonneg : 0 ≤ timer.read m) :
    (if b.Counts then timer.read m.countDown else timer.read m) =
      max 0 (timer.read m - ([b].countP fun b => b.Counts : Nat)) := by
  rw [List.countP_singleton, timer.read_countDown]
  by_cases counts : b.Counts
  · rw [if_pos counts, if_pos (decide_eq_true counts)]
    split <;> omega
  · rw [if_neg counts, if_neg (by rw [decide_eq_false counts]; exact Bool.false_ne_true)]
    omega

theorem machine_of_beat (here : e.beat? input time = some b) (noReset : input.event ≠ some .reset) :
    b.emulator.machine = e.machine := by
  obtain ⟨_, later, asked, answer, _⟩ := respond_of_beat here
  have answered : (e.respond time input.event).1.machine = e.machine := by
    unfold respond
    split
    · show (e.togglePause time).1.machine = e.machine
      unfold togglePause
      split
      · rfl
      · simp only [setBuzzer_eq]
    · next resets => exact absurd resets noReset
    · rfl
  rw [answer] at answered
  exact answered

/-- A turn that does not set a timer takes one off it, if its beat counts and the timer is not at zero. -/
theorem read_turn_unset (timer : Timer) (nonneg : 0 ≤ timer.read e.machine)
    (fine : (e.turn input time random).halt = none) (noReset : input.event ≠ some .reset)
    (unset : ∀ b ∈ e.beat? input time, b.Ticks → ∀ i, b.emulator.machine.At i → ¬i.SetsTimer timer) :
    timer.read (e.turn input time random).emulator.machine =
      max 0 (timer.read e.machine - ((e.beat? input time).toList.countP fun b => b.Counts : Nat)) := by
  cases here : e.beat? input time with
  | none =>
    rcases turn_of_noBeat here random with ⟨_, same⟩ | ⟨_, _, failed, _⟩
    · rw [same]
      show timer.read e.machine = max 0 (timer.read e.machine - (0 : Nat))
      omega
    · rw [fine] at failed
      cases failed
  | some b =>
    obtain ⟨ran, read⟩ := read_turn timer here fine
    have same := machine_of_beat here noReset
    have ticked : timer.read (b.ticked input.keys random.head) = timer.read e.machine := by
      unfold Beat.ticked
      split
      next ticks => rw [timer.read_cycle (ran ticks) (unset b here ticks), same]
      next => rw [same]
    rw [read, read_counted timer b (ticked ▸ nonneg), ticked, Option.toList_some]

/-! ## A timer in a run -/

namespace Run

variable {r : Run}

theorem read_steps (timer : Timer) (nonneg : 0 ≤ timer.read r.emulator.machine) {inputs : List Input}
    (fine : ∀ t ∈ r.turns inputs, t.halt = none) (noReset : ∀ input ∈ inputs, input.event ≠ some .reset)
    (unset : ∀ b ∈ r.beats inputs, b.Ticks → ∀ i, b.emulator.machine.At i → ¬i.SetsTimer timer) :
    timer.read (r.steps inputs).emulator.machine =
      max 0 (timer.read r.emulator.machine - ((r.beats inputs).countP fun b => b.Counts : Nat)) := by
  induction inputs generalizing r with
  | nil =>
    show timer.read r.emulator.machine = max 0 (timer.read r.emulator.machine - (0 : Nat))
    omega
  | cons input rest ih =>
    obtain ⟨first, others⟩ := List.forall_mem_cons.mp fine
    obtain ⟨stays, later⟩ := List.forall_mem_cons.mp noReset
    obtain ⟨now, after⟩ := List.forall_mem_append.mp unset
    have turned := read_turn_unset timer nonneg first stays fun b here => now b (by rw [here]; exact List.mem_singleton_self b)
    have low : 0 ≤ timer.read (r.step input).emulator.machine := by
      show 0 ≤ timer.read (r.emulator.turn input r.time r.random).emulator.machine
      omega
    have stepped := ih low others later after
    have start : timer.read (r.step input).emulator.machine = _ := turned
    rw [start] at stepped
    rw [beats, List.countP_append]
    show timer.read ((r.step input).steps rest).emulator.machine = _
    rw [stepped]
    omega

/-- In a stretch of time the timers' clock has room for only so many beats that count. -/
theorem counts_le {h : List (Scheduler.Request Activity)} {speed : Number} {p : ℚ} {s t : Int} {inputs : List Input}
    (keeps : Keeps r.emulator.clocks r.time h) (named : labels r.emulator.clocks = Activity.frequencies speed)
    (period : p ∈ (Clock.periodOf (.whole Activity.timerFrequency)).value?) (positive : 0 < p) (forward : s ≤ t)
    (within : ∀ b ∈ r.beats inputs, s ≤ b.now ∧ b.now ≤ t) :
    ((r.beats inputs).countP fun b => b.Counts : Nat) ≤ ⌊((t - s : Int) : ℚ) / p⌋ + 1 := by
  have kept := keeps_steps keeps inputs
  obtain ⟨_, timers, _, _, clocks, _, _, _, _, sixty⟩ := clocks_of_labels ((r.labels_steps inputs).trans named)
  have here : (Scheduler.after (r.requests inputs ++ h))[1]? = some timers := by rw [← kept.clocks, clocks]; rfl
  have timed := Scheduler.timed_after _ timers (List.mem_of_getElem? here)
  have exact : p ∈ timers.period.value? := by rw [timed.period, sixty]; exact period
  have spaced := Scheduler.firings_spaced kept.ordered here exact
  rw [firings_beats keeps named] at spaced
  have room := Scheduler.length_firings_le positive (List.pairwise_append.mp spaced).1 forward
  rw [List.filter_eq_self.mpr] at room
  · rw [List.length_reverse, List.length_map, ← List.countP_eq_length_filter] at room
    have fewer : (r.beats inputs).countP (fun b => b.Counts) ≤ (r.beats inputs).countP fun b => .timers ∈ b.due := by
      refine List.countP_mono_left fun b _ counts => ?_
      exact decide_eq_true (of_decide_eq_true counts).2
    omega
  · intro u mem
    obtain ⟨b, due, rfl⟩ := List.mem_map.mp (List.mem_reverse.mp mem)
    exact decide_eq_true (within b (List.mem_filter.mp due).1)

theorem sound_steps (sound : r.emulator.Sound) (inputs : List Input) : (r.steps inputs).emulator.Sound := by
  induction inputs generalizing r with
  | nil => exact sound
  | cons input rest ih => exact ih (r := r.step input) (sound_turn sound input r.time r.random)

end Run

theorem sound_of_build {s : Settings} {later : Tape Int} (built : s.build time = .ok (e, later)) : e.Sound := by
  obtain ⟨_, rfl⟩ := eq_fresh_of_build built
  exact .start s.dialect s.wrapping s.traced

/-- The clock that a beat asks whether the timers are due. -/
theorem clock_of_beat {h : List (Scheduler.Request Activity)} {speed : Number} (here : e.beat? input time = some b)
    (kept : e.clocks = Scheduler.after h) (named : labels e.clocks = Activity.frequencies speed) :
    ∃ clock ∈ b.emulator.clocks,
      clock.activity = .timers ∧ clock.period = Clock.periodOf (.whole Activity.timerFrequency) := by
  obtain ⟨_, timers, _, _, clocks, _, activity, _, _, sixty⟩ := clocks_of_labels ((labels_of_beat here).trans named)
  have mem : timers ∈ b.emulator.clocks := by rw [clocks]; simp
  have timed := Scheduler.timed_after _ timers (clocks_of_beat here kept ▸ mem)
  exact ⟨timers, mem, activity, by rw [timed.period, sixty]⟩

/-- A timer after the turn of a beat on which an instruction was run. -/
theorem read_turn_ticked (timer : Timer) (sound : e.Sound) (here : e.beat? input time = some b) (ticks : b.Ticks)
    (fine : (e.turn input time random).halt = none) :
    timer.read (e.turn input time random).emulator.machine =
      max 0 (timer.read (b.emulator.machine.cycle input.keys random.head).machine -
        ([b].countP fun b => b.Counts : Nat)) := by
  obtain ⟨_, later, asked, answer, _⟩ := respond_of_beat here
  have answered := sound_respond sound time input.event
  rw [answer] at answered
  have bounded : (b.emulator.machine.cycle input.keys random.head).machine.InRange := answered.inRange.cycle
  have read := (read_turn timer here fine).2
  rw [Beat.ticked, if_pos ticks] at read
  rw [read, read_counted timer b (timer.read_nonneg bounded)]

/-- A timer never runs down faster than in real time. Let it be `v` right after an instruction in a turn, and
    let no later instruction set it and nobody ask for a reset. Then after that turn and after any more it is `v`
    less the number of beats since then that count, or zero. Since their clock has a period, it is less than
    `v` at most by the number of periods that have passed between the beats, and one. -/
theorem timer_counts_down (timer : Timer) {s : Settings} {later : Tape Int} (built : s.build time = .ok (e, later))
    (forward : time.Forward) (random : Tape UInt8) (before : List Input) (first : Input)
    (rest : List Input) :
    let r := (e.started later random).steps before
    r.emulator.beat? first r.time = some b → b.Ticks → (∀ t ∈ r.turns (first :: rest), t.halt = none) →
    (∀ input ∈ rest, input.event ≠ some .reset) →
    (∀ c ∈ (r.step first).beats rest, c.Ticks → ∀ i, c.emulator.machine.At i → ¬i.SetsTimer timer) →
    let v := timer.read (b.emulator.machine.cycle first.keys r.random.head).machine
    let k := (r.beats (first :: rest)).countP fun b => b.Counts
    let value := timer.read (r.steps (first :: rest)).emulator.machine
    value = max 0 (v - k) ∧
      ∃ clock p, clock ∈ b.emulator.clocks ∧ clock.activity = .timers ∧ clock.period.value? = some p ∧ 0 < p ∧
        ∀ last ∈ (r.beats (first :: rest)).getLast?, v - ⌊((last.now - b.now : Int) : ℚ) / p⌋ - 1 ≤ value := by
  intro r here ticks fine noReset unset v k value
  obtain ⟨⟨h, keeps⟩, named⟩ := keeps_of_started built forward random before
  have sound : r.emulator.Sound := Run.sound_steps (sound_boot (sound_of_build built)) before
  have listed : r.beats (first :: rest) = b :: (r.step first).beats rest := by rw [Run.beats, here]; rfl
  obtain ⟨good, others⟩ := List.forall_mem_cons.mp fine
  have counted : value = max 0 (v - k) := by
    have turned : timer.read (r.step first).emulator.machine = _ := read_turn_ticked timer sound here ticks good
    have nonneg : 0 ≤ timer.read (r.step first).emulator.machine := by rw [turned]; omega
    have after : value = _ := Run.read_steps timer nonneg others noReset unset
    have total : k = [b].countP (fun b => b.Counts) + ((r.step first).beats rest).countP fun b => b.Counts := by
      rw [← List.countP_append, List.singleton_append, ← listed]
    rw [after, turned, total]
    omega
  obtain ⟨p, period, positive⟩ : ∃ p, (Clock.periodOf (.whole Activity.timerFrequency)).value? = some p ∧ 0 < p :=
    ⟨_, rfl, by decide +kernel⟩
  obtain ⟨clock, mem, activity, same⟩ := clock_of_beat here keeps.clocks named
  refine ⟨counted, clock, p, mem, activity, same ▸ period, positive, ?_⟩
  intro last mem
  have within := Run.beats_within keeps.forward (show b ∈ (r.beats (first :: rest)).head? by rw [listed]; rfl) mem
  have room : (k : Int) ≤ ⌊((last.now - b.now : Int) : ℚ) / p⌋ + 1 :=
    Run.counts_le keeps named period positive (within last (List.mem_of_mem_getLast? mem)).1 within
  omega

/-- A delay of three is set and runs down through a pause. -/
theorem timer_counts_down_through_a_pause :
    let s : Settings := ⟨{}, true, false, [0x60, 0x03, 0xF0, 0x15, 0x12, 0x04], .whole 1000, .never⟩
    let time : Tape Int := .ofFn fun k => 9000 * k
    let random : Tape UInt8 := .ofFn fun _ => 0
    let pause : Input := ⟨Keys.none, some .pause⟩
    let rest : List Input := [.idle, pause, .idle, pause, .idle, .idle]
    ∃ e later, s.build time = .ok (e, later) ∧
      let r := (e.started later random).steps [.idle]
      let b : Beat := ⟨r.emulator, r.time.head⟩
      r.emulator.beat? .idle r.time = some b ∧
        Timer.read (b.emulator.machine.cycle Input.idle.keys r.random.head).machine .delay = 3 ∧
        ((r.beats (.idle :: rest)).countP fun b => b.Counts) = 2 ∧
        Timer.read (r.steps (.idle :: rest)).emulator.machine .delay = 1 := by
  intro s time random pause rest
  have built : s.build time = .ok (fresh s _, _) := rfl
  have forward : time.Forward := fun i j le => by show 9000 * (i : Int) ≤ 9000 * j; omega
  refine ⟨fresh s _, _, built, ?_⟩
  intro r b
  have same : (started (fresh s _) _ random).steps [.idle] = r := rfl
  have here : r.emulator.beat? .idle r.time = some b := rfl
  have law := timer_counts_down .delay built forward random [.idle] .idle rest here
  -- one evaluation of the run
  suffices ran : b.Ticks ∧ (∀ t ∈ r.turns (.idle :: rest), t.halt = none) ∧
      (∀ c ∈ (r.step .idle).beats rest, c.emulator.machine.here = 0x1204) ∧
      Timer.read (b.emulator.machine.cycle Input.idle.keys r.random.head).machine .delay = 3 ∧
      ((r.beats (.idle :: rest)).countP fun b => b.Counts) = 2 by
    obtain ⟨ticks, fine, jumps, value, counted⟩ := ran
    have unset : ∀ c ∈ (r.step .idle).beats rest, c.Ticks → ∀ i, c.emulator.machine.At i → ¬i.SetsTimer .delay := by
      intro c mem _ i here
      have decoded := Instruction.decode?_encode i
      rw [← here.2, jumps c mem] at decoded
      cases decoded
      exact not_false
    have calm : ∀ input ∈ rest, input.event ≠ some .reset := by simp [rest, pause, Input.idle]
    obtain ⟨down, -⟩ := law ticks fine calm unset
    rw [value, counted, same] at down
    exact ⟨here, value, counted, down⟩
  decide +kernel

end Emulator

end Chip8
