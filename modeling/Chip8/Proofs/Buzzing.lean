/-
  Chip8.Proofs.Buzzing — when the buzzer sounds, and what it is told.

  (1) What it is told (`Logged.matched`). The emulator knows what it told the buzzer last and says nothing
  twice, so whatever it does, the buzzer is told to go on, to go off, to go on, and so on, and it is on
  just if the number of times is odd. A buzzer that is told this does what it is told (`follow_alternating`):
  a mixer plays its sample once for every on and stops it once for every off.

  (2) When it sounds (`turnOn_silent`). A pause silences the buzzer, and nothing that happens during the
  pause raises it, a boot that fails included (`SilentInPause`). So a turn that ends well, without quitting,
  leaves the buzzer on just if the sound timer runs and the emulator is not paused (`Settled`). A run
  that ends by itself ends with the buzzer off (`buzzing_close`).
-/
import Chip8.Buzzer
import Chip8.Proofs.Booting

namespace Chip8

/-! ## What the buzzer is told -/

def switches (calls : List HostCall) : List Bool := calls.filterMap fun call => match call with
  | .buzzer on => some on
  | _ => none

theorem switches_append (calls more : List HostCall) : switches (calls ++ more) = switches calls ++ switches more :=
  List.filterMap_append

def alternating (n : Nat) : List Bool := (List.range n).map fun k => k % 2 = 0

theorem alternating_succ (n : Nat) : alternating (n + 1) = alternating n ++ [decide (n % 2 = 0)] := by
  rw [alternating, List.range_succ, List.map_append]
  rfl

namespace Buzzer

/-- A buzzer that is told one thing after another, and all its calls to the sound device. -/
def follow (b : Buzzer) (told : List Bool) : Buzzer × List SoundCall :=
  told.foldl (fun (b, calls) on => let (b, more) := b.enable on; (b, calls ++ more)) (b, [])

def mixing (on : Bool) : SoundCall := if on then .play (-1) else .stop

theorem follow_snoc (b : Buzzer) (told : List Bool) (on : Bool) :
    b.follow (told ++ [on]) = (((b.follow told).1.enable on).1, (b.follow told).2 ++ ((b.follow told).1.enable on).2) := by
  rw [follow, List.foldl_append]
  rfl

theorem enable_mixer {b : Buzzer} (mixer : b.kind = .mixer) {on : Bool} (changes : b.on ≠ on) :
    (b.enable on).2 = [mixing on] := by
  simp only [enable, mixer, if_neg changes]
  cases on <;> rfl

theorem follow_alternating (kind : BuzzerKind) (n : Nat) :
    (follow ⟨kind, false⟩ (alternating n)).1 = ⟨kind, decide (n % 2 = 1)⟩ ∧
      (kind = .mixer → (follow ⟨kind, false⟩ (alternating n)).2 = (alternating n).map mixing) := by
  induction n with
  | zero => exact ⟨rfl, fun _ => rfl⟩
  | succ n ih =>
    obtain ⟨state, calls⟩ := ih
    have changes : decide (n % 2 = 1) ≠ decide (n % 2 = 0) := by
      rw [ne_eq, decide_eq_decide]
      omega
    rw [alternating_succ, follow_snoc, state]
    constructor
    · show (⟨kind, decide (n % 2 = 0)⟩ : Buzzer) = _
      congr 1
      rw [decide_eq_decide]
      omega
    · intro mixer
      rw [calls mixer, enable_mixer mixer changes, List.map_append]
      rfl

end Buzzer

namespace Emulator

/-- Was the buzzer told to go on and off in turns, and is it as it was told last? -/
structure Matched (e : Emulator) (log : List HostCall) : Prop where
  told : switches log = alternating (switches log).length
  buzzing : e.buzzing = decide ((switches log).length % 2 = 1)

section

variable {s : Settings} {e f : Emulator} {log calls : List HostCall}

theorem Matched.untold (matched : Matched e log) (same : f.buzzing = e.buzzing) (silent : switches calls = []) :
    Matched f (log ++ calls) := by
  obtain ⟨told, buzzing⟩ := matched
  constructor
  · rw [switches_append, silent, List.append_nil]
    exact told
  · rw [switches_append, silent, List.append_nil, same]
    exact buzzing

theorem Matched.switch (matched : Matched e log) {on : Bool} (changes : on ≠ e.buzzing) :
    Matched { e with buzzing := on } (log ++ [.buzzer on]) := by
  obtain ⟨told, buzzing⟩ := matched
  have grown : switches (log ++ [.buzzer on]) = switches log ++ [on] := switches_append log _
  have other : on = decide ((switches log).length % 2 = 0) := by
    rw [Bool.eq_not_of_ne changes, buzzing, ← decide_not, decide_eq_decide]
    omega
  constructor
  · rw [grown, List.length_append, List.length_singleton, alternating_succ, ← told, ← other]
  · show on = _
    rw [grown, List.length_append, List.length_singleton, other, decide_eq_decide]
    omega

theorem Move.matched (matched : Matched e log) (move : Move e f calls) : Matched f (log ++ calls) := by
  cases move with
  | switch on changes => exact matched.switch changes
  | _ => exact matched.untold rfl rfl

theorem Moves.matched (matched : Matched e log) (moves : Moves e f calls) : Matched f (log ++ calls) := by
  induction moves with
  | none => exact matched.untold rfl rfl
  | snoc _ move ih =>
    rw [← List.append_assoc]
    exact move.matched ih

/-! ## When the buzzer sounds -/

def SilentInPause (e : Emulator) : Prop := e.paused = true → e.buzzing = false

/-- Is the buzzer on just if the sound timer runs and the emulator is not paused? -/
def Settled (e : Emulator) : Prop := e.buzzing = true ↔ 0 < e.machine.sound ∧ e.paused = false

theorem Settled.silent (settled : Settled e) : SilentInPause e := by
  intro paused
  rw [← Bool.not_eq_true]
  intro buzzing
  have running := (settled.mp buzzing).2
  rw [paused] at running
  cases running

theorem boot_silent (silent : SilentInPause e) : SilentInPause e.boot.1 := by
  unfold boot
  rcases bootMachine e.machine e.rom with ⟨m, _ | fault⟩
  · intro _
    exact congrArg buzzing (setBuzzer_eq { e with machine := m } false)
  · exact silent

theorem togglePause_silent (e : Emulator) (time : Tape Int) : SilentInPause (e.togglePause time).1 := by
  unfold togglePause
  split
  · intro paused
    cases paused
  · intro _
    exact congrArg buzzing (setBuzzer_eq { e with paused := true } false)

theorem respond_silent (silent : SilentInPause e) (time : Tape Int) (event : Option HostEvent) :
    SilentInPause (e.respond time event).1 := by
  unfold respond
  split
  · exact e.togglePause_silent time
  · exact boot_silent silent
  · exact silent

/-- A fault of the machine stops it before the buzzer hears of the timers, but then it is not paused. -/
theorem runMachine_silent (silent : SilentInPause e) (due : List Activity) (keys : Keys) (random : Tape UInt8) :
    SilentInPause (e.runMachine due keys random).emulator ∧
      ((e.runMachine due keys random).fault = none → Settled (e.runMachine due keys random).emulator) := by
  have pace := (e.runCpu_pace due keys random).paused
  unfold runMachine
  split
  · next paused =>
    refine ⟨silent, fun _ => ?_⟩
    simp [Settled, silent paused, paused]
  · next running =>
    rw [Bool.not_eq_true] at running
    simp only
    split
    · next f faults =>
      constructor
      · intro paused
        rw [pace, running] at paused
        cases paused
      · intro none
        rw [faults] at none
        cases none
    · have timed := ((e.runCpu_pace due keys random).trans (runTimers_pace _ due)).paused
      have settled : ∀ g : Emulator, g.paused = e.paused → Settled (g.setBuzzer g.machine.isBuzzing).1 := by
        intro g same
        simp [Settled, setBuzzer_eq, Machine.isBuzzing, same, running]
      exact ⟨(settled _ timed).silent, fun _ => settled _ timed⟩

theorem runDisplay_settled (settled : Settled e) (due : List Activity) : Settled (e.runDisplay due).1 := by
  unfold runDisplay
  split <;> exact settled

theorem runPerformance_settled (settled : Settled e) (due : List Activity) : Settled (e.runPerformance due).1 := by
  unfold runPerformance
  split <;> exact settled

theorem turnOn_silent (silent : SilentInPause e) (due : List Activity) (input : Input) (time : Tape Int)
    (random : Tape UInt8) :
    SilentInPause (e.turnOn due input time random).emulator ∧
      ((e.turnOn due input time random).halt = none → input.event ≠ some .quit →
        Settled (e.turnOn due input time random).emulator) := by
  have responded := respond_silent silent time input.event
  unfold turnOn
  split
  · next quits => exact ⟨silent, fun _ stays => absurd quits stays⟩
  · rcases answer : e.respond time input.event with ⟨after, later, asked, _ | fault⟩
    · rw [answer] at responded
      have polled : SilentInPause { after with clocks := after.clocks.polled later.head } := responded
      obtain ⟨quiet, settles⟩ := runMachine_silent polled due input.keys random
      simp only
      split
      · exact ⟨quiet, fun fine _ => nomatch fine⟩
      · next done =>
        have settled := runPerformance_settled (runDisplay_settled (settles done) due) due
        split <;> exact ⟨settled.silent, fun _ _ => settled⟩
    · rw [answer] at responded
      exact ⟨responded, fun fine _ => nomatch fine⟩

theorem buzzing_close (r : Run) : r.close.emulator.buzzing = false :=
  congrArg buzzing (setBuzzer_eq r.emulator.present.1 false)

theorem go_silent {fuel : Nat} {inputs : Tape Input} {r : Run} (silent : SilentInPause r.emulator) :
    SilentInPause (Run.go fuel inputs r).1.emulator := by
  induction fuel generalizing inputs r with
  | zero => exact silent
  | succ fuel ih =>
    have turned : SilentInPause (r.after (r.emulator.turn inputs.head r.time r.random)).emulator :=
      (turnOn_silent silent _ inputs.head r.time r.random).1
    unfold Run.go
    simp only
    split
    · exact turned
    · split
      · intro _
        exact buzzing_close _
      · exact ih turned

theorem run_silent (silent : SilentInPause e) (fuel : Nat) (inputs : Tape Input) (time : Tape Int)
    (random : Tape UInt8) : SilentInPause (e.run fuel inputs time random).1.emulator := by
  have booted := boot_silent silent
  unfold run
  rcases start : e.boot with ⟨after, calls, _ | fault⟩
  · rw [start] at booted
    exact go_silent booted
  · rw [start] at booted
    exact booted

theorem buzzing_of_finished (e : Emulator) (fuel : Nat) (inputs : Tape Input) (time : Tape Int) (random : Tape UInt8) :
    (e.run fuel inputs time random).2 = .finished → (e.run fuel inputs time random).1.emulator.buzzing = false := by
  unfold run
  rcases e.boot with ⟨after, calls, _ | fault⟩
  · intro finished
    obtain ⟨last, closed⟩ := close_of_finished finished
    simp only
    rw [closed]
    exact buzzing_close last
  · intro finished
    cases finished

/-! ## Histories -/

/-- An emulator of some settings after whatever was done to it, and its calls to the host since it was built.
    A turn is handed what is due. -/
inductive Logged (s : Settings) : Emulator → List HostCall → Prop
  | built {e : Emulator} {time later : Tape Int} : s.build time = .ok (e, later) → Logged s e []
  | boot {e : Emulator} {log : List HostCall} : Logged s e log → Logged s e.boot.1 (log ++ e.boot.2.1)
  | togglePause {e : Emulator} {log : List HostCall} (time : Tape Int) : Logged s e log →
      Logged s (e.togglePause time).1 (log ++ (e.togglePause time).2.2)
  | turn {e : Emulator} {log : List HostCall} (due : List Activity) (input : Input) (time : Tape Int)
      (random : Tape UInt8) : Logged s e log →
      Logged s (e.turnOn due input time random).emulator (log ++ (e.turnOn due input time random).calls)
  | run {e : Emulator} {log : List HostCall} (fuel : Nat) (inputs : Tape Input) (time : Tape Int)
      (random : Tape UInt8) : Logged s e log →
      Logged s (e.run fuel inputs time random).1.emulator (log ++ (e.run fuel inputs time random).1.calls.toList)

theorem Logged.matched (history : Logged s e log) : Matched e log := by
  induction history with
  | built made =>
    obtain ⟨clocks, rfl⟩ := eq_fresh_of_build made
    exact ⟨rfl, rfl⟩
  | boot _ ih => exact (boot_moves _).matched ih
  | togglePause time _ ih => exact (togglePause_moves _ time).matched ih
  | turn due input time random _ ih => exact (turnOn_moves _ due input time random).matched ih
  | run fuel inputs time random _ ih => exact (run_moves fuel _ inputs time random).matched ih

theorem Logged.silent (history : Logged s e log) : SilentInPause e := by
  induction history with
  | built made =>
    obtain ⟨clocks, rfl⟩ := eq_fresh_of_build made
    exact fun _ => rfl
  | boot _ ih => exact boot_silent ih
  | togglePause time _ _ => exact togglePause_silent _ time
  | turn due input time random _ ih => exact (turnOn_silent ih due input time random).1
  | run fuel inputs time random _ ih => exact run_silent ih fuel inputs time random

/-- The buzzer is told to go on, to go off, to go on, and so on, and is always as the emulator has it; a mixer
    plays once for every on and stops once for every off. It is off during a pause. A turn that ends well and
    does not quit leaves it on just if the sound timer runs and the emulator is not paused, and a run that
    ends by itself leaves it off. -/
theorem buzzer_follows_sound_timer (history : Logged s e log) :
    (∃ n, switches log = alternating n ∧ e.buzzing = decide (n % 2 = 1)) ∧
    (∀ kind, ((Buzzer.mk kind false).follow (switches log)).1 = ⟨kind, e.buzzing⟩) ∧
    ((Buzzer.mk .mixer false).follow (switches log)).2 = (switches log).map Buzzer.mixing ∧
    (e.paused = true → e.buzzing = false) ∧
    (∀ due input time random,
      let t := e.turnOn due input time random
      t.halt = none → input.event ≠ some .quit →
        (t.emulator.buzzing = true ↔ 0 < t.emulator.machine.sound ∧ t.emulator.paused = false)) ∧
    ∀ fuel inputs time random,
      let (r, outcome) := e.run fuel inputs time random
      outcome = .finished → r.emulator.buzzing = false := by
  obtain ⟨told, buzzing⟩ := history.matched
  refine ⟨⟨_, told, buzzing⟩, ?_, ?_, history.silent, ?_, ?_⟩
  · intro kind
    rw [told, (Buzzer.follow_alternating kind _).1, buzzing]
  · rw [told]
    exact (Buzzer.follow_alternating .mixer _).2 rfl
  · intro due input time random
    exact (turnOn_silent history.silent due input time random).2
  · intro fuel inputs time random
    exact e.buzzing_of_finished fuel inputs time random

/-- A program turns the buzzer on for two counts. A pause silences it, and it goes on again after the pause. -/
theorem buzzer_follows_sound_timer_through_a_pause :
    let s : Settings := ⟨{}, true, false, [0x60, 0x02, 0xF0, 0x18], .whole 1000, .never⟩
    let time : Tape Int := .ofFn fun k => k
    let random : Tape UInt8 := .ofFn fun _ => 0
    ∃ e log, Logged s e log ∧ e.paused = true ∧ e.machine.sound = 2 ∧ switches log = [true, false] ∧
      ((Buzzer.mk .mixer false).follow (switches log)).2 = [.play (-1), .stop] ∧
      (e.turnOn [.timers] ⟨Keys.none, some .pause⟩ time random).emulator.buzzing = true := by
  intro s time random
  have built : s.build time = .ok (fresh s _, _) := rfl
  have sounding := ((Logged.built built).boot.turn [.cpu] .idle time random).turn [.cpu] .idle time random
  have paused := sounding.turn [.cpu] ⟨Keys.none, some .pause⟩ time random
  obtain ⟨-, -, mixed, -, settles, -⟩ := buzzer_follows_sound_timer paused
  have resumed := settles [.timers] ⟨Keys.none, some .pause⟩ time random
  -- one evaluation of the turns for all that is left
  suffices ran : _ ∧ _ ∧ switches _ = [true, false] ∧ _ ∧ _ by
    obtain ⟨pausing, counted, told, fine, on⟩ := ran
    exact ⟨_, _, paused, pausing, counted, told, mixed.trans (congrArg _ told), (resumed fine (by simp)).mpr on⟩
  decide +kernel

end

end Emulator

end Chip8
