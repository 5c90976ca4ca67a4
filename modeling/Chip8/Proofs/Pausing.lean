/-
  Chip8.Proofs.Pausing — a pause stops the machine, and the time of a pause does not count.

  From the turn that is asked to pause on, and until something else is asked for, turns rest: they leave
  the machine, the count of instructions and the random bytes as they were, whatever is held and
  whatever is due (`rests_of_respond`). A frame that is due still shows the screen; showing it lowers the
  mark of the screen, and nothing else of the machine changes. So after any number of such turns the
  state is still that from before the pause (`rests_turnsOn`).

  The turn that is asked to resume first gives every clock the moment at which it does, and only then
  looks at the clocks (`turn_resume`). No clock counts from before that moment again (`since_turn`),
  and so nothing is due until a period has passed since then (`waited_of_looks`).
-/
import Chip8.Proofs.Booting
import Chip8.Proofs.Firing
import Mathlib.Data.List.Forall2

namespace Chip8.Emulator

/-! ## Turns that rest -/

/-- Has an emulator the state of another, but for the mark of the screen, and is it paused and silent? -/
structure Frozen (e f : Emulator) : Prop where
  machine : ∃ dirty, f.machine = { e.machine with screen := { e.machine.screen with dirty := dirty } }
  cycles : f.cycles = e.cycles
  paused : f.paused = true
  silent : f.buzzing = false

def pictures (calls : List HostCall) : List (Array UInt8) := calls.filterMap fun call => match call with
  | .display (.frame pixels _) => some pixels
  | _ => none

/-- Does a turn stay with the state of an emulator, and show its screen just if a frame is due? -/
structure Turn.Rests (t : Turn) (e : Emulator) (random : Tape UInt8) (due : List Activity) : Prop where
  frozen : Frozen e t.emulator
  random : t.random = random
  line : t.line = none
  pictures : pictures t.calls = if .display ∈ due then [e.machine.screen.plane.bytes] else []

section

variable {e f g : Emulator} {random : Tape UInt8}

theorem pictures_append (calls more : List HostCall) : pictures (calls ++ more) = pictures calls ++ pictures more :=
  List.filterMap_append

theorem Frozen.display (frozen : Frozen e f) (due : List Activity) :
    Frozen e (f.runDisplay due).1 ∧
      pictures (f.runDisplay due).2 = if .display ∈ due then [e.machine.screen.plane.bytes] else [] := by
  obtain ⟨⟨dirty, machine⟩, cycles, paused, silent⟩ := frozen
  unfold runDisplay
  split
  · refine ⟨⟨⟨false, ?_⟩, cycles, paused, silent⟩, ?_⟩
    · simp only [present, Screen.frame, machine]
    · simp only [present, Screen.frame, machine]
      rfl
  · exact ⟨⟨⟨dirty, machine⟩, cycles, paused, silent⟩, rfl⟩

theorem Frozen.performance (frozen : Frozen e f) (due : List Activity) :
    Frozen e (f.runPerformance due).1 ∧ pictures (f.runPerformance due).2 = [] := by
  obtain ⟨machine, cycles, paused, silent⟩ := frozen
  unfold runPerformance
  split <;> exact ⟨⟨machine, cycles, paused, silent⟩, rfl⟩

/-- A turn rests if the answer to the user leaves the emulator frozen. -/
theorem rests_of_respond {input : Input} {time later : Tape Int} {asked : List HostCall}
    (stays : input.event ≠ some .quit) (answer : f.respond time input.event = (g, later, asked, none))
    (frozen : Frozen e g) (unseen : pictures asked = []) (due : List Activity) :
    (f.turnOn due input time random).Rests e random due := by
  have polled : Frozen e { g with clocks := g.clocks.polled later.head } :=
    ⟨frozen.machine, frozen.cycles, frozen.paused, frozen.silent⟩
  have idle : { g with clocks := g.clocks.polled later.head }.runMachine due input.keys random =
      ⟨{ g with clocks := g.clocks.polled later.head }, random, [], none, none⟩ := if_pos frozen.paused
  obtain ⟨displayed, shown⟩ := polled.display due
  obtain ⟨reported, untold⟩ := displayed.performance due
  have seen : pictures (.poll :: asked ++ [] ++ ({ g with clocks := g.clocks.polled later.head }.runDisplay due).2 ++
      (({ g with clocks := g.clocks.polled later.head }.runDisplay due).1.runPerformance due).2) =
      if .display ∈ due then [e.machine.screen.plane.bytes] else [] := by
    have first : pictures (.poll :: asked) = [] := unseen
    rw [pictures_append, pictures_append, List.append_nil, first, shown, untold, List.append_nil, List.nil_append]
  unfold turnOn
  rw [if_neg stays, answer]
  simp only [idle]
  split <;> exact ⟨reported, rfl, rfl, seen⟩

theorem rests_pause (running : e.paused = false) (keys : Keys) (due : List Activity) (time : Tape Int) :
    (e.turnOn due ⟨keys, some .pause⟩ time random).Rests e random due := by
  have stays : (⟨keys, some .pause⟩ : Input).event ≠ some .quit := by simp
  have answer : e.respond time (some .pause) =
      ({ e with paused := true, buzzing := false }, time, ({ e with paused := true }.setBuzzer false).2, none) := by
    simp [respond, togglePause, running, setBuzzer_eq]
  have unseen : pictures ({ e with paused := true }.setBuzzer false).2 = [] := by
    unfold setBuzzer
    split <;> rfl
  exact rests_of_respond stays answer ⟨⟨_, rfl⟩, rfl, rfl, rfl⟩ unseen due

theorem Frozen.rests (frozen : Frozen e f) {input : Input} (unasked : input.event = none) (due : List Activity)
    (time : Tape Int) : (f.turnOn due input time random).Rests e random due := by
  have answer : f.respond time input.event = (f, time, [], none) := by rw [unasked]; rfl
  exact rests_of_respond (by rw [unasked]; nofun) answer frozen rfl due

end

/-! ## Resuming -/

def resumed (e : Emulator) (now : Int) : Emulator := { e with paused := false, clocks := e.clocks.rebase now }

/-- The turn that resumes is a turn of the emulator at work again. -/
theorem turn_resume {e : Emulator} (paused : e.paused = true) (keys : Keys) (time : Tape Int) (random : Tape UInt8) :
    e.turn ⟨keys, some .pause⟩ time random = (e.resumed time.head).turn ⟨keys, none⟩ time.tail random := by
  have toggled : e.togglePause time = (e.resumed time.head, time.tail, []) := if_pos paused
  simp only [turn, respond, toggled, reduceCtorEq, Option.some.injEq, if_false]

structure Look where
  now : Int
  due : List Activity

def look (e : Emulator) (input : Input) (time : Tape Int) : Look :=
  ⟨(e.respond time input.event).2.1.head, e.dueIn input time⟩

def looks (e : Emulator) (time : Tape Int) (random : Tape UInt8) : List Input → List Look
  | [] => []
  | input :: rest =>
    let t := e.turn input time random
    e.look input time :: t.emulator.looks t.time t.random rest

/-- Has a period of an activity passed between two moments? -/
def Waited (s : Settings) (activity : Activity) (since now : Int) : Prop :=
  ∃ frequency p, (frequency, activity) ∈ Activity.frequencies s.speed ∧ p ∈ (Clock.periodOf frequency).value? ∧
    p ≤ ((now - since : Int) : ℚ)

/-! ## Clocks -/

def Clocked (s : Settings) (clocks : Scheduler Activity) : Prop :=
  ∀ c ∈ clocks, c.Timed ∧ (c.frequency, c.activity) ∈ Activity.frequencies s.speed

def Since (r : Int) (clocks : Scheduler Activity) : Prop := ∀ c ∈ clocks, r ≤ c.since

section

variable {s : Settings} {e f : Emulator} {clocks : Scheduler Activity} {r now : Int}

theorem Clocked.polled (clocked : Clocked s clocks) (now : Int) : Clocked s (clocks.polled now) := by
  intro c mem
  obtain ⟨b, before, rfl⟩ := List.mem_map.mp mem
  obtain ⟨timed, listed⟩ := clocked b before
  refine ⟨timed.polled now, ?_⟩
  unfold Clock.polled
  split <;> exact listed

theorem Clocked.rebase (clocked : Clocked s clocks) (now : Int) : Clocked s (clocks.rebase now) := by
  intro c mem
  obtain ⟨b, before, rfl⟩ := List.mem_map.mp mem
  obtain ⟨timed, listed⟩ := clocked b before
  exact ⟨timed.rebase now, listed⟩

theorem clocked_of_register {frequencies : List (Number × Activity)}
    (listed : ∀ p ∈ frequencies, p ∈ Activity.frequencies s.speed) {time later : Tape Int}
    {made : Scheduler Activity} (clocked : Clocked s clocks) (done : register clocks time frequencies = .ok (made, later)) :
    Clocked s made := by
  induction frequencies generalizing clocks time with
  | nil =>
    cases done
    exact clocked
  | cons p rest ih =>
    obtain ⟨first, others⟩ := List.forall_mem_cons.mp listed
    obtain ⟨c, created, label, registered⟩ := register_cons done
    refine ih others ?_ registered
    intro b mem
    rcases List.mem_append.mp mem with old | new
    · exact clocked b old
    · rw [List.mem_singleton.mp new]
      exact ⟨Clock.timed_of_create? created, label ▸ first⟩

theorem Move.clocked {calls : List HostCall} (clocked : Clocked s e.clocks) (move : Move e f calls) :
    Clocked s f.clocks := by
  cases move with
  | rebase now => exact clocked.rebase now
  | pollClocks now => exact clocked.polled now
  | _ => exact clocked

theorem Moves.clocked {calls : List HostCall} (clocked : Clocked s e.clocks) (moves : Moves e f calls) :
    Clocked s f.clocks := by
  induction moves with
  | none => exact clocked
  | snoc _ move ih => exact move.clocked ih

theorem Reached.clocked (reached : Reached s e) : Clocked s e.clocks := by
  induction reached with
  | @built e time later made =>
    have registered := (register_of_build made).2
    exact clocked_of_register (fun _ mem => mem) (fun _ none => absurd none List.not_mem_nil) registered
  | boot _ ih => exact (boot_moves _).clocked ih
  | togglePause time _ ih => exact (togglePause_moves _ time).clocked ih
  | turn input time random _ ih => exact (turn_moves _ input time random).clocked ih
  | run fuel inputs time random _ ih => exact (run_moves fuel _ inputs time random).clocked ih

/-! ## What clocks count from -/

theorem Since.polled (since : Since r clocks) (clocked : Clocked s clocks) (now : Int) : Since r (clocks.polled now) := by
  intro c mem
  obtain ⟨b, before, rfl⟩ := List.mem_map.mp mem
  unfold Clock.polled
  split
  · next due => exact (since b before).trans ((clocked b before).1.since_le due)
  · exact since b before

theorem since_rebase (clocks : Scheduler Activity) (forward : r ≤ now) : Since r (clocks.rebase now) := by
  intro c mem
  obtain ⟨b, -, rfl⟩ := List.mem_map.mp mem
  exact forward

theorem waited_of_due (clocked : Clocked s clocks) (since : Since r clocks) :
    ∀ activity ∈ clocks.due now, Waited s activity r now := by
  intro activity mem
  obtain ⟨c, due, rfl⟩ := List.mem_map.mp mem
  obtain ⟨here, fires⟩ := List.mem_filter.mp due
  obtain ⟨timed, listed⟩ := clocked c here
  obtain ⟨p, exact, waited⟩ := (timed.isDue_iff now).mp fires
  have longer : ((now - c.since : Int) : ℚ) ≤ ((now - r : Int) : ℚ) := by
    exact_mod_cast Int.sub_le_sub_left (since c here) now
  exact ⟨c.frequency, p, listed, timed.period ▸ exact, waited.trans longer⟩

end

/-! ## Turns after a moment -/

theorem time_respond (e : Emulator) (time : Tape Int) (event : Option HostEvent) :
    ∃ n, (e.respond time event).2.1 = time.drop n := by
  unfold respond
  split
  · simp only [togglePause]
    split
    · exact ⟨1, rfl⟩
    · exact ⟨0, rfl⟩
  · exact ⟨0, rfl⟩
  · exact ⟨0, rfl⟩

theorem time_turnOn (e : Emulator) (due : List Activity) (input : Input) (time : Tape Int) (random : Tape UInt8) :
    ∃ n, (e.turnOn due input time random).time = time.drop n := by
  obtain ⟨n, dropped⟩ := e.time_respond time input.event
  unfold turnOn
  split
  · exact ⟨0, rfl⟩
  · rcases answer : e.respond time input.event with ⟨after, later, asked, _ | fault⟩
    · rw [answer] at dropped
      have tail : later.tail = time.drop (n + 1) := congrArg Tape.tail dropped
      simp only
      split
      · exact ⟨n + 1, tail⟩
      · split <;> exact ⟨n + 1, tail⟩
    · rw [answer] at dropped
      exact ⟨n, dropped⟩

section

variable {s : Settings} {e : Emulator} {r : Int}

theorem since_togglePause (since : Since r e.clocks) {time : Tape Int} (forward : r ≤ time.head) :
    Since r (e.togglePause time).1.clocks := by
  unfold togglePause
  split
  · exact since_rebase e.clocks forward
  · show Since r ({ e with paused := true }.setBuzzer false).1.clocks
    rw [setBuzzer_eq]
    exact since

theorem since_respond (since : Since r e.clocks) {time : Tape Int} {event : Option HostEvent}
    (forward : event = some .pause → r ≤ time.head) : Since r (e.respond time event).1.clocks := by
  unfold respond
  split
  · exact since_togglePause since (forward rfl)
  · exact e.boot_pace.clocks ▸ since
  · exact since

theorem since_turn (clocked : Clocked s e.clocks) {input : Input} {time : Tape Int}
    (since : Since r (e.respond time input.event).1.clocks) (random : Tape UInt8) :
    Since r (e.turn input time random).emulator.clocks := by
  rcases (e.turnOn_pace (e.dueIn input time) input time random).2 with same | ⟨now, polled⟩
  · exact same ▸ since
  · exact polled ▸ since.polled ((e.respond_moves time input.event).clocked clocked) now

theorem waited_of_look (clocked : Clocked s e.clocks) {input : Input} {time : Tape Int}
    (since : Since r (e.respond time input.event).1.clocks) :
    ∀ activity ∈ (e.look input time).due, Waited s activity r (e.look input time).now :=
  waited_of_due ((e.respond_moves time input.event).clocked clocked) since

/-- As long as the clocks count from a moment or later, no look finds due what has not waited since then. -/
theorem waited_of_looks (clocked : Clocked s e.clocks) {input : Input} {time : Tape Int}
    (since : Since r (e.respond time input.event).1.clocks) {inputs : List Input}
    (forward : ∀ input ∈ inputs, input.event = some .pause → ∀ n, r ≤ (time.drop n).head) (random : Tape UInt8) :
    ∀ look ∈ e.looks time random (input :: inputs), ∀ activity ∈ look.due, Waited s activity r look.now := by
  have first := waited_of_look clocked since
  induction inputs generalizing e input time random with
  | nil => exact List.forall_mem_cons.mpr ⟨first, fun _ none => absurd none List.not_mem_nil⟩
  | cons next rest ih =>
    have kept := (e.turn_moves input time random).clocked clocked
    have later : ∀ i ∈ next :: rest, i.event = some .pause → ∀ k, r ≤ ((e.turn input time random).time.drop k).head := by
      intro i mem pause k
      obtain ⟨n, dropped⟩ := e.time_turnOn (e.dueIn input time) input time random
      have ahead := forward i mem pause (n + k)
      rw [Tape.head_drop, ← Nat.add_assoc] at ahead
      rw [turn_eq, dropped]
      exact ahead
    obtain ⟨soon, others⟩ := List.forall_mem_cons.mp later
    have start : next.event = some .pause → r ≤ (e.turn input time random).time.head := fun pause => soon pause 0
    have answered := since_respond (since_turn clocked since random) start
    exact List.forall_mem_cons.mpr ⟨first, ih kept answered others _ (waited_of_look kept answered)⟩

/-! ## A pause -/

theorem Frozen.rests_turnsOn {f : Emulator} (frozen : Frozen e f) (clocked : Clocked s f.clocks)
    {feeds : List (Input × List Activity)} (unasked : ∀ feed ∈ feeds, feed.1.event = none) (time : Tape Int)
    (random : Tape UInt8) :
    List.Forall₂ (fun feed (t : Turn) => t.Rests e random feed.2 ∧ Clocked s t.emulator.clocks) feeds
      (f.turnsOn time random feeds) := by
  induction feeds generalizing f time with
  | nil => exact .nil
  | cons feed rest ih =>
    obtain ⟨input, due⟩ := feed
    obtain ⟨quiet, others⟩ := List.forall_mem_cons.mp unasked
    have rests : (f.turnOn due input time random).Rests e random due := frozen.rests quiet due time
    have kept := (f.turnOn_moves due input time random).clocked clocked
    rw [turnsOn]
    refine .cons ⟨rests, kept⟩ ?_
    rw [rests.random]
    exact ih rests.frozen kept others _

/-- A pause freezes the machine: until the user asks for something else, turns leave everything of it as it
    was but the mark of the screen, and frames that are due show the screen. The turn that resumes is a
    turn of the frozen machine at work, with all clocks counting from the moment at which it resumes. From
    then on, as long as no later pause comes with an earlier time, nothing is due before a period has
    passed since that moment. -/
theorem pause_freezes_machine (reached : Reached s e) (running : e.paused = false) (keys : Keys) (due : List Activity)
    {feeds : List (Input × List Activity)} (unasked : ∀ feed ∈ feeds, feed.1.event = none) (time : Tape Int)
    (random : Tape UInt8) :
    let paused := (⟨keys, some .pause⟩, due) :: feeds
    List.Forall₂ (fun feed (t : Turn) => t.Rests e random feed.2 ∧ ∀ keys inputs,
        let r := t.time.head
        t.emulator.turn ⟨keys, some .pause⟩ t.time random = (t.emulator.resumed r).turn ⟨keys, none⟩ t.time.tail random ∧
        ((∀ input ∈ inputs, input.event = some .pause → ∀ n, r ≤ (t.time.drop n).head) →
          ∀ look ∈ t.emulator.looks t.time random (⟨keys, some .pause⟩ :: inputs),
            ∀ activity ∈ look.due, Waited s activity r look.now))
      paused (e.turnsOn time random paused) := by
  intro paused
  have pausing : (e.turnOn due ⟨keys, some .pause⟩ time random).Rests e random due := rests_pause running keys due time
  have kept := (e.turnOn_moves due ⟨keys, some .pause⟩ time random).clocked reached.clocked
  have resting : List.Forall₂ (fun feed (t : Turn) => t.Rests e random feed.2 ∧ Clocked s t.emulator.clocks) paused
      (e.turnsOn time random paused) := by
    refine .cons ⟨pausing, kept⟩ ?_
    rw [pausing.random]
    exact pausing.frozen.rests_turnsOn kept unasked _ random
  refine resting.imp ?_
  rintro feed t ⟨rests, clocked⟩
  refine ⟨rests, ?_⟩
  intro keys inputs r
  refine ⟨turn_resume rests.frozen.paused keys t.time random, ?_⟩
  intro forward
  have toggled : t.emulator.togglePause t.time = (t.emulator.resumed r, t.time.tail, []) := if_pos rests.frozen.paused
  have since : Since r (t.emulator.togglePause t.time).1.clocks := toggled ▸ since_rebase _ (Int.le_refl r)
  exact waited_of_looks clocked since forward random

/-- A pause while the buzzer is on. It is resumed when an instruction is due by the old count, but not by the new. -/
theorem pause_freezes_machine_until_resumed :
    let s : Settings := ⟨{}, true, false, [0x60, 0x02, 0xF0, 0x18], .whole 1000, .never⟩
    let times (now : Int) : Tape Int := .ofFn fun k => now + k
    let random : Tape UInt8 := .ofFn fun _ => 0
    ∃ e t u, Reached s e ∧ e.paused = false ∧ e.buzzing = true ∧
      e.turnsOn (times 7000) random [(⟨Keys.none, some .pause⟩, [.cpu, .timers]), (.idle, [.cpu, .display])] = [t, u] ∧
      u.emulator.buzzing = false ∧ u.emulator.machine.sound = e.machine.sound ∧
      pictures u.calls = [e.machine.screen.plane.bytes] ∧
      (u.emulator.look ⟨Keys.none, some .pause⟩ u.time).now - u.time.head = 1 ∧
      .cpu ∉ (u.emulator.look ⟨Keys.none, some .pause⟩ u.time).due := by
  intro s times random
  have built : s.build (times 0) = .ok (fresh s _, _) := rfl
  have reached := ((Reached.built built).boot.turn .idle (times 5000) random).turn .idle (times 6000) random
  have unasked : ∀ feed ∈ [((.idle : Input), [Activity.cpu, .display])], feed.1.event = none := by simp [Input.idle]
  -- one evaluation of the turns before the pause and in it
  suffices ran : _ ∧ _ ∧ _ - _ = (1 : Int) by
    obtain ⟨running, sounding, gap⟩ := ran
    have law := pause_freezes_machine reached running Keys.none [.cpu, .timers] unasked (times 7000) random
    obtain ⟨-, second⟩ := List.forall₂_cons.mp law
    obtain ⟨⟨rests, resumes⟩, -⟩ := List.forall₂_cons.mp second
    obtain ⟨dirty, machine⟩ := rests.frozen.machine
    refine ⟨_, _, _, reached, running, sounding, rfl, rests.frozen.silent, by rw [machine], rests.pictures, gap, ?_⟩
    intro due
    have waits := (resumes Keys.none []).2 (fun _ none => absurd none List.not_mem_nil) _ List.mem_cons_self .cpu due
    obtain ⟨frequency, p, listed, exact, waited⟩ := waits
    obtain ⟨q, period, longer⟩ : ∃ q, (Clock.periodOf (.whole 1000)).value? = some q ∧ 1 < q := ⟨_, rfl, by decide +kernel⟩
    obtain rfl : frequency = .whole 1000 := by simpa [Activity.frequencies] using listed
    cases exact.symm.trans period
    rw [gap] at waited
    norm_num at waited
    linarith
  decide +kernel

end

end Chip8.Emulator
