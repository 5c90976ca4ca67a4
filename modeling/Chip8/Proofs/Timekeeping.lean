/-
  Chip8.Proofs.Timekeeping — how the main loop keeps its clocks.

  A turn looks at the clocks once, after its answer to the user, unless it quits or a boot fails. Such a
  look is a beat. What a turn asks of the clocks is the poll of its beat, and before it a reset if it
  resumes (`clocks_turn`), and it reads the time just as often (`requests_cases`). So along a run the
  clocks are what a history of requests makes of none, from the registrations on (`Keeps`), and what is
  known of histories holds of the clocks of every run. The clocks never change their places
  (`labels_turn`), so an activity is due just if the clock at its place is reported (`timers_due_iff`).
-/
import Chip8.Proofs.Pausing
import Chip8.Proofs.Unattended
import Mathlib.Data.List.Pairwise

namespace Chip8

def Tape.Forward (time : Tape Int) : Prop := ∀ ⦃i j : Nat⦄, i ≤ j → time.cell i ≤ time.cell j

namespace Emulator

/-! ## Beats -/

/-- A look at the clocks: the emulator after its answer to the user, and the moment. -/
structure Beat where
  emulator : Emulator
  now : Int

namespace Beat

def due (b : Beat) : List Activity := b.emulator.clocks.due b.now

def Ticks (b : Beat) : Prop := b.emulator.paused = false ∧ .cpu ∈ b.due

def Counts (b : Beat) : Prop := b.emulator.paused = false ∧ .timers ∈ b.due

instance (b : Beat) : Decidable b.Ticks := inferInstanceAs (Decidable (_ ∧ _))

instance (b : Beat) : Decidable b.Counts := inferInstanceAs (Decidable (_ ∧ _))

end Beat

def beat? (e : Emulator) (input : Input) (time : Tape Int) : Option Beat :=
  if input.event = some .quit then none
  else
    match e.respond time input.event with
    | (after, later, _, none) => some ⟨after, later.head⟩
    | (_, _, _, some _) => none

/-- The resets of a turn: one, if it resumes. -/
def resets (e : Emulator) (input : Input) (time : Tape Int) : List (Scheduler.Request Activity) :=
  if input.event = some .pause ∧ e.paused = true then [.reset time.head] else []

/-- What a turn asks of the clocks, the latest request first. -/
def requests (e : Emulator) (input : Input) (time : Tape Int) : List (Scheduler.Request Activity) :=
  (e.beat? input time).toList.map (fun b => .poll b.now) ++ e.resets input time

namespace Run

def step (r : Run) (input : Input) : Run := r.after (r.emulator.turn input r.time r.random)

def steps (r : Run) (inputs : List Input) : Run := inputs.foldl step r

def turns (r : Run) : List Input → List Turn
  | [] => []
  | input :: rest => r.emulator.turn input r.time r.random :: (r.step input).turns rest

def beats (r : Run) : List Input → List Beat
  | [] => []
  | input :: rest => (r.emulator.beat? input r.time).toList ++ (r.step input).beats rest

def requests (r : Run) : List Input → List (Scheduler.Request Activity)
  | [] => []
  | input :: rest => (r.step input).requests rest ++ r.emulator.requests input r.time

end Run

section

variable {e : Emulator} {input : Input} {time : Tape Int} {random : Tape UInt8} {b : Beat}

/-! ## Turns and their beats -/

theorem respond_of_beat (here : e.beat? input time = some b) :
    input.event ≠ some .quit ∧
      ∃ later asked, e.respond time input.event = (b.emulator, later, asked, none) ∧ later.head = b.now := by
  unfold beat? at here
  split at here
  · cases here
  · next stays =>
    refine ⟨stays, ?_⟩
    rcases answer : e.respond time input.event with ⟨after, later, asked, _ | fault⟩
    · rw [answer] at here
      cases here
      exact ⟨later, asked, rfl, rfl⟩
    · rw [answer] at here
      cases here

/-- After its beat a turn leaves the pause alone and polls the clocks. -/
theorem pace_of_beat (here : e.beat? input time = some b) (random : Tape UInt8) :
    SamePace { b.emulator with clocks := b.emulator.clocks.polled b.now } (e.turn input time random).emulator := by
  obtain ⟨stays, later, asked, answer, now⟩ := respond_of_beat here
  have worked := runMachine_pace { b.emulator with clocks := b.emulator.clocks.polled b.now } b.due input.keys random
  unfold turn
  rw [if_neg stays, answer]
  simp only [now]
  split
  · exact worked
  · have ended := (worked.trans (runDisplay_pace _ b.due)).trans (runPerformance_pace _ b.due)
    split <;> exact ended

theorem time_of_beat (here : e.beat? input time = some b) (random : Tape UInt8) :
    (e.turn input time random).time = (e.respond time input.event).2.1.tail := by
  obtain ⟨stays, later, asked, answer, now⟩ := respond_of_beat here
  unfold turn
  rw [if_neg stays, answer]
  simp only
  split
  · rfl
  · split <;> rfl

/-- A turn without a beat quits, or its boot fails. -/
theorem turn_of_noBeat (none : e.beat? input time = none) (random : Tape UInt8) :
    input.event = some .quit ∧ e.turn input time random = ⟨e, time, random, [.poll], .none, .none, true⟩ ∨
      ∃ fault, input.event = some .reset ∧ (e.turn input time random).halt = some (.boot fault) ∧
        (e.turn input time random).emulator = e.boot.1 ∧ (e.turn input time random).time = time := by
  by_cases quits : input.event = some .quit
  · exact .inl ⟨quits, if_pos quits⟩
  · right
    rw [beat?, if_neg quits] at none
    unfold turn
    rw [if_neg quits]
    cases asked : input.event with
    | none => rw [asked] at none; cases none
    | some event =>
      cases event with
      | quit => exact absurd asked quits
      | pause => rw [asked] at none; cases none
      | reset =>
        rcases booted : e.boot with ⟨after, calls, _ | fault⟩
        · simp only [asked, respond, booted] at none
          cases none
        · simp only [respond, booted]
          exact ⟨fault, trivial, rfl, trivial, trivial⟩

/-! ## Requests -/

theorem respond_of_resume {event : Option HostEvent} (resumes : event = some .pause ∧ e.paused = true) :
    e.respond time event = (e.resumed time.head, time.tail, [], none) := by
  have toggled : e.togglePause time = (e.resumed time.head, time.tail, []) := if_pos resumes.2
  rw [resumes.1, respond, toggled]

/-- Only an answer that resumes reads the time or touches the clocks. -/
theorem respond_of_noResume {event : Option HostEvent} (time : Tape Int)
    (stays : ¬(event = some .pause ∧ e.paused = true)) :
    (e.respond time event).1.clocks = e.clocks ∧ (e.respond time event).2.1 = time := by
  unfold respond
  split
  · have running : ¬e.paused = true := fun paused => stays ⟨rfl, paused⟩
    simp only [togglePause, if_neg running, setBuzzer_eq, and_self]
  · exact ⟨e.boot_pace.clocks, rfl⟩
  · exact ⟨rfl, rfl⟩

/-- Only the user pauses and resumes. -/
theorem paused_respond (e : Emulator) (time : Tape Int) (event : Option HostEvent) :
    (e.respond time event).1.paused = if event = some .pause then !e.paused else e.paused := by
  unfold respond
  split
  · show (e.togglePause time).1.paused = !e.paused
    unfold togglePause
    cases paused : e.paused with
    | true => rfl
    | false => exact congrArg Emulator.paused (setBuzzer_eq { e with paused := true } false)
  · exact e.boot_pace.paused
  · next unasked _ => exact (if_neg unasked).symm

/-- A turn without a beat asks nothing of the clocks; any other polls them, and resets them before if it
    resumes. It reads the time once for each. -/
theorem requests_cases (e : Emulator) (input : Input) (time : Tape Int) (random : Tape UInt8) :
    e.requests input time = [] ∧ (e.turn input time random).time = time ∨
      e.requests input time = [.poll time.head] ∧ (e.turn input time random).time = time.tail ∨
      e.requests input time = [.poll time.tail.head, .reset time.head] ∧
        (e.turn input time random).time = time.tail.tail := by
  unfold requests resets
  cases here : e.beat? input time with
  | none =>
    left
    rcases turn_of_noBeat here random with ⟨quits, same⟩ | ⟨fault, resets, _, _, unread⟩
    · simp [quits, same]
    · simp [resets, unread]
  | some b =>
    right
    obtain ⟨_, later, asked, answer, now⟩ := respond_of_beat here
    have read : (e.turn input time random).time = later.tail := by rw [time_of_beat here random, answer]
    simp only [Option.toList_some, List.map_cons, List.map_nil, List.cons_append, List.nil_append, ← now, read]
    by_cases resumes : input.event = some .pause ∧ e.paused = true
    · right
      have ahead : later = time.tail := congrArg (·.2.1) (answer.symm.trans (respond_of_resume resumes))
      rw [if_pos resumes, ahead]
      exact ⟨rfl, rfl⟩
    · left
      have unread := (respond_of_noResume time resumes).2
      rw [answer] at unread
      rw [if_neg resumes, show later = time from unread]
      exact ⟨rfl, rfl⟩

/-- The moment of a beat is on the tape before what the turn leaves of it. -/
theorem moment_of_beat (forward : time.Forward) (here : e.beat? input time = some b) (random : Tape UInt8) :
    time.head ≤ b.now ∧ b.now ≤ (e.turn input time random).time.head := by
  have next : time.head ≤ time.tail.head := forward (Nat.le_succ time.position)
  have other : time.tail.head ≤ time.tail.tail.head := forward (Nat.le_succ time.tail.position)
  have polls : e.requests input time = .poll b.now :: e.resets input time := by rw [requests, here]; rfl
  rcases e.requests_cases input time random with ⟨asked, _⟩ | ⟨asked, read⟩ | ⟨asked, read⟩
  · cases polls.symm.trans asked
  · have now : b.now = time.head := Scheduler.Request.poll.inj (List.cons.inj (polls.symm.trans asked)).1
    rw [now, read]
    exact ⟨Int.le_refl _, next⟩
  · have now : b.now = time.tail.head := Scheduler.Request.poll.inj (List.cons.inj (polls.symm.trans asked)).1
    rw [now, read]
    exact ⟨next, other⟩

theorem clocks_of_beat (here : e.beat? input time = some b) {h : List (Scheduler.Request Activity)}
    (kept : e.clocks = Scheduler.after h) : b.emulator.clocks = Scheduler.after (e.resets input time ++ h) := by
  obtain ⟨_, later, asked, answer, _⟩ := respond_of_beat here
  unfold resets
  by_cases resumes : input.event = some .pause ∧ e.paused = true
  · have same : b.emulator = e.resumed time.head := congrArg Prod.fst (answer.symm.trans (respond_of_resume resumes))
    rw [if_pos resumes, same, List.singleton_append, Scheduler.after, ← kept]
    rfl
  · have same := (respond_of_noResume time resumes).1
    rw [answer] at same
    rw [if_neg resumes, List.nil_append, ← kept]
    exact same

/-- What a turn does to the clocks is what it asks of them. -/
theorem clocks_turn {h : List (Scheduler.Request Activity)} (kept : e.clocks = Scheduler.after h)
    (random : Tape UInt8) :
    (e.turn input time random).emulator.clocks = Scheduler.after (e.requests input time ++ h) := by
  cases here : e.beat? input time with
  | none =>
    have silent : e.requests input time = [] := by
      rcases turn_of_noBeat here random with ⟨quits, _⟩ | ⟨_, resets, _⟩
      · simp [requests, resets, here, quits]
      · simp [requests, Emulator.resets, here, resets]
    rw [silent, List.nil_append, ← kept]
    rcases turn_of_noBeat here random with ⟨_, same⟩ | ⟨_, _, _, same, _⟩
    · rw [same]
    · rw [same, e.boot_pace.clocks]
  | some b =>
    have polled := (pace_of_beat here random).clocks
    simp only [requests, here, Option.toList_some, List.map_cons, List.map_nil, List.cons_append, List.nil_append,
      Scheduler.after, ← clocks_of_beat here kept]
    exact polled

end

/-! ## Histories -/

/-- Are clocks what requests make of none, the requests in order and none after what is next on the tape? -/
structure Keeps (clocks : Scheduler Activity) (time : Tape Int) (h : List (Scheduler.Request Activity)) : Prop where
  clocks : clocks = Scheduler.after h
  ordered : Scheduler.InOrder h
  past : ∀ r ∈ h, r.time ≤ time.head
  forward : time.Forward

def labels (clocks : Scheduler Activity) : List (Number × Activity) := clocks.map fun c => (c.frequency, c.activity)

section

variable {clocks made : Scheduler Activity} {time later : Tape Int} {h : List (Scheduler.Request Activity)}

theorem labels_rebase (clocks : Scheduler Activity) (now : Int) : labels (clocks.rebase now) = labels clocks := by
  simp only [labels, Scheduler.rebase, List.map_map]
  rfl

theorem labels_polled (clocks : Scheduler Activity) (now : Int) : labels (clocks.polled now) = labels clocks := by
  simp only [labels, Scheduler.polled, List.map_map]
  apply List.map_congr_left
  intro c _
  simp only [Function.comp_apply, Clock.polled]
  split <;> rfl

theorem labels_respond (e : Emulator) (time : Tape Int) (event : Option HostEvent) :
    labels (e.respond time event).1.clocks = labels e.clocks := by
  by_cases resumes : event = some .pause ∧ e.paused = true
  · rw [respond_of_resume resumes]
    exact labels_rebase e.clocks time.head
  · rw [(respond_of_noResume time resumes).1]

theorem labels_of_beat {e : Emulator} {input : Input} {b : Beat} (here : e.beat? input time = some b) :
    labels b.emulator.clocks = labels e.clocks := by
  obtain ⟨_, later, asked, answer, _⟩ := respond_of_beat here
  have same := e.labels_respond time input.event
  rw [answer] at same
  exact same

theorem labels_turn (e : Emulator) (input : Input) (time : Tape Int) (random : Tape UInt8) :
    labels (e.turn input time random).emulator.clocks = labels e.clocks := by
  have answered := e.labels_respond time input.event
  rcases (e.turnOn_pace (e.dueIn input time) input time random).2 with same | ⟨now, polled⟩
  · rw [turn_eq, same, answered]
  · rw [turn_eq, polled, labels_polled, answered]

/-- A request at the next moment of the tape, after which the tape goes on. -/
theorem Keeps.asked (keeps : Keeps clocks time h) {r : Scheduler.Request Activity} (now : r.time = time.head) :
    Keeps (Scheduler.after (r :: h)) time.tail (r :: h) where
  clocks := rfl
  ordered := List.pairwise_cons.mpr ⟨fun q mem => now ▸ keeps.past q mem, keeps.ordered⟩
  past := by
    have next : time.head ≤ time.tail.head := keeps.forward (Nat.le_succ time.position)
    intro q mem
    rcases List.mem_cons.mp mem with rfl | earlier
    · exact now ▸ next
    · exact (keeps.past q earlier).trans next
  forward := keeps.forward

theorem Keeps.turn {e : Emulator} (keeps : Keeps e.clocks time h) (input : Input) (random : Tape UInt8) :
    Keeps (e.turn input time random).emulator.clocks (e.turn input time random).time (e.requests input time ++ h) := by
  rw [clocks_turn keeps.clocks random]
  rcases e.requests_cases input time random with ⟨asked, read⟩ | ⟨asked, read⟩ | ⟨asked, read⟩
  · rw [asked, read, List.nil_append, ← keeps.clocks]
    exact keeps
  · rw [asked, read]
    exact keeps.asked rfl
  · rw [asked, read]
    exact (keeps.asked (r := .reset time.head) rfl).asked rfl

theorem Keeps.register {frequencies : List (Number × Activity)} (keeps : Keeps clocks time h)
    (done : register clocks time frequencies = .ok (made, later)) :
    (∃ h, Keeps made later h) ∧ labels made = labels clocks ++ frequencies := by
  induction frequencies generalizing clocks time h with
  | nil =>
    cases done
    exact ⟨⟨h, keeps⟩, (List.append_nil _).symm⟩
  | cons p rest ih =>
    obtain ⟨c, created, label, others⟩ := register_cons done
    have grown : Scheduler.after (.add time.head p.1 p.2 :: h) = clocks ++ [c] := by
      rw [Scheduler.after, ← keeps.clocks, Scheduler.add?, created]
      rfl
    have kept : Keeps (clocks ++ [c]) time.tail (.add time.head p.1 p.2 :: h) :=
      grown ▸ keeps.asked (r := .add time.head p.1 p.2) rfl
    obtain ⟨history, named⟩ := ih kept others
    refine ⟨history, named.trans ?_⟩
    rw [labels, List.map_append, List.append_assoc, List.map_singleton, label]
    rfl

/-- A new emulator keeps its clocks from their registrations on. -/
theorem keeps_of_build {s : Settings} {e : Emulator} (built : s.build time = .ok (e, later))
    (forward : time.Forward) :
    (∃ h, Keeps e.clocks later h) ∧ labels e.clocks = Activity.frequencies s.speed := by
  have none : Keeps [] time [] := ⟨rfl, .nil, fun _ mem => absurd mem List.not_mem_nil, forward⟩
  exact none.register (register_of_build built).2

theorem clocks_of_labels {speed : Number} (named : labels clocks = Activity.frequencies speed) :
    ∃ instructions timers frames figures : Clock Activity, clocks = [instructions, timers, frames, figures] ∧
      instructions.activity = .cpu ∧ timers.activity = .timers ∧ frames.activity = .display ∧
      figures.activity = .performance ∧ timers.frequency = .whole Activity.timerFrequency := by
  simp only [labels, Activity.frequencies, List.map_eq_cons_iff, List.map_eq_nil_iff, Prod.mk.injEq] at named
  obtain ⟨a, _, rfl, ⟨_, cpu⟩, b, _, rfl, ⟨sixty, timers⟩, c, _, rfl, ⟨_, display⟩, d, _, rfl, ⟨_, figures⟩, rfl⟩ := named
  exact ⟨a, b, c, d, rfl, cpu, timers, display, figures, sixty⟩

/-- The timers are due just if the clock in the second place is reported. -/
theorem timers_due_iff {speed : Number} (named : labels clocks = Activity.frequencies speed) (now : Int) :
    .timers ∈ clocks.due now ↔ 1 ∈ clocks.reported now := by
  obtain ⟨a, b, c, d, rfl, cpu, timers, display, figures, -⟩ := clocks_of_labels named
  rw [Scheduler.mem_reported, Scheduler.due, List.mem_map]
  constructor
  · rintro ⟨clock, mem, activity⟩
    obtain ⟨place, due⟩ := List.mem_filter.mp mem
    simp only [List.mem_cons, List.not_mem_nil, or_false] at place
    rcases place with rfl | rfl | rfl | rfl
    · cases cpu.symm.trans activity
    · exact ⟨clock, rfl, due⟩
    · cases display.symm.trans activity
    · cases figures.symm.trans activity
  · rintro ⟨clock, place, due⟩
    cases place
    exact ⟨b, List.mem_filter.mpr ⟨by simp, due⟩, timers⟩

theorem firings_requests {e : Emulator} {speed : Number} (kept : e.clocks = Scheduler.after h)
    (named : labels e.clocks = Activity.frequencies speed) (input : Input) (time : Tape Int) :
    Scheduler.firings 1 (e.requests input time ++ h) =
      ((e.beat? input time).toList.filter fun b => .timers ∈ b.due).map Beat.now ++ Scheduler.firings 1 h := by
  have quiet : Scheduler.firings 1 (e.resets input time ++ h) = Scheduler.firings 1 h := by
    unfold resets
    split <;> rfl
  cases here : e.beat? input time with
  | none =>
    simp only [requests, here, Option.toList_none, List.map_nil, List.nil_append, List.filter_nil]
    exact quiet
  | some b =>
    have clocks := clocks_of_beat here kept
    have same := (labels_of_beat here).trans named
    have reports : 1 ∈ (Scheduler.after (e.resets input time ++ h)).reported b.now ↔ .timers ∈ b.due := by
      rw [← clocks, ← timers_due_iff same]
      rfl
    simp only [requests, here, Option.toList_some, List.map_cons, List.map_nil, List.cons_append, List.nil_append,
      Scheduler.firings, quiet]
    by_cases due : .timers ∈ b.due
    · simp [reports.mpr due, due]
    · simp [mt reports.mp due, due]

/-! ## Runs -/

namespace Run

variable {r : Run}

theorem labels_steps (r : Run) (inputs : List Input) :
    labels (r.steps inputs).emulator.clocks = labels r.emulator.clocks := by
  induction inputs generalizing r with
  | nil => rfl
  | cons input rest ih => exact (ih (r.step input)).trans (labels_turn r.emulator input r.time r.random)

theorem keeps_steps (keeps : Keeps r.emulator.clocks r.time h) (inputs : List Input) :
    Keeps (r.steps inputs).emulator.clocks (r.steps inputs).time (r.requests inputs ++ h) := by
  induction inputs generalizing r h with
  | nil => exact keeps
  | cons input rest ih =>
    rw [requests, List.append_assoc]
    exact ih (r := r.step input) (keeps.turn input r.random)

/-- The timers' clock fires on the beats that find the timers due. -/
theorem firings_beats {speed : Number} (keeps : Keeps r.emulator.clocks r.time h)
    (named : labels r.emulator.clocks = Activity.frequencies speed) (inputs : List Input) :
    Scheduler.firings 1 (r.requests inputs ++ h) =
      (((r.beats inputs).filter fun b => .timers ∈ b.due).map Beat.now).reverse ++ Scheduler.firings 1 h := by
  induction inputs generalizing r h with
  | nil => rfl
  | cons input rest ih =>
    have next := keeps.turn input r.random
    have same := (labels_turn r.emulator input r.time r.random).trans named
    rw [requests, List.append_assoc, ih (r := r.step input) next same, firings_requests keeps.clocks named, beats,
      List.filter_append, List.map_append, List.reverse_append, List.append_assoc]
    cases r.emulator.beat? input r.time with
    | none => rfl
    | some b => cases due : decide (.timers ∈ b.due) <;> simp [due]

/-- Beats come in the order of their moments, and none before what is next on the tape. -/
theorem beats_sorted (forward : r.time.Forward) (inputs : List Input) :
    (∀ b ∈ r.beats inputs, r.time.head ≤ b.now) ∧ (r.beats inputs).Pairwise fun a b => a.now ≤ b.now := by
  induction inputs generalizing r with
  | nil => exact ⟨fun b none => absurd none List.not_mem_nil, .nil⟩
  | cons input rest ih =>
    obtain ⟨n, read⟩ : ∃ n, (r.step input).time = r.time.drop n := time_turnOn r.emulator _ input r.time r.random
    obtain ⟨after, sorted⟩ := ih (r := r.step input) (read ▸ forward)
    have ahead : r.time.head ≤ (r.step input).time.head := by
      rw [read]
      exact forward (Nat.le_add_right _ n)
    rw [beats]
    cases here : r.emulator.beat? input r.time with
    | none => exact ⟨fun b mem => ahead.trans (after b mem), sorted⟩
    | some b =>
      obtain ⟨first, last⟩ := moment_of_beat forward here r.random
      refine ⟨List.forall_mem_cons.mpr ⟨first, fun c mem => ahead.trans (after c mem)⟩, ?_⟩
      exact List.pairwise_cons.mpr ⟨fun c mem => last.trans (after c mem), sorted⟩

/-- The first beat is no later than any, and the last one no earlier. -/
theorem beats_within (forward : r.time.Forward) {inputs : List Input} {first last : Beat}
    (head : first ∈ (r.beats inputs).head?) (tail : last ∈ (r.beats inputs).getLast?) :
    ∀ b ∈ r.beats inputs, first.now ≤ b.now ∧ b.now ≤ last.now := by
  have sorted := (beats_sorted forward inputs).2
  have reflexive : Std.Refl fun a b : Beat => a.now ≤ b.now := ⟨fun b => Int.le_refl b.now⟩
  have leads := List.head_of_mem_head? head
  obtain ⟨_, rfl⟩ := List.mem_getLast?_eq_getLast tail
  intro b mem
  exact ⟨leads ▸ sorted.rel_head mem, sorted.rel_getLast mem⟩

end Run

/-- However a run of a new emulator goes on, it keeps the clocks that were registered. -/
theorem keeps_of_started {s : Settings} {e : Emulator} (built : s.build time = .ok (e, later))
    (forward : time.Forward) (random : Tape UInt8) (inputs : List Input) :
    let r := (e.started later random).steps inputs
    (∃ h, Keeps r.emulator.clocks r.time h) ∧ labels r.emulator.clocks = Activity.frequencies s.speed := by
  intro r
  obtain ⟨⟨h, new⟩, registered⟩ := keeps_of_build built forward
  have started : Keeps (e.started later random).emulator.clocks later h := e.boot_pace.clocks ▸ new
  refine ⟨⟨_, Run.keeps_steps started inputs⟩, ?_⟩
  rw [Run.labels_steps, ← registered]
  exact congrArg labels e.boot_pace.clocks

end

end Emulator

end Chip8
