/-
  Chip8.Proofs.Independence — no clock depends on another.

  Take a clock out of a history, with nothing but its own registration and the polls and resets. At every
  poll it is the clock that it was among the others, but for the name of its activity (`clock_alone`). So
  what polls say of it is the same in any two histories with these requests in common (`answers_alone`).

  An emulator registers its clocks in one order and at one speed each, but for the clock of the
  instructions. So two emulators that were built at the same times, whatever they run and however fast, have
  the other clocks in common (`Apart`), and keep them as long as the same is asked of both (`InStep`).
-/
import Chip8.Proofs.Timekeeping

namespace Chip8

namespace Scheduler

variable {α : Type}

/-! ## A clock among others -/

def Request.isTiming : Request α → Bool
  | .add _ _ _ => false
  | .poll _ => true
  | .reset _ => true

def timing (h : List (Request α)) : List (Request α) := h.filter Request.isTiming

/-- Whether polls report the clock at a place, the latest poll first. -/
def answers (k : Nat) : List (Request α) → List Bool
  | .poll now :: past => decide (k ∈ (after past).reported now) :: answers k past
  | _ :: past => answers k past
  | [] => []

section

variable {k : Nat} {c : Clock α} {later past : List (Request α)} {t : Int} {f : Number} {a : α}

theorem after_timing (h : List (Request α)) : after (timing h) = [] := by
  induction h with
  | nil => rfl
  | cons r past ih =>
    cases r with
    | add => exact ih
    | poll now =>
      show (after (timing past)).polled now = []
      rw [ih]
      rfl
    | reset now =>
      show (after (timing past)).rebase now = []
      rw [ih]
      rfl

theorem polls_timing (h : List (Request α)) : polls (timing h) = polls h := by
  induction h with
  | nil => rfl
  | cons r past ih =>
    cases r with
    | add => exact ih
    | poll now => exact congrArg (now :: ·) ih
    | reset => exact ih

theorem length_after_cons (r : Request α) (past : List (Request α)) :
    (after past).length ≤ (after (r :: past)).length := by
  cases r with
  | add now frequency activity =>
    rcases after_add past now frequency activity with ⟨-, same⟩ | ⟨made, -, -, -, grown⟩
    · rw [same]
    · rw [grown, List.length_append]
      omega
  | poll | reset => simp [after, polled, rebase]

/-- Before its registration no poll reports a clock. -/
theorem answers_absent {h : List (Request α)} (absent : (after h).length ≤ k) :
    answers k h = List.replicate (polls h).length false := by
  induction h with
  | nil => rfl
  | cons r past ih =>
    have before := ih ((length_after_cons r past).trans absent)
    cases r with
    | add | reset => exact before
    | poll now =>
      have unreported : k ∉ (after past).reported now := by
        intro reported
        have place := List.mem_range.mp (List.mem_filter.mp reported).1
        have short := (length_after_cons (.poll now) past).trans absent
        omega
      simp only [answers, unreported, decide_false, before, polls, List.length_cons, List.replicate_succ]

theorem after_registration (positive : f.isPositive = true) (t : Int) (a : α) (past : List (Request α)) :
    after (.add t f a :: past) = after past ++ [⟨a, f, Clock.periodOf f, _, rfl, t⟩] := by
  simp only [after, add?, Clock.create?, if_pos positive, Option.map_some, Option.getD_some]

/-- Among others or alone, a clock is the same but for the name of its activity. -/
theorem clock_alone (positive : f.isPositive = true) (later past : List (Request α)) (t : Int) (a b : α) :
    ∃ c : Clock α, (after (later ++ .add t f a :: past))[(after past).length]? = some c ∧
      (after (timing later ++ .add t f b :: timing past))[0]? = some { c with activity := b } := by
  induction later with
  | nil =>
    refine ⟨⟨a, f, Clock.periodOf f, _, rfl, t⟩, ?_, ?_⟩
    · rw [List.nil_append, after_registration positive, List.getElem?_concat_length]
    · show (after (.add t f b :: timing past))[0]? = _
      rw [after_registration positive, after_timing]
      rfl
  | cons r rest ih =>
    obtain ⟨c, among, alone⟩ := ih
    cases r with
    | add now frequency activity =>
      refine ⟨c, ?_, alone⟩
      rcases after_add (rest ++ .add t f a :: past) now frequency activity with ⟨-, same⟩ | ⟨_, -, -, -, grown⟩
      · rw [List.cons_append, same, among]
      · have held := (List.getElem?_eq_some_iff.mp among).1
        rw [List.cons_append, grown, List.getElem?_append_left held, among]
    | poll now =>
      refine ⟨c.polled now, ?_, ?_⟩
      · simp only [List.cons_append, after, polled, List.getElem?_map, among, Option.map_some]
      · show ((after (timing rest ++ .add t f b :: timing past)).map fun c => c.polled now)[0]? = _
        rw [List.getElem?_map, alone, Option.map_some]
        by_cases due : c.isDue now
        · have same : Clock.isDue { c with activity := b } now = true := due
          simp only [Clock.polled, if_pos due, if_pos same, Clock.rebase]
        · have same : ¬Clock.isDue { c with activity := b } now = true := due
          simp only [Clock.polled, if_neg due, if_neg same]
    | reset now =>
      refine ⟨c.rebase now, ?_, ?_⟩
      · simp only [List.cons_append, after, rebase, List.getElem?_map, among, Option.map_some]
      · show ((after (timing rest ++ .add t f b :: timing past)).map fun c => c.rebase now)[0]? = _
        rw [List.getElem?_map, alone, Option.map_some]
        rfl

theorem reported_iff_of_clock {s : Scheduler α} (here : s[k]? = some c) (now : Int) :
    k ∈ s.reported now ↔ c.isDue now = true := by
  rw [mem_reported]
  constructor
  · rintro ⟨d, same, due⟩
    cases here.symm.trans same
    exact due
  · exact fun due => ⟨c, here, due⟩

theorem answers_alone (positive : f.isPositive = true) (later past : List (Request α)) (t : Int) (a b : α) :
    answers (after past).length (later ++ .add t f a :: past) =
      answers 0 (timing later ++ .add t f b :: timing past) := by
  induction later with
  | nil =>
    have before := answers_absent (Nat.le_refl (after past).length)
    have nothing : (after (timing past)).length ≤ 0 := by rw [after_timing]; exact Nat.le_refl 0
    have alone := answers_absent nothing
    rw [polls_timing] at alone
    exact before.trans alone.symm
  | cons r rest ih =>
    cases r with
    | add | reset => exact ih
    | poll now =>
      obtain ⟨c, among, alone⟩ := clock_alone positive rest past t a b
      have same : (after past).length ∈ (after (rest ++ .add t f a :: past)).reported now ↔
          0 ∈ (after (timing rest ++ .add t f b :: timing past)).reported now := by
        rw [reported_iff_of_clock among, reported_iff_of_clock alone]
        rfl
      exact congrArg₂ List.cons (decide_eq_decide.mpr same) ih

/-- Every clock has its registration in the history. -/
theorem registered_of_clock {h : List (Request α)} (here : (after h)[k]? = some c) :
    c.frequency.isPositive = true ∧
      ∃ later t past, h = later ++ .add t c.frequency c.activity :: past ∧ (after past).length = k := by
  induction h generalizing c with
  | nil => cases here
  | cons r rest ih =>
    cases r with
    | add now frequency activity =>
      by_cases positive : frequency.isPositive = true
      · rw [after_registration positive, List.getElem?_append] at here
        split at here
        · obtain ⟨above, later, t, past, rfl, place⟩ := ih here
          exact ⟨above, _ :: later, t, past, rfl, place⟩
        · next behind =>
          rw [List.getElem?_singleton] at here
          split at here <;> cases here
          exact ⟨positive, [], now, rest, rfl, by omega⟩
      · have refused : after (.add now frequency activity :: rest) = after rest := by
          simp only [after, add?, Clock.create?, if_neg positive, Option.map_none, Option.getD_none]
        obtain ⟨above, later, t, past, rfl, place⟩ := ih (refused ▸ here)
        exact ⟨above, _ :: later, t, past, rfl, place⟩
    | poll now =>
      obtain ⟨b, before, rfl⟩ := Option.map_eq_some_iff.mp (List.getElem?_map ▸ here)
      obtain ⟨above, later, t, past, rfl, place⟩ := ih before
      unfold Clock.polled
      split <;> exact ⟨above, _ :: later, t, past, rfl, place⟩
    | reset now =>
      obtain ⟨b, before, rfl⟩ := Option.map_eq_some_iff.mp (List.getElem?_map ▸ here)
      obtain ⟨above, later, t, past, rfl, place⟩ := ih before
      exact ⟨above, _ :: later, t, past, rfl, place⟩

end

end Scheduler

namespace Emulator

/-! ## The clocks of two emulators -/

/-- Are clocks the same but for those of the instructions, which come first? -/
def Apart (s t : Scheduler Activity) : Prop :=
  ∃ c d rest, s = c :: rest ∧ t = d :: rest ∧ c.activity = .cpu ∧ d.activity = .cpu

section

variable {s t : Scheduler Activity}

theorem Apart.polled (apart : Apart s t) (now : Int) : Apart (s.polled now) (t.polled now) := by
  obtain ⟨c, d, rest, rfl, rfl, first, second⟩ := apart
  have named : ∀ c : Clock Activity, (c.polled now).activity = c.activity := by
    intro c
    unfold Clock.polled
    split <;> rfl
  exact ⟨c.polled now, d.polled now, _, rfl, rfl, (named c).trans first, (named d).trans second⟩

theorem Apart.rebase (apart : Apart s t) (now : Int) : Apart (s.rebase now) (t.rebase now) := by
  obtain ⟨c, d, rest, rfl, rfl, first, second⟩ := apart
  exact ⟨c.rebase now, d.rebase now, _, rfl, rfl, first, second⟩

theorem mem_due_cons {c : Clock Activity} {rest : Scheduler Activity} {activity : Activity}
    (other : activity ≠ c.activity) (now : Int) :
    activity ∈ Scheduler.due (c :: rest) now ↔ activity ∈ Scheduler.due rest now := by
  unfold Scheduler.due
  rw [List.filter_cons]
  split
  · rw [List.map_cons, List.mem_cons]
    simp only [other, false_or]
  · rfl

theorem Apart.due_iff (apart : Apart s t) {activity : Activity} (other : activity ≠ .cpu) (now : Int) :
    activity ∈ t.due now ↔ activity ∈ s.due now := by
  obtain ⟨c, d, rest, rfl, rfl, first, second⟩ := apart
  rw [mem_due_cons (second ▸ other), mem_due_cons (first ▸ other)]

theorem Apart.register (apart : Apart s t) {frequencies : List (Number × Activity)} {time later after : Tape Int}
    {made other : Scheduler Activity} (first : register s time frequencies = .ok (made, later))
    (second : register t time frequencies = .ok (other, after)) : Apart made other ∧ after = later := by
  induction frequencies generalizing s t time with
  | nil =>
    cases first
    cases second
    exact ⟨apart, rfl⟩
  | cons p rest ih =>
    obtain ⟨made, created, -, first⟩ := register_cons first
    obtain ⟨again, same, -, second⟩ := register_cons second
    cases created.symm.trans same
    refine ih ?_ first second
    obtain ⟨c, d, clocks, rfl, rfl, named⟩ := apart
    exact ⟨c, d, clocks ++ [made], rfl, rfl, named⟩

end

/-- Emulators that are built at the same times share all clocks but that of the instructions. -/
theorem apart_of_build {s t : Settings} {e f : Emulator} {time later after : Tape Int}
    (first : s.build time = .ok (e, later)) (second : t.build time = .ok (f, after)) :
    Apart e.clocks f.clocks ∧ after = later := by
  obtain ⟨c, -, first, one⟩ := register_cons (register_of_build first).2
  obtain ⟨d, -, second, two⟩ := register_cons (register_of_build second).2
  exact Apart.register ⟨c, d, [], rfl, rfl, congrArg Prod.snd first, congrArg Prod.snd second⟩ one two

/-- Do two emulators share the pause and all clocks but that of the instructions? -/
structure InStep (e f : Emulator) : Prop where
  paused : f.paused = e.paused
  clocks : Apart e.clocks f.clocks

def Turn.Boots (t : Turn) : Prop := t.halt.all fun halt => match halt with
  | .boot _ => false
  | _ => true

instance (t : Turn) : Decidable t.Boots := inferInstanceAs (Decidable (_ = true))

/-- Are two beats at one moment, and do they find the same due, but for an instruction? -/
structure Beat.Agrees (b c : Beat) : Prop where
  now : c.now = b.now
  due : ∀ activity, activity ≠ .cpu → (activity ∈ c.due ↔ activity ∈ b.due)

section

variable {e f : Emulator}

theorem InStep.samePace {g h : Emulator} (pace : InStep e f) (first : SamePace e g) (second : SamePace f h) :
    InStep g h := by
  refine ⟨?_, ?_⟩
  · rw [second.paused, pace.paused, first.paused]
  · rw [second.clocks, first.clocks]
    exact pace.clocks

theorem InStep.respond (pace : InStep e f) (time : Tape Int) (event : Option HostEvent) :
    InStep (e.respond time event).1 (f.respond time event).1 ∧
      (f.respond time event).2.1 = (e.respond time event).2.1 := by
  by_cases resumes : event = some .pause ∧ e.paused = true
  · have too : event = some .pause ∧ f.paused = true := ⟨resumes.1, pace.paused.trans resumes.2⟩
    rw [respond_of_resume resumes, respond_of_resume too]
    exact ⟨⟨rfl, pace.clocks.rebase time.head⟩, rfl⟩
  · have neither : ¬(event = some .pause ∧ f.paused = true) := by
      rw [pace.paused]
      exact resumes
    obtain ⟨first, unread⟩ := respond_of_noResume time resumes
    obtain ⟨second, left⟩ := respond_of_noResume time neither
    refine ⟨⟨?_, ?_⟩, left.trans unread.symm⟩
    · rw [paused_respond, paused_respond, pace.paused]
    · rw [first, second]
      exact pace.clocks

theorem not_boots {t : Turn} {fault : Fault} (failed : t.halt = some (.boot fault)) : ¬t.Boots := by
  simp [Turn.Boots, failed]

/-- The same answer to the user and a beat at the same moment keep two emulators in step. -/
theorem InStep.turn (pace : InStep e f) {input other : Input} (event : other.event = input.event) (time : Tape Int)
    (random bytes : Tape UInt8) (boots : (e.turn input time random).Boots)
    (too : (f.turn other time bytes).Boots) :
    InStep (e.turn input time random).emulator (f.turn other time bytes).emulator ∧
      (f.turn other time bytes).time = (e.turn input time random).time ∧
      List.Forall₂ Beat.Agrees (e.beat? input time).toList (f.beat? other time).toList := by
  cases first : e.beat? input time with
  | none =>
    rcases turn_of_noBeat first random with ⟨quits, same⟩ | ⟨fault, _, failed, _⟩
    · have also : other.event = some .quit := event.trans quits
      have second : f.beat? other time = none := if_pos also
      have left : f.turn other time bytes = ⟨f, time, bytes, [.poll], none, none, true⟩ := if_pos also
      rw [same, left, second]
      exact ⟨pace, rfl, .nil⟩
    · exact absurd boots (not_boots failed)
  | some b =>
    obtain ⟨stays, _, _, answer, now⟩ := respond_of_beat first
    cases second : f.beat? other time with
    | none =>
      rcases turn_of_noBeat second bytes with ⟨quits, _⟩ | ⟨fault, _, failed, _⟩
      · exact absurd (event.symm.trans quits) stays
      · exact absurd too (not_boots failed)
    | some c =>
      obtain ⟨_, _, _, reply, moment⟩ := respond_of_beat second
      obtain ⟨answered, read⟩ := pace.respond time input.event
      have times : (f.turn other time bytes).time = (e.turn input time random).time := by
        rw [time_of_beat first, time_of_beat second, event, read]
      rw [← event, reply, event, answer] at answered read
      have same : c.now = b.now := by rw [← moment, ← now]; exact congrArg Tape.head read
      have polled : InStep { b.emulator with clocks := b.emulator.clocks.polled b.now }
          { c.emulator with clocks := c.emulator.clocks.polled c.now } :=
        ⟨answered.paused, same ▸ answered.clocks.polled b.now⟩
      refine ⟨polled.samePace (pace_of_beat first random) (pace_of_beat second bytes), times, .cons ⟨same, ?_⟩ .nil⟩
      intro activity notCpu
      show activity ∈ c.emulator.clocks.due c.now ↔ activity ∈ b.emulator.clocks.due b.now
      rw [same]
      exact answered.clocks.due_iff notCpu b.now

theorem InStep.beats {r q : Run} (pace : InStep r.emulator q.emulator) (time : q.time = r.time)
    {inputs others : List Input} (events : List.Forall₂ (fun input other => other.event = input.event) inputs others)
    (boots : ∀ turn ∈ r.turns inputs, turn.Boots) (too : ∀ turn ∈ q.turns others, turn.Boots) :
    List.Forall₂ Beat.Agrees (r.beats inputs) (q.beats others) := by
  induction events generalizing r q with
  | nil => exact .nil
  | cons event _ ih =>
    obtain ⟨fine, others⟩ := List.forall_mem_cons.mp boots
    obtain ⟨good, rest⟩ := List.forall_mem_cons.mp too
    rw [time] at good
    obtain ⟨next, read, agree⟩ := pace.turn event r.time r.random q.random fine good
    rw [Run.beats, Run.beats, time]
    refine List.rel_append agree (ih ?_ ?_ others rest)
    · show InStep _ (q.emulator.turn _ q.time q.random).emulator
      rw [time]
      exact next
    · show (q.emulator.turn _ q.time q.random).time = _
      rw [time]
      exact read

end

/-- Every clock of a history has its registration in it, and which polls report the clock is settled by its
    frequency and the polls and resets around its registration. Any history that has these in common gives
    the same answers, whatever other clocks it registers, and whenever. So two emulators that are built at the
    same times and asked the same by their users find the same due at the same moments, but for an instruction,
    whatever they run, how fast, and with which keys and random bytes. -/
theorem clocks_ignore_each_other :
    (∀ {α : Type} (h : List (Scheduler.Request α)) k c, (Scheduler.after h)[k]? = some c →
      ∃ (later past : List (Scheduler.Request α)) (t : Int), h = later ++ .add t c.frequency c.activity :: past ∧
        (Scheduler.after past).length = k ∧ c.frequency.isPositive = true) ∧
    (∀ {α : Type} (f : Number) t (later past other before : List (Scheduler.Request α)) a b, f.isPositive = true →
      Scheduler.timing other = Scheduler.timing later → Scheduler.timing before = Scheduler.timing past →
      Scheduler.answers (Scheduler.after before).length (other ++ .add t f b :: before) =
        Scheduler.answers (Scheduler.after past).length (later ++ .add t f a :: past)) ∧
    ∀ (s t : Settings) e f time later after, s.build time = .ok (e, later) → t.build time = .ok (f, after) →
      ∀ inputs others random bytes, List.Forall₂ (fun input other => other.event = input.event) inputs others →
        let r := e.started later random
        let q := f.started after bytes
        (∀ turn ∈ r.turns inputs, turn.Boots) → (∀ turn ∈ q.turns others, turn.Boots) →
        List.Forall₂ Beat.Agrees (r.beats inputs) (q.beats others) := by
  refine ⟨?_, ?_, ?_⟩
  · intro α h k c here
    obtain ⟨positive, later, t, past, split, place⟩ := Scheduler.registered_of_clock here
    exact ⟨later, past, t, split, place, positive⟩
  · intro α f t later past other before a b positive after before
    rw [Scheduler.answers_alone positive other _ t b b, Scheduler.answers_alone positive later past t a b, after, before]
  · intro s t e f time later after first second inputs others random bytes events r q boots too
    obtain ⟨apart, same⟩ := apart_of_build first second
    obtain ⟨_, new⟩ := eq_fresh_of_build first
    obtain ⟨_, other⟩ := eq_fresh_of_build second
    have running : f.paused = e.paused := by rw [new, other]; rfl
    have pace : InStep r.emulator q.emulator := InStep.samePace ⟨running, apart⟩ e.boot_pace f.boot_pace
    exact pace.beats same events boots too

/-- A clock among two others and alone; and a program that runs on and one that fails at once, at different
    speeds, through a pause. -/
theorem clocks_ignore_each_other_after_a_crash :
    let among : List (Scheduler.Request Nat) := [.poll 40000, .add 30000 (.whole 7) 2, .reset 20000, .poll 18000,
      .add 0 (.whole 60) 1, .poll 0, .add 0 (.whole 500) 0]
    let alone : List (Scheduler.Request Nat) := [.poll 40000, .reset 20000, .poll 18000, .add 0 (.whole 60) 1, .poll 0]
    let s : Settings := ⟨{}, true, false, [0x12, 0x00], .whole 1000, .never⟩
    let t : Settings := ⟨{}, false, false, [], .whole 90, .never⟩
    let time : Tape Int := .ofFn fun k => 9000 * k
    let random : Tape UInt8 := .ofFn fun _ => 0
    let asked (keys : Keys) : List Input := [⟨keys, none⟩, ⟨keys, some .pause⟩, ⟨keys, some .pause⟩, ⟨keys, none⟩]
    Scheduler.answers 0 alone = [true, true, false] ∧ Scheduler.answers 1 among = [true, true, false] ∧
    ∃ e f later after, s.build time = .ok (e, later) ∧ t.build time = .ok (f, after) ∧
      ((f.started after random).turns (asked (.ofList [3]))).map (·.halt.isSome) = [true, false, false, true] ∧
      ((e.started later random).beats (asked .none)).map (fun b => decide (.timers ∈ b.due)) =
        [true, false, false, true] ∧
      List.Forall₂ Beat.Agrees ((e.started later random).beats (asked .none))
        ((f.started after random).beats (asked (.ofList [3]))) := by
  intro among alone s t time random asked
  obtain ⟨-, clocks, emulators⟩ := clocks_ignore_each_other
  have answered : Scheduler.answers 0 alone = [true, true, false] := by decide +kernel
  have unmoved : Scheduler.answers 1 among = Scheduler.answers 0 alone :=
    clocks (.whole 60) 0 [.poll 40000, .reset 20000, .poll 18000] [.poll 0]
      [.poll 40000, .add 30000 (.whole 7) 2, .reset 20000, .poll 18000] [.poll 0, .add 0 (.whole 500) 0] 1 1 rfl rfl rfl
  have first : s.build time = .ok (fresh s _, _) := rfl
  have second : t.build time = .ok (fresh t _, _) := rfl
  have events : List.Forall₂ (fun input other => other.event = input.event) (asked .none) (asked (.ofList [3])) :=
    .cons rfl (.cons rfl (.cons rfl (.cons rfl .nil)))
  have law := emulators s t _ _ time _ _ first second _ _ random random events
  refine ⟨answered, unmoved.trans answered, ?_⟩
  -- one evaluation of both runs
  suffices ran : _ ∧ _ ∧ (∀ turn ∈ _, Turn.Boots turn) ∧ ∀ turn ∈ _, Turn.Boots turn by
    obtain ⟨halts, due, boots, too⟩ := ran
    exact ⟨_, _, _, _, first, second, halts, due, law boots too⟩
  decide +kernel

end Emulator

end Chip8
