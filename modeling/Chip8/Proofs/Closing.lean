/-
  Chip8.Proofs.Closing — a session that returns has closed what it opened.

  The log of a session that returns is a `course`: some parts are opened, perhaps one more is begun, the emulator
  makes its calls, the open parts are closed, and perhaps the user is told (`log_of_exit`). Calls are made with
  all parts open or not at all. So the parts are closed once each, the latest first, nothing is asked of a part
  that is closed, and the user is told last (`orderly_course`). A mixer is stopped and given back at the end, and
  at no other time (`sounds_of_course`).
-/
import Chip8.Proofs.Preparing
import Mathlib.Data.List.Infix
import Mathlib.Data.List.Nodup
import Mathlib.Data.List.Pairwise

namespace Chip8

/-! ## Buzzers -/

namespace Buzzer

/-- A new buzzer is of the kind that was asked for, and the device is not given back. -/
theorem kind_standard (kind : BuzzerKind) : (standard kind).1.kind = kind ∧ .quit ∉ (standard kind).2 := by
  cases kind with
  | mixer => exact ⟨rfl, by simp [standard, prepared]⟩
  | silent | bell => exact ⟨rfl, List.not_mem_nil⟩

theorem quit_not_mem_enable (b : Buzzer) (on : Bool) : .quit ∉ (b.enable on).2 := by
  unfold enable
  repeat' split
  all_goals simp

end Buzzer

namespace Session

/-! ## Deeds and parts -/

def partOf : HostCall → Part
  | .poll => .keypad
  | .display _ => .display
  | .buzzer _ => .buzzer

namespace Deed

def part? : Deed → Option Part
  | began part | opened part | closed part => some part
  | called call => some (partOf call)
  | told _ => none

def opened? : Deed → Option Part
  | opened part => some part
  | _ => none

def closed? : Deed → Option Part
  | closed part => some part
  | _ => none

end Deed

/-- Are the parts closed as they should be? Each part that was opened is closed once, the latest first. From
    then on there is no deed that is about it, and a word to the user is the last deed. -/
structure Orderly (log : List Deed) : Prop where
  opened : log.filterMap Deed.opened? <+: allParts
  closed : log.filterMap Deed.closed? = (log.filterMap Deed.opened?).reverse
  finished : log.Pairwise fun earlier later => ∀ part, earlier = .closed part → later.part? ≠ some part
  told : log.Pairwise fun earlier _ => ∀ text, earlier ≠ .told text

/-- The buzzer is the last part to be opened. -/
theorem all_of_buzzer {parts : List Part} (first : parts <+: allParts) (buzzer : .buzzer ∈ parts) :
    parts = allParts := by
  have some : parts ∈ allParts.inits := (List.mem_inits _ _).mpr first
  simp only [allParts, List.inits, List.map_cons, List.map_nil, List.mem_cons, List.not_mem_nil, or_false] at some
  obtain rfl | rfl | rfl | rfl := some
  · cases buzzer
  · exact absurd buzzer (by decide)
  · exact absurd buzzer (by decide)
  · rfl

/-! ## Courses -/

def doings (parts : List Part) (failed : Option Part) (calls : List HostCall) : List Deed :=
  parts.flatMap opening ++ failed.toList.map .began ++ calls.map .called

/-- The log of a session that closes its parts and has something to tell perhaps. -/
def course (parts : List Part) (failed : Option Part) (calls : List HostCall) (word : Option String) : List Deed :=
  doings parts failed calls ++ (closing parts ++ word.toList.map .told)

section

variable {parts : List Part} {failed : Option Part} {calls : List HostCall} {word : Option String}

/-- Before a part is closed none is closed, and the user is not told. -/
theorem mem_doings {deed : Deed} (mem : deed ∈ doings parts failed calls) :
    deed.closed? = none ∧ ∀ text, deed ≠ .told text := by
  simp only [doings, List.mem_append, List.mem_flatMap, List.mem_map, opening, List.mem_cons, List.not_mem_nil,
    or_false] at mem
  obtain (⟨_, _, rfl | rfl⟩ | ⟨_, _, rfl⟩) | ⟨_, _, rfl⟩ := mem <;>
    exact ⟨rfl, fun _ same => by cases same⟩

theorem opened_course : (course parts failed calls word).filterMap Deed.opened? = parts := by
  have opened : (parts.flatMap opening).filterMap Deed.opened? = parts := by
    induction parts with
    | nil => rfl
    | cons part rest ih =>
      rw [List.flatMap_cons, List.filterMap_append, ih]
      rfl
  have others {α : Type} (deed : α → Deed) (silent : ∀ a, (deed a).opened? = none) (l : List α) :
      (l.map deed).filterMap Deed.opened? = [] := by
    simp [List.filterMap_map, silent]
  simp only [course, doings, closing, List.filterMap_append, opened, others Deed.began (fun _ => rfl),
    others Deed.called (fun _ => rfl), others Deed.closed (fun _ => rfl), others Deed.told (fun _ => rfl),
    List.append_nil]

theorem closed_course : (course parts failed calls word).filterMap Deed.closed? = parts.reverse := by
  have before : (doings parts failed calls).filterMap Deed.closed? = [] :=
    List.filterMap_eq_nil_iff.mpr fun _ mem => (mem_doings mem).1
  have told : (word.toList.map Deed.told).filterMap Deed.closed? = [] := by
    cases word <;> rfl
  have closed : (closing parts).filterMap Deed.closed? = parts.reverse := by
    simp [closing, List.filterMap_map, Function.comp_def, Deed.closed?]
  rw [course, List.filterMap_append, List.filterMap_append, before, told, closed, List.append_nil, List.nil_append]

theorem orderly_course (first : parts <+: allParts) : Orderly (course parts failed calls word) where
  opened := by
    rw [opened_course]
    exact first
  closed := by rw [closed_course, opened_course]
  finished := by
    have distinct : parts.Nodup := first.sublist.nodup (by decide)
    have unclosed : ∀ deed ∈ doings parts failed calls, ∀ part, deed ≠ .closed part := by
      rintro deed mem part rfl
      cases (mem_doings mem).1
    refine List.pairwise_append.mpr ⟨?_, List.pairwise_append.mpr ⟨?_, ?_, ?_⟩, ?_⟩
    · exact List.pairwise_of_forall_mem_list fun one mem _ _ part same => absurd same (unclosed one mem part)
    · rw [closing, List.pairwise_map]
      refine (List.nodup_reverse.mpr distinct).imp ?_
      rintro one other differ part ⟨⟩ same
      exact differ (Option.some.inj same).symm
    · cases word <;> simp
    · intro one mem other later part same
      obtain ⟨text, -, rfl⟩ := List.mem_map.mp later
      simp [Deed.part?]
    · exact fun one mem _ _ part same => absurd same (unclosed one mem part)
  told := by
    have untold : ∀ deed ∈ doings parts failed calls ++ closing parts, ∀ text, deed ≠ .told text := by
      intro deed mem
      rcases List.mem_append.mp mem with before | closed
      · exact (mem_doings before).2
      · obtain ⟨part, -, rfl⟩ := List.mem_map.mp closed
        intro text same
        cases same
    rw [course, ← List.append_assoc]
    refine List.pairwise_append.mpr ⟨?_, ?_, fun one mem _ _ => untold one mem⟩
    · exact List.pairwise_of_forall_mem_list fun one mem _ _ => untold one mem
    · cases word <;> simp

end

/-! ## Reports -/

/-- The log of a report that a session in trouble makes when it returns. -/
theorem log_of_troubled {choice : Option (Frontend × BuzzerKind)} {log : List Deed} {opened : List Part}
    {lines : List String} {trouble : Trouble} {status : Nat}
    (returned : (Report.troubled choice log opened lines trouble).ending = .exit status) :
    ∃ text, (Report.troubled choice log opened lines trouble).log = log ++ closing opened ++ [.told text] := by
  cases trouble with
  | refused text => exact ⟨text, rfl⟩
  | escaped cause => cases returned

def greetings : List HostCall := (Screen.greeting Layout.screenWidth Layout.screenHeight).map .display

theorem openings_eq : openings = doings allParts none greetings := rfl

theorem Ready.log_of_exit {ready : Ready} (log : ready.log = openings) {run : Emulator.Run} {outcome : Emulator.Outcome}
    {status : Nat} (returned : (ready.report run outcome).ending = .exit status) :
    ∃ word, (ready.report run outcome).log = course allParts none (greetings ++ run.calls.toList) word := by
  have before : openings ++ run.calls.toList.map .called = doings allParts none (greetings ++ run.calls.toList) := by
    rw [openings_eq, doings, doings, List.map_append, ← List.append_assoc]
  cases outcome with
  | unfinished => cases returned
  | finished =>
    refine ⟨none, ?_⟩
    simp only [report, log, before, course, Option.toList_none, List.map_nil, List.append_nil]
  | halted halt =>
    obtain ⟨text, same⟩ := log_of_troubled returned
    refine ⟨some text, ?_⟩
    simp only [report] at same ⊢
    rw [same, log, before, course, List.append_assoc, List.append_assoc]
    rfl

/-- A session that returns has gone through a course, and made calls only with all its parts open. -/
theorem log_of_exit {w : World} {s : Entry → Setting} {fuel status : Nat}
    (returned : (run fuel w (.ofEntries s)).ending = .exit status) :
    ∃ parts failed calls word, (run fuel w (.ofEntries s)).log = course parts failed calls word ∧
      parts <+: allParts ∧ (parts = allParts ∨ calls = []) := by
  unfold run at returned ⊢
  have ways := prepared w s
  generalize prepare w (.ofEntries s) = result at ways returned ⊢
  -- trouble that is put to the user closes what is open and then tells
  cases ways with
  | unplanned trouble =>
    obtain ⟨text, same⟩ := log_of_troubled returned
    exact ⟨[], none, [], some text, same, List.nil_prefix, .inr rfl⟩
  | noDisplay choice trouble =>
    obtain ⟨text, same⟩ := log_of_troubled returned
    exact ⟨[], some .display, [], some text, same, List.nil_prefix, .inr rfl⟩
  | noKeypad choice trouble =>
    obtain ⟨text, same⟩ := log_of_troubled returned
    exact ⟨[.display], some .keypad, [], some text, same, ⟨_, rfl⟩, .inr rfl⟩
  | noScreen choice told e => cases returned
  | noEmulator choice trouble =>
    obtain ⟨text, same⟩ := log_of_troubled returned
    exact ⟨allParts, none, greetings, some text, same, List.prefix_rfl, .inl rfl⟩
  | ready log =>
    obtain ⟨word, same⟩ := Ready.log_of_exit log returned
    exact ⟨allParts, none, _, word, same, List.prefix_rfl, .inl rfl⟩

/-! ## The sound device -/

namespace Report.Sounding

/-- Up to the closing of the buzzer its kind stays, and the device is not given back. -/
theorem after_open {s : Sounding} {deed : Deed} (unclosed : deed.closed? = none) (kept : .quit ∉ s.calls.toList) :
    (s.after deed).buzzer.kind = s.buzzer.kind ∧ .quit ∉ (s.after deed).calls.toList := by
  have more {calls : List SoundCall} (none : .quit ∉ calls) : .quit ∉ (s.calls ++ calls).toList := by
    rw [Array.toList_appendList]
    exact fun mem => (List.mem_append.mp mem).elim kept none
  cases deed with
  | closed part => cases unclosed
  | began | told => exact ⟨rfl, kept⟩
  | called call =>
    cases call with
    | poll | display => exact ⟨rfl, kept⟩
    | buzzer on => exact ⟨rfl, more (Buzzer.quit_not_mem_enable s.buzzer on)⟩
  | opened part =>
    cases part with
    | display | keypad => exact ⟨rfl, kept⟩
    | buzzer =>
      obtain ⟨kind, none⟩ := Buzzer.kind_standard s.buzzer.kind
      exact ⟨kind, more none⟩

theorem foldl_open {log : List Deed} (unclosed : ∀ deed ∈ log, deed.closed? = none) {s : Sounding}
    (kept : .quit ∉ s.calls.toList) :
    (log.foldl after s).buzzer.kind = s.buzzer.kind ∧ .quit ∉ (log.foldl after s).calls.toList := by
  induction log generalizing s with
  | nil => exact ⟨rfl, kept⟩
  | cons deed rest ih =>
    obtain ⟨first, others⟩ := List.forall_mem_cons.mp unclosed
    obtain ⟨kind, still⟩ := after_open first kept
    obtain ⟨later, none⟩ := ih others still
    exact ⟨later.trans kind, none⟩

/-- A buzzer that is not open makes no calls. -/
theorem foldl_silent {log : List Deed} {s : Sounding}
    (silent : ∀ deed ∈ log, deed ≠ .opened .buzzer ∧ deed ≠ .closed .buzzer ∧ ∀ call, deed ≠ .called call) :
    log.foldl after s = s := by
  induction log with
  | nil => rfl
  | cons deed rest ih =>
    obtain ⟨⟨unopened, unclosed, uncalled⟩, others⟩ := List.forall_mem_cons.mp silent
    have same : s.after deed = s := by
      unfold after
      split
      · exact absurd rfl unopened
      · exact absurd rfl (uncalled _)
      · exact absurd rfl unclosed
      · rfl
    rw [List.foldl_cons, same, ih others]

end Report.Sounding

section

variable {report : Report} {parts : List Part} {failed : Option Part} {calls : List HostCall} {word : Option String}

theorem opened_mem_course {part : Part} : .opened part ∈ course parts failed calls word ↔ part ∈ parts := by
  constructor
  · intro mem
    have opened : part ∈ (course parts failed calls word).filterMap Deed.opened? :=
      List.mem_filterMap.mpr ⟨_, mem, rfl⟩
    rwa [opened_course] at opened
  · intro mem
    have opened : part ∈ (course parts failed calls word).filterMap Deed.opened? := by rwa [opened_course]
    obtain ⟨deed, done, same⟩ := List.mem_filterMap.mp opened
    cases deed <;> cases same
    exact done

/-- The last that a mixer is told is to stop and to go. -/
theorem sounds_of_course (log : report.log = course allParts failed calls word) {frontend : Frontend}
    (mixer : report.choice = some (frontend, .mixer)) :
    ∃ before, report.sounds = before ++ [.stop, .quit] ∧ .quit ∉ before := by
  have unclosed : ∀ deed ∈ doings allParts failed calls, deed.closed? = none := fun _ mem => (mem_doings mem).1
  obtain ⟨kind, none⟩ := Report.Sounding.foldl_open unclosed (s := ⟨⟨.mixer, false⟩, #[]⟩) (by simp)
  refine ⟨_, ?_, none⟩
  have ends (s : Report.Sounding) : (closing allParts ++ word.toList.map Deed.told).foldl Report.Sounding.after s =
      ⟨s.buzzer, s.calls ++ s.buzzer.shutdown⟩ := by
    cases word <;> rfl
  simp only [Report.sounds, mixer, log, course]
  rw [List.foldl_append, ends, Array.toList_appendList, Buzzer.shutdown, kind]

theorem sounds_of_unopened (log : report.log = course parts failed [] word) (unopened : .buzzer ∉ parts) :
    report.sounds = [] := by
  have silent : ∀ deed ∈ course parts failed [] word,
      deed ≠ .opened .buzzer ∧ deed ≠ .closed .buzzer ∧ ∀ call, deed ≠ .called call := by
    intro deed mem
    refine ⟨?_, ?_, ?_⟩
    · rintro rfl
      exact unopened (opened_mem_course.mp mem)
    · rintro rfl
      have closed : Part.buzzer ∈ (course parts failed [] word).filterMap Deed.closed? :=
        List.mem_filterMap.mpr ⟨_, mem, rfl⟩
      rw [closed_course, List.mem_reverse] at closed
      exact unopened closed
    · rintro call rfl
      simp [course, doings, opening, closing] at mem
  unfold Report.sounds
  split
  · rw [log, Report.Sounding.foldl_silent silent]
  · rfl

end

/-- A session that is handed all its settings and returns has closed each part that it opened, once, the latest
    first. From then on it asks nothing of that part, and a word to the user comes after all else. A mixer that
    was opened is stopped and given back at the end, and not before. -/
theorem parts_closed_once (w : World) (s : Entry → Setting) (fuel status : Nat)
    (returned : (run fuel w (.ofEntries s)).ending = .exit status) :
    let report := run fuel w (.ofEntries s)
    Orderly report.log ∧
    (.opened .buzzer ∈ report.log → ∀ frontend, report.choice = some (frontend, .mixer) →
      ∃ calls, report.sounds = calls ++ [.stop, .quit] ∧ .quit ∉ calls) ∧
    (.opened .buzzer ∉ report.log → report.sounds = []) := by
  intro report
  obtain ⟨parts, failed, calls, word, log, first, asked⟩ := log_of_exit returned
  have opened : .opened .buzzer ∈ report.log ↔ .buzzer ∈ parts := by rw [log, opened_mem_course]
  refine ⟨?_, ?_, ?_⟩
  · rw [log]
    exact orderly_course first
  · intro mem frontend mixer
    obtain rfl : parts = allParts := all_of_buzzer first (opened.mp mem)
    exact sounds_of_course log mixer
  · intro absent
    have unopened : .buzzer ∉ parts := fun mem => absent (opened.mpr mem)
    obtain rfl | rfl := asked
    · exact absurd (by decide) unopened
    · exact sounds_of_unopened log unopened

/-- The user closes the window at once. -/
theorem parts_closed_once_with_the_window :
    let w : World :=
      { World.idle (fun _ => .ok []) ⟨true, false⟩ with
        signals := [⟨[.close], [], .infinite false, .infinite false⟩] }
    let report := run 1 w (.ofEntries (standard "empty.ch8"))
    report.ending = .exit 0 ∧ Orderly report.log ∧
      ∃ calls, report.sounds = calls ++ [.stop, .quit] ∧ .quit ∉ calls := by
  intro w report
  have facts : report.ending = .exit 0 ∧ report.choice = some (.window, .mixer) ∧ .opened .buzzer ∈ report.log := by
    decide +kernel
  obtain ⟨returned, mixer, opened⟩ := facts
  obtain ⟨orderly, sounds, -⟩ := parts_closed_once w (standard "empty.ch8") 1 0 returned
  exact ⟨returned, orderly, sounds opened .window mixer⟩

end Session

end Chip8
