/-
  Chip8.Proofs.Entries — every entry is asked for, and a session that is handed all of them misses none.

  A session that gets ready has read every entry: without any one of them it would have broken off
  (`misses_without`). What keeps a session with all entries from going on is therefore never that one is missing,
  and whatever the user is told begins otherwise than what is said of a clock (`Otherwise`), as long as the clock
  speed is no number that makes none. This is shown for each stage of a session, and then for all that it comes
  to (`run_apart`).
-/
import Chip8.Proofs.Preparing

namespace Chip8.Session

/-! ## Leaving an entry out -/

def Arguments.without (a : Arguments) : Entry → Arguments
  | .filename => { a with filename := none }
  | .clockSpeed => { a with clockSpeed := none }
  | .renderer => { a with renderer := none }
  | .scale => { a with scale := none }
  | .mute => { a with mute := none }
  | .keymap => { a with keymap := none }
  | .cursorMode => { a with cursorMode := none }
  | .palette => { a with palette := none }
  | .shift => { a with shift := none }
  | .load => { a with load := none }
  | .logic => { a with logic := none }
  | .wrap => { a with wrap := none }
  | .maxCycles => { a with maxCycles := none }
  | .debug => { a with debug := none }

section

variable {w : World} {s : Entry → Setting} {ready : Ready} {plan : Plan}

/-- What is ready has passed the stages before it. -/
theorem stages_of_ready (prepared : prepare w (.ofEntries s) = .ok ready) :
    ∃ plan display keypad told, (Arguments.ofEntries s).plan w = .ok plan ∧
      openDisplay w.host plan.frontend (look s) = .ok display ∧ keypadOf s plan.frontend = .ok keypad ∧
      greeted w plan display = .ok told := by
  rcases planned : (Arguments.ofEntries s).plan w with trouble | plan
  · rw [prepare_ofEntries, planned] at prepared
    cases prepared
  · rcases shown : openDisplay w.host plan.frontend (look s) with trouble | display
    · rw [prepare_of_noDisplay planned shown] at prepared
      cases prepared
    · rcases made : keypadOf s plan.frontend with trouble | keypad
      · rw [prepare_of_noKeypad planned shown made] at prepared
        cases prepared
      · rcases done : greeted w plan display with refusal | told
        · rw [prepare_of_open planned shown made, assemble, done] at prepared
          cases prepared
        · exact ⟨plan, display, keypad, told, rfl, shown, made, done⟩

theorem program_of_plan (planned : (Arguments.ofEntries s).plan w = .ok plan) :
    ∃ rom, (Arguments.ofEntries s).program w = .ok rom := by
  rcases loaded : (Arguments.ofEntries s).program w with trouble | rom
  · have failed : (Arguments.ofEntries s).plan w = .error trouble := by
      simp only [Arguments.plan, loaded]
      rfl
    cases failed.symm.trans planned
  · exact ⟨rom, rfl⟩

/-! ## Missing an entry -/

/-- Does a session break off because an entry is missing, before it gets ready? -/
def Misses (w : World) (a : Arguments) : Prop :=
  ∃ report, prepare w a = .error report ∧ report.ending = .escaped .missingEntry

section

variable {a : Arguments} {appearance : Appearance}

theorem prepare_of_noPlan {trouble : Trouble} (failed : a.plan w = .error trouble) :
    prepare w a = .error (.troubled none [] [] banner trouble) := by
  rw [prepare, failed]
  rfl

theorem misses_of_plan (missing : a.plan w = .error (.escaped .missingEntry)) : Misses w a :=
  ⟨_, prepare_of_noPlan missing, rfl⟩

variable (planned : a.plan w = .ok plan)
include planned

theorem misses_of_appearance (missing : a.appearance = .error (.escaped .missingEntry)) : Misses w a :=
  ⟨_, by rw [prepare, planned, missing]; rfl, rfl⟩

variable {display : Display} (seen : a.appearance = .ok appearance)
  (shown : openDisplay w.host plan.frontend appearance = .ok display)
include seen shown

theorem misses_of_keymap (missing : openKeypad a plan.frontend = .error (.escaped .missingEntry)) : Misses w a :=
  ⟨_, by simp only [prepare, planned, seen, mapError_ok, bind, Except.bind, shown, missing]; rfl, rfl⟩

/-- The last entries are read one after another, and all but the first once the display is told of the screen. -/
theorem misses_of_rest {keypad : Keypad} {told : Display × List Deed}
    (made : openKeypad a plan.frontend = .ok keypad) (done : greeted w plan display = .ok told)
    (missing : a.wrap = none ∨ a.debug = none ∨ a.clockSpeed = none ∨ a.maxCycles = none) : Misses w a := by
  have greets : greet w (fun log => .troubled (some (plan.frontend, plan.buzzer)) log allParts banner)
      (Screen.greeting Layout.screenWidth Layout.screenHeight)
      (display, opening .display ++ opening .keypad ++ opening .buzzer) = .ok told := done
  simp only [Misses, prepare, planned, seen, mapError_ok, bind, Except.bind, shown, made]
  generalize a.wrap = wrap, a.debug = debug, a.clockSpeed = speed, a.maxCycles = most at missing ⊢
  rcases wrap with _ | wrap
  · exact ⟨_, rfl, rfl⟩
  simp only [read, mapError_ok, greets]
  rcases debug with _ | debug
  · exact ⟨_, rfl, rfl⟩
  rcases speed with _ | speed
  · exact ⟨_, rfl, rfl⟩
  rcases most with _ | most
  · exact ⟨_, rfl, rfl⟩
  simp at missing

end

/-- Whatever gets ready has read every entry: without any one of them it breaks off. -/
theorem misses_without (prepared : prepare w (.ofEntries s) = .ok ready) (e : Entry) :
    Misses w ((Arguments.ofEntries s).without e) := by
  obtain ⟨plan, display, keypad, told, planned, shown, made, done⟩ := stages_of_ready prepared
  obtain ⟨rom, loaded⟩ := program_of_plan planned
  cases e with
  | shift | load | logic | filename => exact misses_of_plan rfl
  | renderer =>
    have same : ((Arguments.ofEntries s).without .renderer).program w = .ok rom := loaded
    exact misses_of_plan (by rw [Arguments.plan, same]; rfl)
  | mute =>
    have same : ((Arguments.ofEntries s).without .mute).program w = .ok rom := loaded
    exact misses_of_plan (by rw [Arguments.plan, same]; rfl)
  | scale | palette | cursorMode => exact misses_of_appearance planned rfl
  | keymap => exact misses_of_keymap planned rfl shown rfl
  | wrap => exact misses_of_rest planned rfl shown made done (.inl rfl)
  | debug => exact misses_of_rest planned rfl shown made done (.inr (.inl rfl))
  | clockSpeed => exact misses_of_rest planned rfl shown made done (.inr (.inr (.inl rfl)))
  | maxCycles => exact misses_of_rest planned rfl shown made done (.inr (.inr (.inr rfl)))

end

/-! ## Texts that are not about a clock -/

def Unclocked (text : String) : Prop := ∀ activity, text ≠ Clock.refusal activity

def Otherwise (text : String) : Prop := 2 ≤ text.toList.length ∧ ¬['C', 'l'] <+: text.toList

instance (text : String) : Decidable (Otherwise text) := inferInstanceAs (Decidable (_ ∧ _))

theorem begins_append {cs : List Char} {text : String} (begins : cs <+: text.toList) (more : String) :
    cs <+: (text ++ more).toList := by
  rw [String.toList_append]
  exact begins.trans (List.prefix_append _ _)

theorem refusal_begins (activity : String) : ['C', 'l'] <+: (Clock.refusal activity).toList := by
  have first : ['C', 'l'] <+: "Clock frequency for '".toList := by decide
  exact begins_append (begins_append first activity) _

namespace Otherwise

variable {text : String}

theorem unclocked (other : Otherwise text) : Unclocked text := by
  rintro activity rfl
  exact other.2 (refusal_begins activity)

/-- The beginning of a text is enough. -/
theorem append (other : Otherwise text) (more : String) : Otherwise (text ++ more) := by
  obtain ⟨long, other⟩ := other
  rw [Otherwise, String.toList_append, List.length_append]
  refine ⟨Nat.le_add_right_of_le long, ?_⟩
  intro same
  exact other (List.prefix_of_prefix_length_le same (List.prefix_append _ _) long)

end Otherwise

theorem unclocked_rom (e : RomError) (name : Text.Wide) : Unclocked (e.message name) := by
  cases e with
  | unreadable e =>
    have other : Otherwise "Unable to read ROM: " := by decide
    exact (other.append _).unclocked
  | notOpen =>
    have other : Otherwise "Unable to read ROM: [Errno 9] Bad file descriptor" := by decide
    exact other.unclocked
  | tooLong length room =>
    have other : Otherwise "ROM '" := by decide
    exact ((((((other.append _).append _).append _).append _).append _).append _).unclocked

theorem unclocked_frontend (e : FrontendError) : Unclocked e.message := by
  cases e <;> exact Otherwise.unclocked (by decide)

theorem unclocked_palette (e : Display.PaletteError) : Unclocked e.message := by
  cases e <;> exact Otherwise.unclocked (by decide)

theorem unclocked_keymap (e : Keypad.KeymapError) : Unclocked e.message := by
  cases e with
  | reserved code =>
    have other : Otherwise "Key " := by decide
    exact ((other.append _).append _).unclocked
  | _ => exact Otherwise.unclocked (by decide)

theorem unclocked_fault (f : Fault) : Unclocked f.message := by
  cases f with
  | outOfRange address =>
    have other : Otherwise "Memory access out of range at address 0x" := by decide
    exact (other.append _).unclocked
  | notInstruction word address =>
    have other : Otherwise "Opcode 0x" := by decide
    exact ((((other.append _).append _).append _).append _).unclocked
  | stackOverflow limit =>
    have other : Otherwise "Stack overflow (more than " := by decide
    exact ((other.append _).append _).unclocked
  | badSize error => cases error <;> exact Otherwise.unclocked (by decide)
  | _ => exact Otherwise.unclocked (by decide)

theorem unclocked_halt (m : Machine) (halt : Halt) : Unclocked (halt.message m) := by
  cases halt with
  | boot f => exact unclocked_fault f
  | crash f =>
    have other : Otherwise "Emulation halted.\n\n" := by decide
    exact (((((other.append _).append _).append _).append _).append _).unclocked
  | limit f => exact unclocked_fault f

/-! ## What a session with all entries never comes to -/

/-- Is it neither a missing entry nor a refused clock that keeps a session from going on? -/
def Trouble.Apart : Trouble → Prop
  | .refused text => Unclocked text
  | .escaped cause => cause ≠ .missingEntry

theorem escaped_apart {cause : Escape} (other : cause ≠ .missingEntry) : (Trouble.escaped cause).Apart := other

structure Report.Apart (r : Report) : Prop where
  complete : r.ending ≠ .escaped .missingEntry
  timed : ∀ activity, .told (Clock.refusal activity) ∉ r.log

def Untold (log : List Deed) : Prop := ∀ text, .told text ∉ log

theorem untold_closing (parts : List Part) : Untold (closing parts) := by simp [Untold, closing]

theorem Untold.append {log more : List Deed} (first : Untold log) (second : Untold more) : Untold (log ++ more) := by
  intro text mem
  rcases List.mem_append.mp mem with old | new
  · exact first text old
  · exact second text new

theorem apart_troubled {log : List Deed} {trouble : Trouble} (untold : Untold log) (apart : trouble.Apart)
    (choice : Option (Frontend × BuzzerKind)) (opened : List Part) (lines : List String) :
    (Report.troubled choice log opened lines trouble).Apart := by
  cases trouble with
  | refused text =>
    refine ⟨nofun, fun activity mem => ?_⟩
    rcases List.mem_append.mp mem with before | last
    · exact (untold.append (untold_closing opened)) _ before
    · exact apart activity (Deed.told.inj (List.mem_singleton.mp last)).symm
  | escaped cause => exact ⟨fun same => apart (Ending.escaped.inj same), fun activity => untold _⟩

section

variable {w : World} {s : Entry → Setting} {trouble : Trouble}

theorem program_apart (failed : (Arguments.ofEntries s).program w = .error trouble) : trouble.Apart := by
  have numbered (n : Int) : (Arguments.numberedFile n).Apart := by
    unfold Arguments.numberedFile
    split
    · split
      · exact escaped_apart (by decide)
      · exact unclocked_rom .notOpen []
    · exact escaped_apart (by decide)
  simp only [Arguments.program, Arguments.ofEntries, read, bind, Except.bind] at failed
  rcases named : (s .filename).name? with _ | name
  · rw [named] at failed
    split at failed
    · next absent => cases absent
    · cases failed
      exact numbered _
    · cases failed
      exact escaped_apart (by decide)
  · simp only [named] at failed
    rcases loaded : Rom.load w.read Layout.programRoom name with (e | e) | bytes
    · simp only [loaded] at failed
      cases failed
      exact escaped_apart Escape.noConfusion
    · simp only [loaded] at failed
      cases failed
      exact unclocked_rom e name
    · simp only [loaded] at failed
      cases failed

theorem frontend_apart (failed : (Arguments.ofEntries s).frontend w = .error trouble) : trouble.Apart := by
  simp only [Arguments.frontend, Arguments.ofEntries, read, bind, Except.bind] at failed
  rcases selected : Frontend.select w.libraries (s .renderer).choice? (s .mute).switch? with e | chosen
  · rw [selected] at failed
    cases failed
    exact unclocked_frontend e
  · rw [selected] at failed
    cases failed

theorem plan_apart (failed : (Arguments.ofEntries s).plan w = .error trouble) : trouble.Apart := by
  rcases loaded : (Arguments.ofEntries s).program w with cause | rom
  · have same : (Arguments.ofEntries s).plan w = .error cause := by rw [Arguments.plan, loaded]; rfl
    cases same.symm.trans failed
    exact program_apart loaded
  · rcases selected : (Arguments.ofEntries s).frontend w with cause | chosen
    · have same : (Arguments.ofEntries s).plan w = .error cause := by rw [Arguments.plan, loaded, selected]; rfl
      cases same.symm.trans failed
      exact frontend_apart selected
    · rw [Arguments.plan, loaded, selected] at failed
      cases failed

theorem window_apart {host : Display.Host} {width : Option Int} {text : Option String}
    (failed : ((Display.Window.create host width text).mapError windowTrouble).map Display.window = .error trouble) :
    trouble.Apart := by
  rcases made : Display.Window.create host width text with e | window
  · rw [made] at failed
    cases failed
    cases e with
    | palette e =>
      simp only [windowTrouble]
      split
      · exact unclocked_palette e
      · exact escaped_apart Escape.noConfusion
    | _ => exact escaped_apart Escape.noConfusion
  · rw [made] at failed
    cases failed

theorem width_apart {scale : Setting} (failed : width? scale = .error trouble) : trouble.Apart := by
  unfold width? at failed
  split at failed
  · cases failed
  · split at failed
    · cases failed
    · cases failed
      exact escaped_apart (by decide)

theorem columns_apart {scale : Setting} (failed : columns? scale = .error trouble) : trouble.Apart := by
  unfold columns? at failed
  split at failed
  · cases failed
  · split at failed
    · cases failed
    · cases failed
      exact escaped_apart (by decide)

theorem cursorMode_apart {cursor : Setting} (failed : cursorMode cursor = .error trouble) : trouble.Apart := by
  unfold cursorMode at failed
  split at failed
  · split at failed
    · cases failed
    · cases failed
      exact escaped_apart (by decide)
  · cases failed
    exact escaped_apart (by decide)

theorem openWindow_apart {host : Display.Host} {scale palette : Setting}
    (failed : openWindow host scale palette = .error trouble) : trouble.Apart := by
  unfold openWindow at failed
  rcases width : width? scale with cause | width
  · rw [width] at failed
    cases failed
    exact width_apart width
  · simp only [width, bind, Except.bind] at failed
    split at failed
    · exact window_apart failed
    · exact window_apart failed
    · split at failed
      · next cause refused =>
        cases failed
        exact window_apart refused
      · cases failed
        exact escaped_apart (by decide)

theorem openTerminal_apart {host : Display.Host} {scale cursor : Setting}
    (failed : openTerminal host scale cursor = .error trouble) : trouble.Apart := by
  have created {columns : Option Int} {mode : Int} {cause : Trouble}
      (failed : ((Display.Terminal.create host columns mode).mapError fun e => .escaped (.terminal e)).map
        (fun p => Display.terminal p.1) = .error cause) : cause.Apart := by
    rcases made : Display.Terminal.create host columns mode with e | terminal
    · rw [made] at failed
      cases failed
      exact escaped_apart Escape.noConfusion
    · rw [made] at failed
      cases failed
  unfold openTerminal at failed
  rcases columns : columns? scale with cause | columns
  · rw [columns] at failed
    cases failed
    exact columns_apart columns
  · rcases mode : cursorMode cursor with cause | mode
    · simp only [columns, mode, bind, Except.bind] at failed
      split at failed
      · next refused =>
        cases failed
        exact created refused
      · cases failed
        exact cursorMode_apart mode
    · simp only [columns, mode, bind, Except.bind] at failed
      exact created failed

theorem openDisplay_apart {host : Display.Host} {frontend : Frontend} {look : Appearance}
    (failed : openDisplay host frontend look = .error trouble) : trouble.Apart := by
  cases frontend with
  | headless => cases failed
  | window => exact openWindow_apart failed
  | terminal => exact openTerminal_apart failed

theorem keypadOf_apart {frontend : Frontend} (failed : keypadOf s frontend = .error trouble) : trouble.Apart := by
  unfold keypadOf at failed
  split at failed
  · next keymap _ =>
    rcases made : Keypad.create frontend keymap with e | keypad
    · rw [made] at failed
      cases failed
      exact unclocked_keymap e
    · rw [made] at failed
      cases failed
  · cases failed
    exact escaped_apart (by decide)

theorem clockSpeed_apart {speed : Setting} (failed : clockSpeed speed = .error trouble) : trouble.Apart := by
  unfold clockSpeed at failed
  split at failed
  · cases failed
  · split at failed
    · cases failed
    · cases failed
      exact escaped_apart (by decide)

theorem troubleOf_apart (m : Machine) (halt : Halt) : (troubleOf m halt).Apart := by
  unfold troubleOf
  split
  · exact unclocked_halt m halt
  · exact escaped_apart Escape.noConfusion

def Fast (s : Entry → Setting) : Prop := ∀ speed, clockSpeed (s .clockSpeed) = .ok speed → speed.isPositive = true

variable {plan : Plan} {display : Display} {keypad : Keypad} {report : Report}

theorem assemble_apart (fast : Fast s) (failed : assemble w s plan display keypad = .error report) :
    report.Apart := by
  have untold : Untold (openings ++ closing allParts) := Untold.append untold_openings (untold_closing allParts)
  unfold assemble at failed
  obtain ⟨told, e, refused⟩ | ⟨after, done⟩ := greeted_cases w plan display
  · rw [refused] at failed
    cases failed
    refine apart_troubled ?_ ?_ _ _ _
    · simp [Untold, allParts, opening]
    · cases e <;> exact escaped_apart Escape.noConfusion
  · simp only [done, bind, Except.bind] at failed
    rcases read : clockSpeed (s .clockSpeed) with cause | speed
    · rw [read] at failed
      cases failed
      exact apart_troubled untold (clockSpeed_apart read) _ _ _
    · let settings : Emulator.Settings :=
        ⟨plan.dialect, (s .wrap).isOn, (s .debug).isOn, plan.rom, speed, (s .maxCycles).limit⟩
      obtain ⟨clocks, later, built⟩ := Emulator.build_of_positive settings (fast speed read) w.time
      have created : Emulator.create (.standard plan.dialect (s .wrap).isOn (s .debug).isOn) plan.rom speed
          (s .maxCycles).limit w.time = .ok (Emulator.fresh settings clocks, later) := built
      simp only [read, mapError_ok, created] at failed
      cases failed

theorem prepare_apart (fast : Fast s) (failed : prepare w (.ofEntries s) = .error report) : report.Apart := by
  have untold : Untold (opening .display ++ [.began .keypad]) := by simp [Untold, opening]
  rcases planned : (Arguments.ofEntries s).plan w with cause | plan
  · rw [prepare_of_noPlan planned] at failed
    cases failed
    exact apart_troubled (fun _ none => absurd none List.not_mem_nil) (plan_apart planned) _ _ _
  · rcases shown : openDisplay w.host plan.frontend (look s) with cause | display
    · rw [prepare_of_noDisplay planned shown] at failed
      cases failed
      exact apart_troubled (by simp [Untold]) (openDisplay_apart shown) _ _ _
    · rcases made : keypadOf s plan.frontend with cause | keypad
      · rw [prepare_of_noKeypad planned shown made] at failed
        cases failed
        exact apart_troubled untold (keypadOf_apart made) _ _ _
      · rw [prepare_of_open planned shown made] at failed
        exact assemble_apart fast failed

theorem log_of_ready {ready : Ready} (prepared : prepare w (.ofEntries s) = .ok ready) : ready.log = openings := by
  have outcome := Session.prepared w s
  rw [prepared] at outcome
  cases outcome with
  | ready log => exact log

theorem report_apart {ready : Ready} (log : ready.log = openings) (run : Emulator.Run) (outcome : Emulator.Outcome) :
    (ready.report run outcome).Apart := by
  have called : Untold (run.calls.toList.map .called) := by simp [Untold]
  have untold : Untold (ready.log ++ run.calls.toList.map .called) := log ▸ Untold.append untold_openings called
  have closed := untold.append (untold_closing allParts)
  cases outcome with
  | unfinished => exact ⟨nofun, fun _ => untold _⟩
  | finished => exact ⟨nofun, fun _ => closed _⟩
  | halted halt => exact apart_troubled closed (troubleOf_apart _ _) _ _ _

/-- A session that is handed every entry never misses one, and as long as its clock speed is no number that is too
    small, it never tells of a clock. -/
theorem run_apart (fast : Fast s) (fuel : Nat) : (run fuel w (.ofEntries s)).Apart := by
  unfold run
  rcases prepared : prepare w (.ofEntries s) with report | ready
  · exact prepare_apart fast prepared
  · exact report_apart (log_of_ready prepared) _ _

end

end Chip8.Session
