/-
  Chip8.Proofs.Preparing — a session that is handed all its entries is prepared in four stages.

  A program that starts a session hands over one setting an entry. A plan is made of six of them and of the
  host; the display, the keypad and the emulator are made of the others, one after another
  (`prepare_ofEntries`). So preparing comes out in one of six ways (`prepared`): in trouble with no part in the
  making, with the display or the keypad in the making, at a display that refuses the screen or with all parts
  closed again, or ready to run.
-/
import Chip8.Proofs.Headless

namespace Chip8.Session

/-! ## Entries -/

inductive Entry where
  | filename
  | clockSpeed
  | renderer
  | scale
  | mute
  | keymap
  | cursorMode
  | palette
  | shift
  | load
  | logic
  | wrap
  | maxCycles
  | debug
  deriving DecidableEq, Repr

def Arguments.ofEntries (s : Entry → Setting) : Arguments where
  filename := some (s .filename)
  clockSpeed := some (s .clockSpeed)
  renderer := some (s .renderer)
  scale := some (s .scale)
  mute := some (s .mute)
  keymap := some (s .keymap)
  cursorMode := some (s .cursorMode)
  palette := some (s .palette)
  shift := some (s .shift)
  load := some (s .load)
  logic := some (s .logic)
  wrap := some (s .wrap)
  maxCycles := some (s .maxCycles)
  debug := some (s .debug)

/-- The settings that a command line stands for which names a file and asks for nothing else. -/
def standard (filename : String) : Entry → Setting
  | .filename => .text filename
  | .clockSpeed => .ofInt Activity.defaultClockSpeed
  | .keymap => .text Keypad.Keymap.standard
  | .cursorMode => .ofInt 0
  | .debug => .flag false
  | _ => .unset

/-! ## Stages -/

section

variable (w : World) (s : Entry → Setting)

def look : Appearance := ⟨s .scale, s .palette, s .cursorMode⟩

def keypadOf (frontend : Frontend) : Except Trouble Keypad :=
  match (s .keymap).text? with
  | some keymap => (Keypad.create frontend keymap).mapError fun e => .refused e.message
  | none => .error (.escaped .notText)

def greeted (plan : Plan) (display : Display) : Except Report (Display × List Deed) :=
  greet w (fun log => .troubled (some (plan.frontend, plan.buzzer)) log allParts banner)
    (Screen.greeting Layout.screenWidth Layout.screenHeight) (display, allParts.flatMap opening)

def assemble (plan : Plan) (display : Display) (keypad : Keypad) : Except Report Ready := do
  let (display, log) ← greeted w plan display
  let trouble := Report.troubled (some (plan.frontend, plan.buzzer)) (log ++ closing allParts) [] banner
  let speed ← (clockSpeed (s .clockSpeed)).mapError trouble
  let (emulator, time) ← (Emulator.create (.standard plan.dialect (s .wrap).isOn (s .debug).isOn) plan.rom speed
    (s .maxCycles).limit w.time).mapError fun activity => trouble (.refused (Clock.refusal activity.name))
  return ⟨plan, display, keypad, emulator, time, log⟩

/-- Plan, display, keypad and emulator follow one another. -/
theorem prepare_ofEntries : prepare w (.ofEntries s) = (do
    let plan ← ((Arguments.ofEntries s).plan w).mapError (.troubled none [] [] banner)
    let trouble := Report.troubled (some (plan.frontend, plan.buzzer))
    let display ← (openDisplay w.host plan.frontend (look s)).mapError (trouble [.began .display] [] banner)
    let keypad ← (keypadOf s plan.frontend).mapError (trouble (opening .display ++ [.began .keypad]) [.display] banner)
    assemble w s plan display keypad) :=
  rfl

/-! ## Outcomes -/

section

variable {w s} {plan : Plan} (planned : (Arguments.ofEntries s).plan w = .ok plan)
include planned

theorem prepare_of_noDisplay {trouble : Trouble}
    (failed : openDisplay w.host plan.frontend (look s) = .error trouble) :
    prepare w (.ofEntries s) =
      .error (.troubled (some (plan.frontend, plan.buzzer)) [.began .display] [] banner trouble) := by
  rw [prepare_ofEntries, planned]
  simp only [mapError_ok, bind, Except.bind, failed, mapError_error]

variable {display : Display} (shown : openDisplay w.host plan.frontend (look s) = .ok display)
include shown

theorem prepare_of_noKeypad {trouble : Trouble} (failed : keypadOf s plan.frontend = .error trouble) :
    prepare w (.ofEntries s) = .error (.troubled (some (plan.frontend, plan.buzzer))
      (opening .display ++ [.began .keypad]) [.display] banner trouble) := by
  rw [prepare_ofEntries, planned]
  simp only [mapError_ok, bind, Except.bind, shown, failed, mapError_error]

theorem prepare_of_open {keypad : Keypad} (made : keypadOf s plan.frontend = .ok keypad) :
    prepare w (.ofEntries s) = assemble w s plan display keypad := by
  rw [prepare_ofEntries, planned]
  simp only [mapError_ok, bind, Except.bind, shown, made]

end

/-- A display is told one thing after another, up to the first that it refuses. -/
theorem greet_cases (trouble : List Deed → Trouble → Report) (commands : List Display.Command) (display : Display)
    (log : List Deed) :
    (∃ told e, told <+: commands ∧ greet w trouble commands (display, log) =
      .error (trouble (log ++ told.map fun c => .called (.display c)) (.escaped (.ofDisplay e)))) ∨
    ∃ after, greet w trouble commands (display, log) =
      .ok (after, log ++ commands.map fun c => .called (.display c)) := by
  induction commands generalizing display log with
  | nil => exact .inr ⟨display, by rw [List.map_nil, List.append_nil, greet]⟩
  | cons command rest ih =>
    simp only [greet, bind, Except.bind]
    rcases display.apply w.host w.terminal command with e | next
    · exact .inl ⟨[command], e, ⟨rest, rfl⟩, rfl⟩
    · simp only [mapError_ok]
      obtain ⟨told, e, first, refused⟩ | ⟨after, done⟩ := ih next (log ++ [.called (.display command)])
      · refine .inl ⟨command :: told, e, List.cons_prefix_cons.mpr ⟨rfl, first⟩, ?_⟩
        rw [refused, List.append_assoc]
        rfl
      · refine .inr ⟨after, ?_⟩
        rw [done, List.append_assoc]
        rfl

/-- With all parts open a display is told of the screen, or refuses something of it, which is an escape. -/
theorem greeted_cases (plan : Plan) (display : Display) :
    (∃ (told : List Display.Command) (e : Display.Error), greeted w plan display =
      .error (.troubled (some (plan.frontend, plan.buzzer))
        (allParts.flatMap opening ++ told.map fun c => .called (.display c)) allParts banner
        (.escaped (.ofDisplay e)))) ∨
    ∃ after, greeted w plan display = .ok (after, openings) := by
  obtain ⟨told, e, -, refused⟩ | done := greet_cases w _ _ display _
  · exact .inl ⟨told, e, refused⟩
  · exact .inr done

/-- Then there is other trouble, and the parts are closed, or a session is ready. -/
theorem assemble_cases (plan : Plan) (display : Display) (keypad : Keypad) :
    (∃ (choice : Frontend × BuzzerKind) (told : List Display.Command) (e : Display.Error),
      assemble w s plan display keypad = .error (.troubled (some choice)
        (allParts.flatMap opening ++ told.map fun c => .called (.display c)) allParts banner
        (.escaped (.ofDisplay e)))) ∨
    (∃ choice trouble, assemble w s plan display keypad =
      .error (.troubled (some choice) (openings ++ closing allParts) [] banner trouble)) ∨
    ∃ ready, assemble w s plan display keypad = .ok ready ∧ ready.log = openings := by
  unfold assemble
  obtain ⟨told, e, refused⟩ | ⟨after, done⟩ := greeted_cases w plan display
  · refine .inl ⟨(plan.frontend, plan.buzzer), told, e, ?_⟩
    simp only [refused, bind, Except.bind]
  · simp only [done, bind, Except.bind]
    rcases clockSpeed (s .clockSpeed) with trouble | speed
    · exact .inr (.inl ⟨_, trouble, rfl⟩)
    · simp only [mapError_ok]
      rcases Emulator.create _ _ _ _ _ with activity | ⟨emulator, time⟩
      · exact .inr (.inl ⟨_, _, rfl⟩)
      · exact .inr (.inr ⟨_, rfl, rfl⟩)

inductive Prepared : Except Report Ready → Prop
  | unplanned (trouble : Trouble) : Prepared (.error (.troubled none [] [] banner trouble))
  | noDisplay (choice : Frontend × BuzzerKind) (trouble : Trouble) :
      Prepared (.error (.troubled (some choice) [.began .display] [] banner trouble))
  | noKeypad (choice : Frontend × BuzzerKind) (trouble : Trouble) :
      Prepared (.error (.troubled (some choice) (opening .display ++ [.began .keypad]) [.display] banner trouble))
  | noScreen (choice : Frontend × BuzzerKind) (told : List Display.Command) (e : Display.Error) :
      Prepared (.error (.troubled (some choice)
        (allParts.flatMap opening ++ told.map fun c => .called (.display c)) allParts banner
        (.escaped (.ofDisplay e))))
  | noEmulator (choice : Frontend × BuzzerKind) (trouble : Trouble) :
      Prepared (.error (.troubled (some choice) (openings ++ closing allParts) [] banner trouble))
  | ready {ready : Ready} (log : ready.log = openings) : Prepared (.ok ready)

theorem prepared : Prepared (prepare w (.ofEntries s)) := by
  rcases planned : (Arguments.ofEntries s).plan w with trouble | plan
  · rw [prepare_ofEntries, planned]
    exact .unplanned trouble
  · rcases shown : openDisplay w.host plan.frontend (look s) with trouble | display
    · rw [prepare_of_noDisplay planned shown]
      exact .noDisplay _ trouble
    · rcases made : keypadOf s plan.frontend with trouble | keypad
      · rw [prepare_of_noKeypad planned shown made]
        exact .noKeypad _ trouble
      · rw [prepare_of_open planned shown made]
        obtain ⟨choice, told, e, refused⟩ | ⟨choice, trouble, failed⟩ | ⟨ready, assembled, log⟩ :=
          assemble_cases w s plan display keypad
        · rw [refused]
          exact .noScreen choice told e
        · rw [failed]
          exact .noEmulator choice trouble
        · rw [assembled]
          exact .ready log

end

/-! ## What has been done -/

theorem run_of_error {w : World} {a : Arguments} {report : Report} (failed : prepare w a = .error report) (fuel : Nat) :
    run fuel w a = report := by
  rw [run, failed]

/-- What a session does before it is in trouble stays in its log. -/
theorem Report.mem_troubled {choice : Option (Frontend × BuzzerKind)} {log : List Deed} {opened : List Part}
    {lines : List String} {trouble : Trouble} {deed : Deed} (mem : deed ∈ log) :
    deed ∈ (Report.troubled choice log opened lines trouble).log := by
  cases trouble with
  | refused text => exact List.mem_append_left _ (List.mem_append_left _ mem)
  | escaped cause => exact mem

theorem Ready.mem_report {ready : Ready} {run : Emulator.Run} {outcome : Emulator.Outcome} {deed : Deed}
    (mem : deed ∈ ready.log) : deed ∈ (ready.report run outcome).log := by
  cases outcome with
  | unfinished => exact List.mem_append_left _ mem
  | finished => exact List.mem_append_left _ (List.mem_append_left _ mem)
  | halted halt => exact Report.mem_troubled (List.mem_append_left _ (List.mem_append_left _ mem))

section

variable {w : World} {s : Entry → Setting} {plan : Plan} {display : Display}
  (planned : (Arguments.ofEntries s).plan w = .ok plan)
  (shown : openDisplay w.host plan.frontend (look s) = .ok display)
include planned shown

/-- With a keypad, all parts are opened. -/
theorem opening_mem_log {keypad : Keypad} (made : keypadOf s plan.frontend = .ok keypad) {deed : Deed}
    (mem : deed ∈ allParts.flatMap opening) (fuel : Nat) : deed ∈ (run fuel w (.ofEntries s)).log := by
  have early : deed ∈ openings := List.mem_append_left _ mem
  rw [run, prepare_of_open planned shown made]
  obtain ⟨choice, told, e, refused⟩ | ⟨choice, trouble, failed⟩ | ⟨ready, assembled, log⟩ :=
    assemble_cases w s plan display keypad
  · rw [refused]
    exact Report.mem_troubled (List.mem_append_left _ mem)
  · rw [failed]
    exact Report.mem_troubled (List.mem_append_left _ early)
  · rw [assembled]
    exact Ready.mem_report (log ▸ early)

theorem display_mem_log (fuel : Nat) : .opened .display ∈ (run fuel w (.ofEntries s)).log := by
  rcases made : keypadOf s plan.frontend with trouble | keypad
  · rw [run_of_error (prepare_of_noKeypad planned shown made)]
    exact Report.mem_troubled (by decide)
  · exact opening_mem_log planned shown made (by decide) fuel

end

end Chip8.Session
