/-
  Chip8.Proofs.Headless — how a session without a display ends.

  From a command line that asks for no display, a session opens nothing that can fail but the keymap.
  So it is refused for its file or its keymap, or it runs with nobody at the keypad; then it ends well at
  its limit, or at the failure of an instruction. Of every refusal and every failure the user is told,
  with status one, and of nothing else. Only a name that stands for no path makes the session break off
  (`headless_exit_status`), and there are such names (`name_without_path_breaks_off`).
-/
import Chip8.Proofs.Booting
import Chip8.Proofs.Unattended

namespace Chip8

/-! ## Keys -/

namespace Keypad

theorem pollAll_headless (m : Keymap) (signals : List Signals) :
    (headless m).pollAll signals = (List.replicate signals.length .idle, headless m) := by
  induction signals with
  | nil => rfl
  | cons s rest ih => simp only [pollAll, poll, ih, List.length_cons, List.replicate_succ]

/-- Without a display nobody touches the keypad. -/
theorem untouched_of_headless {keymap : String} {k : Keypad} (made : create .headless keymap = .ok k)
    (signals : List Signals) (n : Nat) : (k.inputs signals).cell n = .idle := by
  rcases parsed : Keymap.parse false [] keymap.toList with _ | m
  · simp only [create, parsed] at made
    cases made
  · simp only [create, parsed] at made
    cases made
    simp only [inputs, pollAll_headless, poll, Tape.ofList, Tape.ofFn, Array.getD_eq_getD_getElem?,
      List.getElem?_toArray, List.getElem?_replicate]
    split <;> rfl

end Keypad

namespace Emulator

/-- A new emulator starts a run with nobody's pause in it, and its program fits. -/
theorem quiet_of_build {s : Settings} {most : Option Int} {e : Emulator} {time later : Tape Int}
    (fits : s.rom.length ≤ Layout.programRoom) (limit : s.limit = .ofMost most)
    (built : s.build time = .ok (e, later)) (random : Tape UInt8) :
    e.boot.2.2 = none ∧ (e.started later random).Quiet most ∧ (e.started later random).emulator.cycles = 0 := by
  have booted := (Reached.built built).asBuilt.boot_eq fits
  obtain ⟨clocks, rfl⟩ := eq_fresh_of_build built
  have start : Machine.Reachable s.rom (.standard s.dialect s.wrapping s.traced) := .start _ _ _
  have sound : (fresh s clocks).boot.1.Sound := sound_boot start
  unfold started
  refine ⟨by rw [booted], ⟨by rw [booted]; rfl, by rw [booted]; exact limit, ?_⟩, by rw [booted]; rfl⟩
  simp only
  exact sound

end Emulator

/-! ## Files -/

theorem Rom.load_cases (read : Text.Wide → Except ReadError (List UInt8)) (room : Int) (name : Text.Wide) :
    (∃ e, load read room name = .error (.name e) ∧ read name = .error (.name e)) ∨
    (∃ e, load read room name = .error (.rom e)) ∧
      ((∃ e, read name = .error (.file e)) ∨ ∃ bytes, read name = .ok bytes ∧ room < bytes.length) ∨
    ∃ bytes, load read room name = .ok bytes ∧ read name = .ok bytes ∧ bytes.length ≤ room := by
  unfold load
  rcases read name with (e | e) | bytes
  · exact .inr (.inl ⟨⟨_, rfl⟩, .inl ⟨e, rfl⟩⟩)
  · exact .inl ⟨e, rfl, rfl⟩
  · by_cases long : room < bytes.length
    · simp only [if_pos long]
      exact .inr (.inl ⟨⟨_, rfl⟩, .inr ⟨bytes, rfl, long⟩⟩)
    · simp only [if_neg long]
      exact .inr (.inr ⟨bytes, rfl, rfl, Int.not_lt.mp long⟩)

namespace Session

/-! ## The command line -/

/-- The arguments that a command line stands for, where the name of the file, the keymap and the palette may hold
    halves of surrogate pairs. -/
def Arguments.ofWords (o : Options) (name keymap : Text.Wide) (palette : Option Text.Wide) : Arguments :=
  { Arguments.ofOptions o with
    filename := some (.ofWide name)
    keymap := some (.ofWide keymap)
    palette := some (palette.elim .unset .ofWide) }

/-- Does a command line ask for no display, with a speed above zero, and a limit above zero if there is one? -/
structure Headless (o : Options) (speed : Int) (most : Option Int) : Prop where
  renderer : o.renderer = some (.given Frontend.headlessChoice)
  clockSpeed : o.clockSpeed = .given speed
  maxCycles : o.maxCycles = most.map .given
  fast : 0 < speed
  above : ∀ n ∈ most, 0 < n

/-! ## Reports -/

namespace Report

def Refuses (r : Report) : Prop := r.ending = .exit 1 ∧ r.errorOutput ≠ ""

def Proper (r : Report) : Prop :=
  r.ending = .unfinished ∨ (r.ending = .exit 0 ∧ r.errorOutput = "") ∨ (r.ending = .exit 1 ∧ r.errorOutput ≠ "")

theorem text_ne_empty {lines : List String} (some : lines ≠ []) : text lines ≠ "" := by
  obtain ⟨line, rest, rfl⟩ := List.exists_cons_of_ne_nil some
  intro none
  have length := congrArg String.length none
  simp [text] at length

theorem refuses_troubled (choice : Option (Frontend × BuzzerKind)) (log : List Deed) (opened : List Part)
    (lines : List String) (told : String) : (troubled choice log opened lines (.refused told)).Refuses := by
  refine ⟨rfl, text_ne_empty ?_⟩
  intro none
  rw [complaints, troubled, List.filterMap_append] at none
  exact List.cons_ne_nil _ _ (List.append_eq_nil_iff.mp none).2

theorem errorOutput_of_untold {r : Report} (untold : ∀ told, .told told ∉ r.log) : r.errorOutput = "" := by
  have none : r.complaints = [] := by
    rw [complaints, List.filterMap_eq_nil_iff]
    intro deed mem
    cases deed with
    | told text => exact absurd mem (untold text)
    | _ => rfl
  rw [errorOutput, none]
  rfl

end Report

/-! ## Preparing -/

theorem mapError_ok {ε δ α : Type} (a : α) (f : ε → δ) : (Except.ok a : Except ε α).mapError f = .ok a := rfl

theorem mapError_error {ε δ α : Type} (e : ε) (f : ε → δ) : (Except.error e : Except ε α).mapError f = .error (f e) :=
  rfl

def openings : List Deed :=
  opening .display ++ opening .keypad ++ opening .buzzer ++
    (Screen.greeting Layout.screenWidth Layout.screenHeight).map fun c => .called (.display c)

theorem untold_openings (told : String) : .told told ∉ openings := by
  simp [openings, opening, Screen.greeting]

namespace Headless

variable {o : Options} {speed : Int} {most : Option Int} {name keymap : Text.Wide} {palette : Option Text.Wide}
  {w : World} {rom : List UInt8}

/-- A file is refused if it cannot be read or is too long, and otherwise is the program. A name that stands for no
    path is not refused. -/
theorem program_cases (o : Options) (name keymap : Text.Wide) (palette : Option Text.Wide) (w : World) :
    (∃ e, (Arguments.ofWords o name keymap palette).program w = .error (.escaped (.badName e)) ∧
      w.read name = .error (.name e)) ∨
    (∃ text, (Arguments.ofWords o name keymap palette).program w = .error (.refused text)) ∧
      ((∃ e, w.read name = .error (.file e)) ∨ ∃ bytes, w.read name = .ok bytes ∧ 3584 < bytes.length) ∨
    ∃ rom, (Arguments.ofWords o name keymap palette).program w = .ok rom ∧ w.read name = .ok rom ∧
      rom.length ≤ 3584 := by
  have room : Layout.programRoom = 3584 := rfl
  rcases Rom.load_cases w.read Layout.programRoom name with
    ⟨e, loaded, named⟩ | ⟨⟨e, loaded⟩, unfit⟩ | ⟨rom, loaded, found, fits⟩
  · refine .inl ⟨e, ?_, named⟩
    simp only [Arguments.program, Arguments.ofWords, read, bind, Except.bind, Setting.name?_ofWide, loaded]
  · refine .inr (.inl ⟨⟨e.message name, ?_⟩, unfit.imp_right ?_⟩)
    · simp only [Arguments.program, Arguments.ofWords, read, bind, Except.bind, Setting.name?_ofWide, loaded]
    · rintro ⟨bytes, found, long⟩
      exact ⟨bytes, found, by omega⟩
  · refine .inr (.inr ⟨rom, ?_, found, by omega⟩)
    simp only [Arguments.program, Arguments.ofWords, read, bind, Except.bind, Setting.name?_ofWide, loaded]

section

variable (h : Headless o speed most)
include h

/-- What is planned: no display and no sound. -/
theorem plan_eq (name keymap : Text.Wide) (palette : Option Text.Wide) (w : World) :
    ∃ dialect, (Arguments.ofWords o name keymap palette).plan w =
      ((Arguments.ofWords o name keymap palette).program w).map fun rom => ⟨dialect, rom, .headless, .silent⟩ := by
  have front : (Arguments.ofWords o name keymap palette).frontend w = .ok (.headless, .silent) := by
    simp only [Arguments.frontend, Arguments.ofWords, Arguments.ofOptions, read, h.renderer]
    rfl
  have dialect : ∃ d, (Arguments.ofWords o name keymap palette).dialect = .ok d := ⟨_, rfl⟩
  obtain ⟨d, speaks⟩ := dialect
  refine ⟨d, ?_⟩
  rw [Arguments.plan, front, speaks]
  rcases (Arguments.ofWords o name keymap palette).program w <;> rfl

theorem prepare_of_trouble {trouble : Trouble}
    (failed : (Arguments.ofWords o name keymap palette).program w = .error trouble) :
    prepare w (.ofWords o name keymap palette) = .error (.troubled none [] [] banner trouble) := by
  obtain ⟨d, planned⟩ := h.plan_eq name keymap palette w
  rw [prepare, planned, failed]
  rfl

omit h in
theorem openKeypad_eq (o : Options) (name keymap : Text.Wide) (palette : Option Text.Wide) :
    openKeypad (.ofWords o name keymap palette) .headless =
      (Keypad.create .headless keymap.legible).mapError fun e => .refused e.message := by
  simp only [openKeypad, Arguments.ofWords, read, bind, Except.bind, Setting.text?_ofWide]

theorem prepare_of_badKeymap {e : Keypad.KeymapError}
    (loaded : (Arguments.ofWords o name keymap palette).program w = .ok rom)
    (refused : Keypad.create .headless keymap.legible = .error e) :
    ∃ report, prepare w (.ofWords o name keymap palette) = .error report ∧ report.Refuses := by
  obtain ⟨d, planned⟩ := h.plan_eq name keymap palette w
  refine ⟨_, ?_, Report.refuses_troubled (some (.headless, .silent)) (opening .display ++ [.began .keypad]) [.display]
    banner e.message⟩
  have keys := openKeypad_eq o name keymap palette
  rw [refused] at keys
  rw [prepare, planned, loaded]
  simp only [Except.map, mapError_ok, mapError_error, bind, Except.bind, keys]
  rfl

/-- A program that is loaded and a keymap that is taken make a session ready. -/
theorem prepare_of_fit {k : Keypad} (loaded : (Arguments.ofWords o name keymap palette).program w = .ok rom)
    (taken : Keypad.create .headless keymap.legible = .ok k) :
    ∃ (s : Emulator.Settings) (ready : Ready), prepare w (.ofWords o name keymap palette) = .ok ready ∧
      s.rom = rom ∧ s.limit = .ofMost most ∧ s.build w.time = .ok (ready.emulator, ready.time) ∧
      ready.keypad = k ∧ ready.log = openings := by
  obtain ⟨d, planned⟩ := h.plan_eq name keymap palette w
  let s : Emulator.Settings :=
    ⟨d, (Setting.ofOption .ofInt o.wrap).isOn, o.debug, rom, .whole speed, .ofMost most⟩
  have fast : s.speed.isPositive = true := decide_eq_true h.fast
  obtain ⟨clocks, later, built⟩ := Emulator.build_of_positive s fast w.time
  have keys := openKeypad_eq o name keymap palette
  rw [taken] at keys
  refine ⟨s, ⟨⟨d, rom, .headless, .silent⟩, .headless ⟨1, 64, 32, 0⟩, k, Emulator.fresh s clocks, later, openings⟩, ?_,
    rfl, rfl, built, rfl, rfl⟩
  have speed : Session.clockSpeed (Setting.ofValue .ofInt o.clockSpeed) = .ok s.speed := by rw [h.clockSpeed]; rfl
  have limit : (Setting.ofOption .ofInt o.maxCycles).limit = s.limit := by rw [h.maxCycles]; cases most <;> rfl
  have created : Emulator.create (.standard d (Setting.ofOption .ofInt o.wrap).isOn o.debug) rom s.speed s.limit
      w.time = .ok (Emulator.fresh s clocks, later) := built
  rw [prepare, planned, loaded]
  simp only [Except.map, mapError_ok, bind, Except.bind, keys]
  simp only [Arguments.ofWords, Arguments.ofOptions, Arguments.appearance, read, openDisplay, greet, Display.apply,
    Screen.greeting, speed, limit, mapError_ok, bind, Except.bind, show (Setting.flag o.debug).isOn = o.debug from rfl,
    created]
  rfl

end

end Headless

/-! ## Running -/

section

variable {ready : Ready} {run : Emulator.Run}

theorem Ready.report_finished (silent : ready.log = openings) :
    (ready.report run .finished).ending = .exit 0 ∧ (ready.report run .finished).errorOutput = "" := by
  refine ⟨rfl, Report.errorOutput_of_untold ?_⟩
  intro told mem
  simp only [Ready.report, silent, List.append_assoc, List.mem_append, List.mem_map, closing] at mem
  rcases mem with opened | ⟨_, _, same⟩ | ⟨_, _, same⟩
  · exact untold_openings told opened
  · cases same
  · cases same

theorem Ready.report_crashed {f : Fault} (reported : f.isReported = true) :
    (ready.report run (.halted (.crash f))).Refuses := by
  have trouble : troubleOf run.emulator.machine (.crash f) = .refused (run.emulator.machine.faultReport f) :=
    if_pos reported
  simp only [Ready.report, trouble]
  exact Report.refuses_troubled _ _ _ _ _

/-- A session that is ready runs to its end, if it has one, and fails just where an instruction does. -/
theorem Ready.status {most : Option Int} {signals : List Keypad.Signals} {random : Tape UInt8}
    (silent : ready.log = openings) (boots : ready.emulator.boot.2.2 = none)
    (quiet : (ready.emulator.started ready.time random).Quiet most)
    (below : (ready.emulator.started ready.time random).Below most)
    (untouched : ∀ n, (ready.keypad.inputs signals).cell n = .idle) :
    let start := ready.emulator.started ready.time random
    let report fuel :=
      let (run, outcome) := ready.emulator.run fuel (ready.keypad.inputs signals) ready.time random
      ready.report run outcome
    (∀ fuel, (report fuel).Proper) ∧
    (∀ fuel more, (report fuel).ending ≠ .unfinished → report (fuel + more) = report fuel) ∧
    ((∃ fuel, (report fuel).ending = .exit 1) ↔
      ∃ n f, (start.idle n).failure? = some f ∧ (start.idle n).Below most) := by
  intro start report
  have ran fuel : report fuel =
      ready.report (Emulator.Run.go fuel (ready.keypad.inputs signals) start).1
        (Emulator.Run.go fuel (ready.keypad.inputs signals) start).2 := by
    simp only [report, Emulator.run_of_boots boots, start]
  refine ⟨?_, ?_, ?_, ?_⟩
  · intro fuel
    rw [ran]
    rcases went : Emulator.Run.go fuel (ready.keypad.inputs signals) start with ⟨run, _ | halt | _⟩
    · exact .inr (.inl (Ready.report_finished silent))
    · obtain ⟨n, f, rfl, fails, -⟩ := quiet.failure_of_halted untouched below (congrArg Prod.snd went)
      exact .inr (.inr (Ready.report_crashed ((quiet.idle n).reported_of_failure fails)))
    · exact .inl rfl
  · intro fuel more ended
    rw [ran] at ended
    rw [ran, ran, Emulator.go_more (fun cut => ended (by rw [cut]; rfl))]
  · rintro ⟨fuel, failed⟩
    rw [ran] at failed
    rcases went : Emulator.Run.go fuel (ready.keypad.inputs signals) start with ⟨run, _ | halt | _⟩
    · rw [went] at failed
      cases failed
    · obtain ⟨n, f, -, fails, later⟩ := quiet.failure_of_halted untouched below (congrArg Prod.snd went)
      exact ⟨n, f, fails, later⟩
    · rw [went] at failed
      cases failed
  · rintro ⟨n, f, fails, later⟩
    obtain ⟨fuel, g, halted⟩ := quiet.halts untouched fails later
    obtain ⟨m, h, same, failed, -⟩ := quiet.failure_of_halted untouched below halted
    refine ⟨fuel, ?_⟩
    rw [ran, halted, same]
    exact (Ready.report_crashed ((quiet.idle m).reported_of_failure failed)).1

end

/-- From a command line that asks for no display, a session breaks off just if the name of its file stands for no
    path. Otherwise its status is zero once it has ended, and nothing is said, or one, and the user is told. It is
    one just if the file cannot be read or is too long, the keymap is refused, or an instruction fails while fewer
    are completed than there may be. -/
theorem headless_exit_status (w : World) {o : Options} {speed : Int} {most : Option Int} (h : Headless o speed most)
    (name keymap : Text.Wide) (palette : Option Text.Wide) :
    let report fuel := run fuel w (.ofWords o name keymap palette)
    (∀ e, w.read name = .error (.name e) → ∀ fuel, (report fuel).ending = .escaped (.badName e)) ∧
    ((∀ e, w.read name ≠ .error (.name e)) → ∀ fuel,
      (report fuel).ending = .unfinished ∨
      ((report fuel).ending = .exit 0 ∧ (report fuel).errorOutput = "") ∨
      ((report fuel).ending = .exit 1 ∧ (report fuel).errorOutput ≠ "")) ∧
    (∀ fuel more, (report fuel).ending ≠ .unfinished → report (fuel + more) = report fuel) ∧
    ((∃ fuel, (report fuel).ending = .exit 1) ↔
      (∃ e, w.read name = .error (.file e)) ∨
      ∃ bytes, w.read name = .ok bytes ∧
        (3584 < bytes.length ∨ (∃ e, Keypad.create .headless keymap.legible = .error e) ∨
          ∃ ready n f, prepare w (.ofWords o name keymap palette) = .ok ready ∧
            let later := (ready.emulator.started ready.time w.random).idle n
            later.failure? = some f ∧ ∀ limit ∈ most, (later.emulator.cycles : Int) < limit)) := by
  intro report
  have ended {refusal : Report} (prepared : prepare w (.ofWords o name keymap palette) = .error refusal) fuel :
      report fuel = refusal := by
    simp only [report, run, prepared]
  -- the file is read first, then the keymap; past both, only the run can fail
  rcases Headless.program_cases o name keymap palette w with
    ⟨e, escapes, unnamed⟩ | ⟨⟨told, refused⟩, cause⟩ | ⟨rom, loaded, found, fits⟩
  · have same := ended (h.prepare_of_trouble escapes)
    simp only [same, unnamed]
    refine ⟨?_, fun named => absurd rfl (named e), fun _ _ _ => trivial, ?_, ?_⟩
    · rintro e' ⟨⟩ _
      rfl
    · rintro ⟨_, status⟩
      cases status
    · rintro (⟨_, other⟩ | ⟨_, other, -⟩) <;> cases other
  · have same := ended (h.prepare_of_trouble refused)
    have refuses := Report.refuses_troubled none [] [] banner told
    simp only [same]
    refine ⟨?_, fun _ _ => .inr (.inr refuses), fun _ _ _ => trivial, fun _ => ?_, fun _ => ⟨0, refuses.1⟩⟩
    · intro e unnamed
      rcases cause with ⟨_, other⟩ | ⟨_, other, -⟩ <;> rw [unnamed] at other <;> cases other
    · exact cause.imp_right fun ⟨bytes, read, long⟩ => ⟨bytes, read, .inl long⟩
  · have named : ∀ e, w.read name ≠ .error (.name e) := by rw [found]; nofun
    refine ⟨fun e unnamed => absurd unnamed (named e), ?_⟩
    have long : ¬3584 < rom.length := Nat.not_lt.mpr fits
    rcases taken : Keypad.create .headless keymap.legible with e | k
    · obtain ⟨refusal, prepared, refuses⟩ := h.prepare_of_badKeymap loaded taken
      simp only [ended prepared]
      exact ⟨fun _ _ => .inr (.inr refuses), fun _ _ _ => trivial,
        fun _ => .inr ⟨rom, found, .inr (.inl ⟨e, rfl⟩)⟩, fun _ => ⟨0, refuses.1⟩⟩
    · obtain ⟨s, ready, prepared, rfl, limit, built, rfl, silent⟩ := h.prepare_of_fit loaded taken
      obtain ⟨boots, quiet, cycles⟩ := Emulator.quiet_of_build fits limit built w.random
      have below : (ready.emulator.started ready.time w.random).Below most := by
        intro n mem
        have above := h.above n mem
        omega
      have untouched := Keypad.untouched_of_headless taken w.signals
      obtain ⟨proper, settled, fails⟩ := ready.status silent boots quiet below untouched
      have ran fuel : report fuel =
          ready.report (ready.emulator.run fuel (ready.keypad.inputs w.signals) ready.time w.random).1
            (ready.emulator.run fuel (ready.keypad.inputs w.signals) ready.time w.random).2 := by
        simp only [report, run, prepared]
      simp only [ran]
      refine ⟨fun _ => proper, settled, ?_, ?_⟩
      · intro failed
        obtain ⟨n, f, failure, later⟩ := fails.mp failed
        exact .inr ⟨_, found, .inr (.inr ⟨ready, n, f, prepared, failure, later⟩)⟩
      · rintro (⟨e, missing⟩ | ⟨bytes, read, cause⟩)
        · rw [found] at missing
          cases missing
        · rw [found] at read
          cases read
          rcases cause with beyond | ⟨e, none⟩ | ⟨again, n, f, same, failure, later⟩
          · exact absurd beyond long
          · cases none
          · rw [prepared] at same
            cases same
            exact fails.mpr ⟨n, f, failure, later⟩

def World.idle (read : Text.Wide → Except ReadError (List UInt8)) (libraries : Libraries) : World :=
  ⟨read, libraries, .common, Display.Host.ample_common, (24, 80), .ofFn fun k => 1000 * k, .ofFn fun _ => 0, []⟩

def bare : World := .idle Folder.empty.read ⟨false, false⟩

def brief : Options := { filename := "", renderer := some (.given "null"), maxCycles := some (.given 3) }

theorem headless_brief : Headless brief 1000 (some 3) := ⟨rfl, rfl, rfl, by decide, by decide⟩

/-- There is no file. -/
theorem headless_exit_status_without_file :
    ∃ fuel, (run fuel bare (.ofWords brief (.ofString "missing.ch8") (.ofString Keypad.Keymap.standard) none)).ending =
      .exit 1 := by
  have missing : bare.read (.ofString "missing.ch8") = .error (.file .notFound) := by with_unfolding_all rfl
  obtain ⟨-, -, -, fails⟩ := headless_exit_status bare headless_brief (.ofString "missing.ch8")
    (.ofString Keypad.Keymap.standard) none
  exact fails.mpr (.inl ⟨_, missing⟩)

/-- A half of a surrogate pair has no bytes, so it is not even a name of a file that is not there. -/
theorem name_without_path_breaks_off :
    let name : Text.Wide := [.half 0]
    Text.Point.char (Char.ofNat 0) ∉ name ∧ Headless brief 1000 (some 3) ∧
      ∀ fuel, (run fuel bare (.ofWords brief name (.ofString Keypad.Keymap.standard) none)).ending =
        .escaped (.badName .unencodable) := by
  intro name
  refine ⟨by decide, headless_brief, fun fuel => ?_⟩
  have escapes : (Arguments.ofWords brief name (.ofString Keypad.Keymap.standard) none).program bare =
      .error (.escaped (.badName .unencodable)) := by with_unfolding_all rfl
  simp only [run, headless_brief.prepare_of_trouble escapes]
  rfl

end Session

end Chip8
