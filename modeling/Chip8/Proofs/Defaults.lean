/-
  Chip8.Proofs.Defaults — a setting that is left open counts as its default, but for two.

  A plan and an emulator come out the same whether a setting is unset or has the value that it has for a bare
  command line (`plan_unset`, `assemble_unset`), and so does a display, but for the cursor of a terminal
  (`openDisplay_unset`). The cursor mode and the keymap have a default on the command line only: unset, they stop
  a session that comes to them, while their defaults are taken. So sessions are the same, whatever the host does,
  just where none of the two stands in the way (`run_unset_iff`).
-/
import Chip8.Proofs.Preparing
import Mathlib.Data.Finset.Piecewise

namespace Chip8.Session

variable (w : World) (s : Entry → Setting) (left : Finset Entry)

/-! ## Settings that are left open -/

def unset : Entry → Setting := left.piecewise (fun _ => .unset) s

/-- The settings with some of them as on a bare command line. -/
def usual : Entry → Setting := left.piecewise (standard "") s

variable {w s left}

theorem unset_eq {e : Entry} (plain : standard "" e = .unset) : unset s left e = usual s left e := by
  rw [unset, usual, Finset.piecewise, Finset.piecewise, plain]

theorem unset_of_notMem {e : Entry} (kept : e ∉ left) : unset s left e = usual s left e := by
  rw [unset, usual, Finset.piecewise_eq_of_notMem _ _ _ kept, Finset.piecewise_eq_of_notMem _ _ _ kept]

theorem unset_of_mem {e : Entry} (absent : e ∈ left) : unset s left e = .unset ∧ usual s left e = standard "" e :=
  ⟨Finset.piecewise_eq_of_mem _ _ _ absent, Finset.piecewise_eq_of_mem _ _ _ absent⟩

/-! ## Stages -/

theorem plan_unset (named : .filename ∉ left) :
    (Arguments.ofEntries (unset s left)).plan w = (Arguments.ofEntries (usual s left)).plan w := by
  simp only [Arguments.plan, Arguments.dialect, Arguments.program, Arguments.frontend, Arguments.ofEntries,
    unset_of_notMem named, unset_eq (e := .shift) rfl, unset_eq (e := .load) rfl, unset_eq (e := .logic) rfl,
    unset_eq (e := .renderer) rfl, unset_eq (e := .mute) rfl]

/-- Without a cursor mode a terminal's display fails just after it would have been opened. -/
theorem openTerminal_unset (host : Display.Host) (scale : Setting) : openTerminal host scale .unset = (do
    let _ ← openTerminal host scale (.ofInt 0)
    .error (.escaped .notNumber)) := by
  simp only [openTerminal]
  rcases columns? scale with trouble | columns
  · rfl
  · rfl

theorem openDisplay_unset (host : Display.Host) (frontend : Frontend) :
    openDisplay host frontend (look (unset s left)) =
      if frontend = .terminal ∧ .cursorMode ∈ left then (do
        let _ ← openDisplay host frontend (look (usual s left))
        .error (.escaped .notNumber))
      else openDisplay host frontend (look (usual s left)) := by
  have scale : unset s left .scale = usual s left .scale := unset_eq rfl
  have palette : unset s left .palette = usual s left .palette := unset_eq rfl
  cases frontend with
  | headless => rfl
  | window => simp only [openDisplay, look, scale, palette, reduceCtorEq, false_and, if_false]
  | terminal =>
    simp only [openDisplay, look, scale, true_and]
    split
    · next absent =>
      rw [(unset_of_mem absent).1, (unset_of_mem absent).2, openTerminal_unset]
      rfl
    · next kept => rw [unset_of_notMem kept]

theorem keypadOf_unset (frontend : Frontend) :
    keypadOf (unset s left) frontend =
      if .keymap ∈ left then .error (.escaped .notText) else keypadOf (usual s left) frontend := by
  split
  · next absent =>
    rw [keypadOf, (unset_of_mem absent).1]
    rfl
  · next kept => rw [keypadOf, keypadOf, unset_of_notMem kept]

/-- Every kind of keypad takes the keymap of a bare command line. -/
theorem keypadOf_usual (absent : .keymap ∈ left) (frontend : Frontend) :
    ∃ k, keypadOf (usual s left) frontend = .ok k := by
  have taken : ∃ k, Keypad.create frontend Keypad.Keymap.standard = .ok k := by
    have some : (Keypad.create frontend Keypad.Keymap.standard).isOk = true := by
      cases frontend <;> decide +kernel
    rcases made : Keypad.create frontend Keypad.Keymap.standard with e | k
    · rw [made] at some
      cases some
    · exact ⟨k, rfl⟩
  obtain ⟨k, made⟩ := taken
  refine ⟨k, ?_⟩
  rw [keypadOf, (unset_of_mem absent).2]
  simp only [standard, Setting.text?, made, mapError_ok]

theorem assemble_unset (plan : Plan) (display : Display) (keypad : Keypad) :
    assemble w (unset s left) plan display keypad = assemble w (usual s left) plan display keypad := by
  have speed : clockSpeed (unset s left .clockSpeed) = clockSpeed (usual s left .clockSpeed) := by
    by_cases mem : .clockSpeed ∈ left
    · rw [(unset_of_mem mem).1, (unset_of_mem mem).2]
      rfl
    · rw [unset_of_notMem mem]
  have debug : (unset s left .debug).isOn = (usual s left .debug).isOn := by
    by_cases mem : .debug ∈ left
    · rw [(unset_of_mem mem).1, (unset_of_mem mem).2]
      rfl
    · rw [unset_of_notMem mem]
  simp only [assemble, speed, debug, unset_eq (e := .wrap) rfl, unset_eq (e := .maxCycles) rfl]

/-! ## Sessions -/

variable (w s left) in
/-- Does a session come to a setting that is left open and has no default there? -/
def Stumbles : Prop :=
  ∃ plan display, (Arguments.ofEntries (usual s left)).plan w = .ok plan ∧
    openDisplay w.host plan.frontend (look (usual s left)) = .ok display ∧
    (plan.frontend = .terminal ∧ .cursorMode ∈ left ∨ .keymap ∈ left)

theorem prepare_unset (named : .filename ∉ left) (goes : ¬Stumbles w s left) :
    prepare w (.ofEntries (unset s left)) = prepare w (.ofEntries (usual s left)) := by
  rw [prepare_ofEntries, prepare_ofEntries, plan_unset named]
  rcases planned : (Arguments.ofEntries (usual s left)).plan w with trouble | plan
  · rfl
  · simp only [mapError_ok, bind, Except.bind, openDisplay_unset, keypadOf_unset, assemble_unset]
    rcases shown : openDisplay w.host plan.frontend (look (usual s left)) with trouble | display
    · simp only [ite_self, mapError_error]
    · have here (way : plan.frontend = .terminal ∧ .cursorMode ∈ left ∨ .keymap ∈ left) : False :=
        goes ⟨plan, display, planned, shown, way⟩
      rw [if_neg fun cursor => here (.inl cursor), if_neg fun keymap => here (.inr keymap)]

/-- A session that stumbles breaks off, before a part is open that would have been opened. -/
theorem stumbles (named : .filename ∉ left) (comes : Stumbles w s left) :
    ∃ report cause deed, prepare w (.ofEntries (unset s left)) = .error report ∧ report.ending = .escaped cause ∧
      (cause = .notText ∨ cause = .notNumber) ∧
      deed ∉ report.log ∧ ∀ fuel, deed ∈ (run fuel w (.ofEntries (usual s left))).log := by
  obtain ⟨plan, display, planned, shown, way⟩ := comes
  have alike : (Arguments.ofEntries (unset s left)).plan w = .ok plan := (plan_unset named).trans planned
  -- the display is opened first, so the cursor stands in the way even where the keymap does as well
  by_cases cursor : plan.frontend = .terminal ∧ .cursorMode ∈ left
  · have failed : openDisplay w.host plan.frontend (look (unset s left)) = .error (.escaped .notNumber) := by
      rw [openDisplay_unset, if_pos cursor, shown]
      rfl
    exact ⟨_, .notNumber, .opened .display, prepare_of_noDisplay alike failed, rfl, .inr rfl,
      by simp [Report.troubled], display_mem_log planned shown⟩
  · have keymap : .keymap ∈ left := way.resolve_left cursor
    have opens : openDisplay w.host plan.frontend (look (unset s left)) = .ok display := by
      rw [openDisplay_unset, if_neg cursor, shown]
    have failed : keypadOf (unset s left) plan.frontend = .error (.escaped .notText) := by
      rw [keypadOf_unset, if_pos keymap]
    obtain ⟨keypad, made⟩ := keypadOf_usual (s := s) keymap plan.frontend
    exact ⟨_, .notText, .opened .keypad, prepare_of_noKeypad alike opens failed, rfl, .inl rfl,
      by simp [Report.troubled, opening], opening_mem_log planned shown made (by decide)⟩

/-- Settings that are left open count as those of a bare command line, unless the session comes to a cursor mode
    or a keymap among them. Then it breaks off. -/
theorem run_unset_iff (w : World) (s : Entry → Setting) (left : Finset Entry) (named : .filename ∉ left) (fuel : Nat) :
    (run fuel w (.ofEntries (unset s left)) = run fuel w (.ofEntries (usual s left)) ↔ ¬Stumbles w s left) ∧
    (Stumbles w s left → ∃ cause, (cause = .notText ∨ cause = .notNumber) ∧
      (run fuel w (.ofEntries (unset s left))).ending = .escaped cause) := by
  refine ⟨⟨?_, ?_⟩, ?_⟩
  · intro same comes
    obtain ⟨report, cause, deed, failed, -, -, undone, done⟩ := stumbles named comes
    refine undone ?_
    rw [← run_of_error failed fuel, same]
    exact done fuel
  · intro goes
    rw [run, run, prepare_unset named goes]
  · intro comes
    obtain ⟨report, cause, deed, failed, ending, what, -⟩ := stumbles named comes
    refine ⟨cause, what, ?_⟩
    rw [run_of_error failed]
    exact ending

/-- All is left open but the file and the keymap, and there is a window. -/
theorem run_unset_in_a_window :
    let w : World := .idle (fun _ => .ok []) ⟨true, false⟩
    let s : Entry → Setting := fun e => if e = .filename then .text "empty.ch8" else .text Keypad.Keymap.standard
    let left : Finset Entry := {.clockSpeed, .renderer, .scale, .mute, .cursorMode, .palette, .shift, .load, .logic,
      .wrap, .maxCycles, .debug}
    .filename ∉ left ∧ run 1 w (.ofEntries (unset s left)) = run 1 w (.ofEntries (usual s left)) := by
  intro w s left
  have named : .filename ∉ left := by decide
  have goes : ¬Stumbles w s left := by
    rintro ⟨plan, -, planned, -, ⟨terminal, -⟩ | keymap⟩
    · have window : ((Arguments.ofEntries (usual s left)).plan w).map Plan.frontend = .ok .window := by decide
      rw [planned] at window
      exact absurd (terminal.symm.trans (Except.ok.inj window)) (by decide)
    · exact absurd keymap (by decide)
  exact ⟨named, (run_unset_iff w s left named 1).1.mpr goes⟩

/-- Without a display a program runs to its limit with the keymap of a bare command line, and not at all with
    none. -/
theorem unset_keymap_breaks_off :
    let w : World := .idle (fun _ => .ok [0x12, 0x00]) ⟨false, false⟩
    let s : Entry → Setting := fun e =>
      if e = .renderer then .text Frontend.headlessChoice
      else if e = .maxCycles then .ofInt 1 else standard "loop.ch8" e
    let left : Finset Entry := {.keymap}
    .filename ∉ left ∧ (run 1 w (.ofEntries (usual s left))).ending = .exit 0 ∧
      (run 1 w (.ofEntries (unset s left))).ending = .escaped .notText := by
  decide +kernel

end Chip8.Session
