/-
  Chip8.Proofs.Pressing — the keys of a window are held from press to release.

  An event of a window concerns one code at most, and it sets the key of that code or leaves all keys alone
  (`held_handle`). So a key is held just if the last event of its code was a press (`held_after`), and neither
  the batches in which the events were polled nor the events of the control keys matter: the controls are no
  keys of a keymap that was read (`Controlled`).
-/
import Chip8.Proofs.Keymaps
import Chip8.Proofs.Polls
import Mathlib.Data.List.Induction

namespace Chip8.Keypad

/-! ## Events -/

namespace WindowEvent

def IsOf (code : Int) (e : WindowEvent) : Prop := e = .down code ∨ e = .up code

instance (code : Int) : DecidablePred (IsOf code) := fun _ => inferInstanceAs (Decidable (_ ∨ _))

/-- What an event asks of the emulator: a press of Escape, of the space bar or of Backspace, or the closing of
    the window. -/
def request? : WindowEvent → Option HostEvent
  | .down code =>
    if code = 27 then some .quit else if code = 32 then some .pause else if code = 8 then some .reset else none
  | .up _ => none
  | .close => some .quit
  | .other => none

def isControl : WindowEvent → Bool
  | .down code | .up code => [27, 32, 8].contains code
  | .close | .other => false

end WindowEvent

namespace Window

variable {w : Window} {codes : Fin 16 → Int} {e : WindowEvent} {events : List WindowEvent} {k : Fin 16}

/-- Are these the codes of a window's keys, and the controls none of them? -/
abbrev Controlled (w : Window) (codes : Fin 16 → Int) : Prop := w.keymap.Serves Controls.keyboard.codes codes

theorem controlled_of_create {keymap : String} (made : create keymap = .ok w) :
    ∃ codes, Keymap.Defines false Controls.keyboard.codes keymap.toList codes ∧ w.Controlled codes ∧
      w.held = Keys.none := by
  cases parsed : Keymap.parse false Controls.keyboard.codes keymap.toList with
  | error e =>
    simp only [create, parsed] at made
    cases made
  | ok m =>
    simp only [create, parsed] at made
    cases made
    obtain ⟨codes, defines, serves⟩ := Keymap.serves_of_parse parsed
    exact ⟨codes, defines, serves, rfl⟩

theorem event?_keyboard (code : Int) : Controls.keyboard.event? code = (WindowEvent.down code).request? := by
  rw [WindowEvent.request?]
  split
  · next same => rw [same]; rfl
  · next notEscape =>
    split
    · next same => rw [same]; rfl
    · next notSpace =>
      split
      · next same => rw [same]; rfl
      · next notBackspace =>
        simp [Controls.event?, Controls.keyboard, Ne.symm notEscape, Ne.symm notSpace, Ne.symm notBackspace]

/-! ## One event -/

theorem keymap_mark (w : Window) (code : Int) (held : Bool) : (w.mark code held).keymap = w.keymap := by
  unfold mark
  split <;> rfl

theorem keymap_handle (w : Window) (e : WindowEvent) : (w.handle e).1.keymap = w.keymap := by
  cases e with
  | down code =>
    rw [handle]
    split
    · rfl
    · exact w.keymap_mark code true
  | up code => exact w.keymap_mark code false
  | close | other => rfl

theorem Controlled.of_keymap {v : Window} (controlled : w.Controlled codes) (same : v.keymap = w.keymap) :
    v.Controlled codes := by
  rw [Controlled, same]
  exact controlled

theorem request_handle (w : Window) (e : WindowEvent) : (w.handle e).2 = e.request? := by
  cases e with
  | down code =>
    rw [handle, event?_keyboard]
    split
    · next asked => exact asked.symm
    · next unasked => exact unasked.symm
  | up code | close | other => rfl

theorem mark_of_unmapped {code : Int} {held : Bool} (unmapped : w.keymap.key? code = none) : w.mark code held = w := by
  rw [mark, unmapped]

/-- A code is that of one key, or of none. -/
theorem held_mark (controlled : w.Controlled codes) (code : Int) (held : Bool) :
    (w.mark code held).held.held k = if code = codes k then held else w.held.held k := by
  cases selected : w.keymap.key? code with
  | none => rw [mark_of_unmapped selected, if_neg (controlled.ne_of_none selected k)]
  | some j =>
    rw [mark, selected]
    simp only [Keys.held, Fin.getElem_fin, Vector.getElem_setIfInBounds, Fin.val_inj, controlled.eq_iff selected]

/-- A press sets the key of its code, whether or not the code is kept for a control: then there is no key. -/
theorem handle_down (controlled : w.Controlled codes) (code : Int) : (w.handle (.down code)).1 = w.mark code true := by
  rw [handle]
  split
  · next asked =>
    rw [mark_of_unmapped (controlled.free code (Controls.mem_codes_of_event? asked))]
  · rfl

/-- An event of a control key leaves the keys alone. -/
theorem handle_control (controlled : w.Controlled codes) (control : e.isControl = true) : (w.handle e).1 = w := by
  have unmapped (code : Int) (kept : [27, 32, 8].contains code = true) : w.keymap.key? code = none :=
    controlled.free code (List.contains_iff_mem.mp kept)
  cases e with
  | down code => rw [handle_down controlled, mark_of_unmapped (unmapped code control)]
  | up code => exact mark_of_unmapped (unmapped code control)
  | close | other => cases control

/-- A key is held after a press of its code, and after any event of another code if it was held before. -/
theorem held_handle (controlled : w.Controlled codes) :
    (w.handle e).1.held.held k = true ↔
      (e.IsOf (codes k) ∧ WindowEvent.down (codes k) = e) ∨ (¬e.IsOf (codes k) ∧ w.held.held k = true) := by
  cases e with
  | down code =>
    rw [handle_down controlled, held_mark controlled]
    by_cases same : code = codes k
    · simp [WindowEvent.IsOf, same]
    · simp [WindowEvent.IsOf, same, Ne.symm same]
  | up code =>
    rw [handle, held_mark controlled]
    by_cases same : code = codes k <;> simp [WindowEvent.IsOf, same]
  | close | other => simp [WindowEvent.IsOf, handle]

/-! ## Many events -/

/-- A keypad after events, in whatever batches they were polled. -/
def after (w : Window) (events : List WindowEvent) : Window := events.foldl (fun v e => (v.handle e).1) w

theorem after_append (w : Window) (before later : List WindowEvent) :
    w.after (before ++ later) = (w.after before).after later := List.foldl_append

theorem keymap_after (w : Window) (events : List WindowEvent) : (w.after events).keymap = w.keymap := by
  induction events generalizing w with
  | nil => rfl
  | cons e rest ih => exact (ih _).trans (w.keymap_handle e)

theorem Controlled.after (controlled : w.Controlled codes) (events : List WindowEvent) :
    (w.after events).Controlled codes := controlled.of_keymap (w.keymap_after events)

/-- A key is held just if the last event of its code was a press. -/
theorem held_after (controlled : w.Controlled codes) (unheld : w.held = Keys.none) :
    (w.after events).held.held k = true ↔ Latest (WindowEvent.IsOf (codes k)) events (.down (codes k)) := by
  induction events using List.reverseRecOn with
  | nil =>
    have free : (w.after []).held.held k = false := by
      simp [Window.after, unheld, Keys.held, Keys.none]
    simp [free, not_latest_nil]
  | append_singleton before e ih =>
    rw [after_append, latest_snoc, ← ih]
    exact held_handle (controlled.after before)

/-- The events of the control keys can be left out. -/
theorem after_uncontrolled (controlled : w.Controlled codes) :
    w.after (events.filter fun e => !e.isControl) = w.after events := by
  induction events generalizing w with
  | nil => rfl
  | cons e rest ih =>
    rw [List.filter_cons]
    split
    · exact ih (controlled.after [e])
    · next control =>
      have same : (w.handle e).1 = w := handle_control controlled (by simpa using control)
      rw [ih controlled, after, after, List.foldl_cons, same]

/-! ## Polls -/

/-- A batch leaves the keypad that its events leave, and comes to the verdict on their requests. -/
theorem handleAll_eq (w : Window) (event : Option HostEvent) (events : List WindowEvent) :
    w.handleAll event events = (w.after events, (events.filterMap WindowEvent.request?).foldl merge event) := by
  induction events generalizing w event with
  | nil => rfl
  | cons e rest ih =>
    simp only [handleAll, ih, request_handle]
    cases asked : e.request? with
    | none => rw [List.filterMap_cons_none asked]; rfl
    | some request => rw [List.filterMap_cons_some asked]; rfl

theorem poll_eq (w : Window) (events : List WindowEvent) :
    w.poll events = (w.after events, ⟨(w.after events).held, verdict (events.filterMap WindowEvent.request?)⟩) := by
  rw [poll, handleAll_eq, foldl_merge_none]

theorem pollAll_snd (w : Window) (signals : List Signals) :
    ((window w).pollAll signals).2 = window (w.after (signals.flatMap (·.events))) := by
  induction signals generalizing w with
  | nil => rfl
  | cons s rest ih =>
    rw [List.flatMap_cons, after_append, ← ih]
    simp only [pollAll, Keypad.poll, poll_eq]

def uncontrolled (s : Signals) : Signals := { s with events := s.events.filter fun e => !e.isControl }

theorem keys_uncontrolled (controlled : w.Controlled codes) (signals : List Signals) :
    ((window w).pollAll (signals.map uncontrolled)).1.map (·.keys) =
      ((window w).pollAll signals).1.map (·.keys) := by
  induction signals generalizing w with
  | nil => rfl
  | cons s rest ih =>
    simp only [List.map_cons, pollAll, Keypad.poll, poll_eq, uncontrolled, after_uncontrolled controlled]
    rw [ih (controlled.after s.events)]

/-- From any keymap that is read, and over any polls, a key is held after a poll just if the last event of its
    code so far was a press. A poll asks to quit if the window was closed or Escape was pressed in it, and else
    for what the last press of the space bar or of Backspace asks. The same events in other batches leave the
    same keypad, and without the events of the control keys the same keys are held after every poll. -/
theorem window_holds_pressed_keys {keymap : String} {w : Window} (made : create keymap = .ok w) :
    ∃ codes, Keymap.Defines false Controls.keyboard.codes keymap.toList codes ∧
      (∀ code k, w.keymap.key? code = some k ↔ code = codes k) ∧
      ∀ signals : List Signals,
        (∀ before s after, signals = before ++ s :: after →
          ∃ input, ((window w).pollAll signals).1[before.length]? = some input ∧
            (∀ k, input.keys.held k = true ↔
              Latest (WindowEvent.IsOf (codes k)) ((before ++ [s]).flatMap (·.events)) (.down (codes k))) ∧
            input.event = verdict (s.events.filterMap WindowEvent.request?)) ∧
        (∀ others : List Signals, others.flatMap (·.events) = signals.flatMap (·.events) →
          ((window w).pollAll others).2 = ((window w).pollAll signals).2) ∧
        ((window w).pollAll (signals.map uncontrolled)).1.map (·.keys) =
          ((window w).pollAll signals).1.map (·.keys) := by
  obtain ⟨codes, defines, controlled, unheld⟩ := controlled_of_create made
  refine ⟨codes, defines, controlled.selects, ?_⟩
  intro signals
  refine ⟨?_, ?_, keys_uncontrolled controlled signals⟩
  · rintro before s after rfl
    have events : (before ++ [s]).flatMap (·.events) = before.flatMap (·.events) ++ s.events := by simp
    refine ⟨_, pollAll_at _ before after s, ?_, ?_⟩
    · intro k
      rw [pollAll_snd, events, ← held_after controlled unheld, after_append]
      simp only [Keypad.poll, poll_eq]
    · rw [pollAll_snd]
      simp only [Keypad.poll, poll_eq]
  · intro others same
    rw [pollAll_snd, pollAll_snd, same]

/-- The window is closed in the first poll, and the reset behind it does not count. In the second the key of `X`
    comes up, that of `1` goes down, and the last request counts. -/
theorem window_holds_pressed_keys_past_a_quit :
    ∃ w, create Keymap.standard = .ok w ∧
      let first : Signals := { Signals.quiet with events := [.down 120, .down 32, .close, .down 8] }
      let second : Signals := { Signals.quiet with events := [.down 32, .up 120, .down 49, .down 8, .up 8] }
      ∃ before after, ((window w).pollAll [first, second]).1 = [before, after] ∧
        before.keys.held 0 = true ∧ before.event = some .quit ∧
        after.keys.held 0 = false ∧ after.keys.held 1 = true ∧ after.event = some .reset := by
  obtain ⟨w, made, x, one⟩ : ∃ w, create Keymap.standard = .ok w ∧ w.keymap.key? 120 = some 0 ∧
      w.keymap.key? 49 = some 1 := ⟨_, rfl, by decide, by decide⟩
  refine ⟨w, made, ?_⟩
  intro first second
  obtain ⟨codes, -, selects, polled⟩ := window_holds_pressed_keys made
  rw [selects] at x one
  obtain ⟨answers, -, -⟩ := polled [first, second]
  obtain ⟨before, early, keys, event⟩ := answers [] first [second] rfl
  obtain ⟨after, late, later, last⟩ := answers [first] second [] rfl
  refine ⟨before, after, ?_, ?_, event, ?_, ?_, last⟩
  · rw [List.getElem?_eq_some_iff] at early late
    obtain ⟨-, rfl⟩ := early
    obtain ⟨-, rfl⟩ := late
    rfl
  · rw [keys, ← x]
    exact ⟨[], _, rfl, .inl rfl, by decide⟩
  · rw [← Bool.not_eq_true, later, ← x]
    show ¬Latest _ (first.events ++ [.down 32] ++ [.up 120] ++ [.down 49] ++ [.down 8] ++ [.up 8]) _
    rw [latest_snoc, latest_snoc, latest_snoc, latest_snoc]
    simp [WindowEvent.IsOf]
  · rw [later, ← one]
    exact ⟨first.events ++ [.down 32, .up 120], _, rfl, .inl rfl, by decide⟩

end Window

end Chip8.Keypad
