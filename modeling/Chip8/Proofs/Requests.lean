/-
  Chip8.Proofs.Requests — what a screen is asked for, and what each request does to it.

  A request that draws touches pixels and the mark and nothing else (`Screen.Drawn`). A size without room leaves
  the pixels and is not passed on. These are all cases there are (`Screen.asked`). What is passed on the display
  may refuse (`Attached.ask`).

  After a history of requests, two sizes matter: the one that was asked for last, and the last one of those that
  were granted (`last_sizes`).
-/
import Chip8.Proofs.Changes

namespace Chip8

open Display (Command)

namespace Screen

inductive Request where
  | resize (width height : Nat)
  | clear
  | flip (x y : Int)
  | report (fps ops : Int)
  | refresh

namespace Request

def size? : Request → Option (Nat × Nat)
  | resize width height => some (width, height)
  | _ => none

def sizes (requests : List Request) : List (Nat × Nat) := requests.filterMap size?

end Request

section

variable (room : Nat)

/-- The screen after a request, and what it tells the display. A fault leaves what it left. -/
def ask (s : Screen) : Request → Screen × Option Command
  | .resize width height => (s.resize room width height).map id Except.toOption
  | .clear => (s.clear, none)
  | .flip x y => (((s.flip x y).toOption.map Prod.fst).getD s, none)
  | .report fps ops => (s, some (.title (About.title fps ops)))
  | .refresh => s.frame.map id some

def Attached.ask {δ ε : Type} (apply : δ → Command → δ × Option ε) (v : Attached δ) (r : Request) : Attached δ :=
  match v.screen.ask room r with
  | (s, none) => { v with screen := s }
  | (s, some command) => (v.tell apply s command).1

end

/-! ## New screens -/

theorem resize_of_create {room : Nat} {width height : Int} {wrapping : Bool} {s : Screen} {greeting : List Command}
    (made : create room width height wrapping = .ok (s, greeting)) :
    ∃ size, (unsized wrapping).resize room width height = (s, .ok size) ∧
      greeting = [size, .title (About.title 0 0)] := by
  unfold create at made
  rcases sized : (unsized wrapping).resize room width height with ⟨t, f | command⟩
  · rw [sized] at made
    cases made
  · rw [sized] at made
    cases made
    exact ⟨command, rfl, rfl⟩

/-- A new screen is one that was asked for its size, and then for a report. -/
theorem asked_of_create {room width height : Nat} {wrapping : Bool} {s : Screen} {greeting : List Command}
    (made : create room width height wrapping = .ok (s, greeting)) :
    ∃ size title, greeting = [size, title] ∧
      (unsized wrapping).ask room (.resize width height) = (s, some size) ∧
      s.ask room (.report 0 0) = (s, some title) := by
  obtain ⟨size, sized, rfl⟩ := resize_of_create made
  exact ⟨size, _, rfl, by rw [ask, sized]; rfl, by rw [ask]⟩

/-! ## Old screens -/

structure Drawn (s t : Screen) : Prop where
  kept : Kept s t
  width : t.width = s.width
  height : t.height = s.height
  size : t.plane.bytes.size = s.plane.bytes.size
  binary : s.Binary → t.Binary

theorem drawn_clear (s : Screen) : Drawn s s.clear :=
  ⟨.inl rfl, rfl, rfl, by simp [clear, Memory.cleared], fun _ => s.clear_binary⟩

theorem drawn_flipAll (s : Screen) (points : List (Int × Int)) : Drawn s (s.flipAll points).1 := by
  obtain ⟨plane, dirty, same⟩ := s.flipAll_frame points
  have size : (s.flipAll points).1.plane.bytes.size = s.plane.bytes.size := by
    refine flipAll_preserves (P := fun t => t.plane.bytes.size = s.plane.bytes.size) ?_ points rfl
    intro t x y p old kept _
    simpa [toggle, Memory.stored] using kept
  exact ⟨s.kept_flipAll points, by rw [same], by rw [same], size, fun binary => flipAll_binary binary points⟩

theorem flip_eq_flipAll (s : Screen) (x y : Int) :
    ((s.flip x y).toOption.map Prod.fst).getD s = (s.flipAll [(x, y)]).1 := by
  unfold flip flipAll
  rcases s.pixel? x y with f | _ | ⟨p, old⟩ <;> rfl

inductive Asked (room : Nat) (s : Screen) : Request → Screen → Option Command → Prop
  | sized {w h : Nat} : Size.Fits room (w * h) →
      Asked room s (.resize w h) { s with width := w, height := h, plane := .zeros (w * h), dirty := true }
        (some (.resolution w h))
  | noRoom {w h : Nat} : ¬Size.Fits room (w * h) → Asked room s (.resize w h) { s with width := w, height := h } none
  | drawn {r : Request} {t : Screen} : r.size? = none → Drawn s t → Asked room s r t none
  | reported (fps ops : Int) : Asked room s (.report fps ops) s (some (.title (About.title fps ops)))
  | framed : Asked room s .refresh s.frame.1 (some s.frame.2)

theorem asked (room : Nat) (s : Screen) (r : Request) :
    ∃ t command, s.ask room r = (t, command) ∧ Asked room s r t command := by
  cases r with
  | resize w h =>
    by_cases fits : Size.Fits room ((w : Int) * h)
    · refine ⟨_, _, ?_, .sized fits⟩
      rw [ask, resize_of_fits s fits, ← Int.natCast_mul, Int.toNat_natCast]
      rfl
    · obtain ⟨e, refused⟩ := s.resize_of_not_fits fits
      exact ⟨_, _, by rw [ask, refused]; rfl, .noRoom fits⟩
  | clear => exact ⟨_, _, rfl, .drawn rfl s.drawn_clear⟩
  | flip x y => exact ⟨_, _, by rw [ask, flip_eq_flipAll], .drawn rfl (s.drawn_flipAll _)⟩
  | report fps ops => exact ⟨_, _, rfl, .reported fps ops⟩
  | refresh => exact ⟨_, _, rfl, .framed⟩

/-! ## Displays -/

namespace Attached

variable {room : Nat} {δ ε : Type} {apply : δ → Command → δ × Option ε} {v : Attached δ} {r : Request} {s : Screen}

theorem ask_untold (asked : v.screen.ask room r = (s, none)) : v.ask room apply r = ⟨s, v.display⟩ := by
  rw [ask, asked]

theorem ask_taken {command : Command} {d : δ} (asked : v.screen.ask room r = (s, some command))
    (taken : apply v.display command = (d, none)) : v.ask room apply r = ⟨s, d⟩ := by
  simp only [ask, asked, tell, taken]

theorem ask_refused {command : Command} {d : δ} {e : ε} (asked : v.screen.ask room r = (s, some command))
    (refused : apply v.display command = (d, some e)) :
    v.ask room apply r = ⟨{ s with dirty := v.screen.dirty }, d⟩ := by
  simp only [ask, asked, tell, refused]

/-- A display that refuses a size has been told too late: the pixels are gone, and the mark is as it was. -/
theorem ask_resize_of_refused {w h : Nat} (fits : Size.Fits room (w * h)) {d : δ} {e : ε}
    (refused : apply v.display (.resolution w h) = (d, some e)) :
    v.ask room apply (.resize w h) =
      ⟨{ v.screen with width := w, height := h, plane := .zeros (w * h) }, d⟩ := by
  obtain ⟨s, command, asked, step⟩ := v.screen.asked room (.resize w h)
  cases step with
  | sized _ => exact ask_refused asked refused
  | noRoom large => exact absurd fits large
  | drawn other => cases other

end Attached

/-- What each step keeps of the size that was asked for last and of the last one that was granted, all steps
    keep. -/
theorem last_sizes {σ ρ α : Type} (step : σ → ρ → σ) (size? : ρ → Option α) (granted : α → Prop)
    [DecidablePred granted] {P : σ → α → α → Prop}
    (other : ∀ {s r a g}, size? r = none → P s a g → P (step s r) a g)
    (sized : ∀ {s r a g new}, size? r = some new → P s a g → P (step s r) new (if granted new then new else g))
    (rs : List ρ) {s : σ} {a g : α} (start : P s a g) :
    P (rs.foldl step s) ((rs.filterMap size?).getLastD a) (((rs.filterMap size?).filter granted).getLastD g) := by
  -- From the front: the sizes that the first request leaves are those that the rest starts from.
  induction rs generalizing s a g with
  | nil => exact start
  | cons r rest ih =>
    cases asked : size? r with
    | none =>
      rw [List.filterMap_cons_none asked]
      exact ih (other asked start)
    | some new =>
      have later := ih (sized asked start)
      rw [List.filterMap_cons_some asked, List.getLastD_cons, List.filter_cons]
      by_cases grants : granted new
      · rw [if_pos grants] at later
        rw [if_pos (decide_eq_true grants), List.getLastD_cons]
        exact later
      · rw [if_neg grants] at later
        rw [if_neg (by simpa using grants)]
        exact later

end Screen

end Chip8
