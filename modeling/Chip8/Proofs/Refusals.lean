/-
  Chip8.Proofs.Refusals — what is left of a screen when a call of it fails.

  A new size is taken in steps: first the width and the height, then the plane, then the display is told, and
  then the screen is marked. There may be no room for the plane, and the display may refuse the size; what was
  done before is not undone. No other call that fails changes anything (`Leaves`, `leaves_of_call`).

  So the width and the height of a screen are those that were asked for last, refused or not, and its plane has
  the size that there was room for last (`Sized.calls`). The two are the same just if there is room for the
  width and the height that the screen has: a size without room puts them apart, and only a size with room
  brings them together again (`plane_has_last_size_with_room`). Every byte is 0 or 1 in any case.
-/
import Chip8.Display.Headless
import Chip8.Display.Terminal
import Chip8.Proofs.Requests

namespace Chip8.Screen

open Display (Command Headless Host Terminal)

/-! ## Calls -/

/-- What can be asked of a screen, for sizes and points of any kind. -/
inductive Call where
  | resize (width height : Int)
  | clear
  | flip (x y : Int)
  | isSet (x y : Int)
  | refresh
  deriving DecidableEq, Repr

namespace Call

def size? : Call → Option (Int × Int)
  | resize width height => some (width, height)
  | _ => none

def sizes (calls : List Call) : List (Int × Int) := calls.filterMap size?

end Call

def area (size : Int × Int) : Int := size.1 * size.2

/-- Is there room for a plane of a size? -/
def HasRoom (room : Nat) (size : Int × Int) : Prop := Size.Fits room (area size)

instance (room : Nat) : DecidablePred (HasRoom room) := fun _ => inferInstanceAs (Decidable (Size.Fits _ _))

namespace Attached

variable {δ ε : Type} (room : Nat) (apply : δ → Command → δ × Option ε)

def call (v : Attached δ) : Call → Attached δ × Option (Failure ε)
  | .resize width height =>
    match v.screen.resize room width height with
    | (s, .error f) => ({ v with screen := s }, some (.fault f))
    | (s, .ok command) => v.tell apply s command
  | .clear => ({ v with screen := v.screen.clear }, none)
  | .flip x y =>
    match v.screen.flip x y with
    | .error f => (v, some (.fault f))
    | .ok (s, _) => ({ v with screen := s }, none)
  | .isSet x y =>
    match v.screen.isSet x y with
    | .error f => (v, some (.fault f))
    | .ok _ => (v, none)
  | .refresh => v.tell apply v.screen.frame.1 v.screen.frame.2

def calls (v : Attached δ) (cs : List Call) : Attached δ := cs.foldl (fun v c => (v.call room apply c).1) v

end Attached

section

variable {room : Nat} {s : Screen} {w h : Int}

/-! ## Calls that fail -/

inductive Leaves (room : Nat) (s : Screen) : Call → Screen → Prop
  /-- There is no room for the size. -/
  | noRoom {w h : Int} : ¬HasRoom room (w, h) → Leaves room s (.resize w h) { s with width := w, height := h }
  /-- The display refuses the size. The old pixels are gone, and the screen need not be marked. -/
  | notShown {w h : Int} : HasRoom room (w, h) →
      Leaves room s (.resize w h) { s with width := w, height := h, plane := .zeros (w * h).toNat }
  | other {c : Call} : c.size? = none → Leaves room s c s

variable {δ ε : Type} {apply : δ → Command → δ × Option ε} {v : Attached δ}

variable (apply) in
theorem Attached.marked_of_tell (s : Screen) (command : Command) :
    ∃ mark, (v.tell apply s command).1.screen = { s with dirty := mark } := by
  unfold tell
  split
  · exact ⟨s.dirty, rfl⟩
  · exact ⟨v.screen.dirty, rfl⟩

theorem Attached.screen_of_tell {failure : Failure ε} {command : Command}
    (failed : (v.tell apply s command).2 = some failure) :
    (v.tell apply s command).1.screen = { s with dirty := v.screen.dirty } := by
  unfold tell at failed ⊢
  split at failed
  · cases failed
  · rfl

theorem Attached.tell_eq_none (command : Command) :
    (v.tell apply s command).2 = none ↔ (apply v.display command).2 = none := by
  unfold tell
  split
  · next told => simp [told]
  · next told => simp [told]

theorem leaves_of_call {c : Call} {failure : Failure ε} (failed : (v.call room apply c).2 = some failure) :
    Leaves room v.screen c (v.call room apply c).1.screen := by
  cases c with
  | resize w h =>
    by_cases fits : HasRoom room (w, h)
    · have sized := v.screen.resize_of_fits fits
      simp only [Attached.call, sized] at failed ⊢
      rw [Attached.screen_of_tell failed]
      exact .notShown fits
    · obtain ⟨e, sized⟩ := v.screen.resize_of_not_fits fits
      simp only [Attached.call, sized]
      exact .noRoom fits
  | clear => cases failed
  | flip x y =>
    simp only [Attached.call] at failed ⊢
    split at failed
    · exact .other rfl
    · cases failed
  | isSet x y =>
    simp only [Attached.call] at failed ⊢
    split at failed
    · exact .other rfl
    · cases failed
  | refresh =>
    simp only [Attached.call] at failed ⊢
    rw [Attached.screen_of_tell failed]
    exact .other rfl

/-- A size is refused for want of room, or by the display, and for no other reason. -/
theorem resize_eq_none :
    (v.call room apply (.resize w h)).2 = none ↔
      HasRoom room (w, h) ∧ (apply v.display (.resolution w h)).2 = none := by
  by_cases fits : HasRoom room (w, h)
  · simp only [Attached.call, v.screen.resize_of_fits fits, Attached.tell_eq_none, fits, true_and]
  · obtain ⟨e, sized⟩ := v.screen.resize_of_not_fits fits
    simp [Attached.call, sized, fits]

/-! ## Any calls -/

/-- Does a screen have the size that was asked for last, and its plane one that there was room for? The two
    are the same if there was room for the first. -/
structure Sized (room : Nat) (s : Screen) (asked granted : Int × Int) : Prop where
  width : s.width = asked.1
  height : s.height = asked.2
  size : s.plane.size = area granted
  fits : HasRoom room granted
  same : HasRoom room asked → granted = asked
  binary : s.Binary

namespace Sized

variable {asked granted : Int × Int}

theorem drawn {t : Screen} (sized : Sized room s asked granted) (drawn : Drawn s t) : Sized room t asked granted where
  width := drawn.width.trans sized.width
  height := drawn.height.trans sized.height
  size := by rw [Memory.size, drawn.size]; exact sized.size
  fits := sized.fits
  same := sized.same
  binary := drawn.binary sized.binary

theorem marked (sized : Sized room s asked granted) (mark : Bool) : Sized room { s with dirty := mark } asked granted :=
  ⟨sized.width, sized.height, sized.size, sized.fits, sized.same, sized.binary⟩

variable (apply)

theorem tell (sized : Sized room s asked granted) (command : Command) :
    Sized room (v.tell apply s command).1.screen asked granted := by
  obtain ⟨mark, told⟩ := v.marked_of_tell apply s command
  rw [told]
  exact sized.marked mark

/-- A plane that was just made. -/
theorem fresh (s : Screen) (fits : HasRoom room (w, h)) : Sized room (s.resize room w h).1 (w, h) (w, h) := by
  rw [s.resize_of_fits fits]
  refine ⟨rfl, rfl, ?_, fits, fun _ => rfl, ?_⟩
  · rw [Memory.size_zeros]
    exact Int.toNat_of_nonneg fits.2.1
  · intro b mem
    exact .inl (Array.eq_of_mem_replicate mem)

theorem resize (sized : Sized room v.screen asked granted) (w h : Int) :
    Sized room (v.call room apply (.resize w h)).1.screen (w, h)
      (if HasRoom room (w, h) then (w, h) else granted) := by
  by_cases fits : HasRoom room (w, h)
  · have fresh := fresh v.screen fits
    rw [if_pos fits]
    simp only [v.screen.resize_of_fits fits] at fresh
    simp only [Attached.call, v.screen.resize_of_fits fits]
    exact fresh.tell apply _
  · obtain ⟨e, refused⟩ := v.screen.resize_of_not_fits fits
    rw [if_neg fits]
    simp only [Attached.call, refused]
    exact ⟨rfl, rfl, sized.size, sized.fits, fun has => absurd has fits, sized.binary⟩

theorem other {c : Call} (sized : Sized room v.screen asked granted) (other : c.size? = none) :
    Sized room (v.call room apply c).1.screen asked granted := by
  cases c with
  | resize w h => cases other
  | clear => exact sized.drawn v.screen.drawn_clear
  | flip x y =>
    have drawn := v.screen.drawn_flipAll [(x, y)]
    rw [← flip_eq_flipAll] at drawn
    simp only [Attached.call]
    rcases flipped : v.screen.flip x y with f | ⟨t, hit⟩
    · exact sized
    · rw [flipped] at drawn
      exact sized.drawn drawn
  | isSet x y =>
    simp only [Attached.call]
    split <;> exact sized
  | refresh => exact (sized.marked false).tell apply _

theorem calls (sized : Sized room v.screen asked granted) (cs : List Call) :
    Sized room (v.calls room apply cs).screen ((Call.sizes cs).getLastD asked)
      (((Call.sizes cs).filter (HasRoom room)).getLastD granted) := by
  refine last_sizes _ Call.size? (HasRoom room) (P := fun v : Attached δ => Sized room v.screen)
    (fun other sized => sized.other apply other) (fun {_ c _ _ new} asks sized => ?_) cs sized
  have resized : c = .resize new.1 new.2 := by
    cases c <;> cases asks
    rfl
  rw [resized]
  exact sized.resize apply new.1 new.2

/-- The plane has the size of the screen just if there is room for it. -/
theorem size_eq_iff (sized : Sized room s asked granted) :
    s.plane.size = s.width * s.height ↔ HasRoom room (s.width, s.height) := by
  rw [sized.width, sized.height, sized.size]
  constructor
  · intro same
    have fits := sized.fits
    rw [HasRoom, same] at fits
    exact fits
  · intro fits
    rw [sized.same fits]
    rfl

end Sized

theorem sized_of_create {wrapping : Bool} {greeting : List Command}
    (made : create room w h wrapping = .ok (s, greeting)) : Sized room s (w, h) (w, h) := by
  obtain ⟨size, resized, -⟩ := resize_of_create made
  by_cases fits : HasRoom room (w, h)
  · have fresh := Sized.fresh (unsized wrapping) fits
    rwa [resized] at fresh
  · obtain ⟨e, refused⟩ := (unsized wrapping).resize_of_not_fits fits
    rw [refused] at resized
    cases resized

end

/-- A size is taken as it is asked for, even one that is refused. So after any calls the width and the height of
    a screen are those of the last size that was asked for, and its plane is that of the last one that there was
    room for, with every byte 0 or 1. The plane has as many bytes as the width and the height ask for just if
    there is room for so many.

    Of the calls, a new size fails for want of room or by the display. For want of room the pixels and the mark
    stay as they were, and the width and the height do not; by the display only the mark stays. Any other call
    that fails changes nothing. -/
theorem plane_has_last_size_with_room {room : Nat} {width height : Int} {wrapping : Bool} {s : Screen}
    {greeting : List Command} (made : create room width height wrapping = .ok (s, greeting)) {δ ε : Type}
    (apply : δ → Command → δ × Option ε) (display : δ) (cs : List Call) :
    let v := (Attached.mk s display).calls room apply cs
    (v.screen.width, v.screen.height) = (Call.sizes cs).getLastD (width, height) ∧
    v.screen.plane.size = area (((Call.sizes cs).filter (HasRoom room)).getLastD (width, height)) ∧
    (∀ b ∈ v.screen.plane.bytes, b = 0 ∨ b = 1) ∧
    (v.screen.plane.size = v.screen.width * v.screen.height ↔ HasRoom room (v.screen.width, v.screen.height)) ∧
    (∀ w h, (v.call room apply (.resize w h)).2 = none ↔
      HasRoom room (w, h) ∧ (apply v.display (.resolution w h)).2 = none) ∧
    ∀ c failure, (v.call room apply c).2 = some failure → Leaves room v.screen c (v.call room apply c).1.screen := by
  intro v
  have sized : Sized room v.screen _ _ := (sized_of_create made).calls (v := ⟨s, display⟩) apply cs
  refine ⟨?_, sized.size, sized.binary, sized.size_eq_iff, fun w h => resize_eq_none, fun c failure => leaves_of_call⟩
  rw [sized.width, sized.height]

/-- A screen of eight pixels keeps them behind a size that cannot be counted. Then a terminal has no pad for a size
    that there is room for on the screen. -/
theorem plane_has_last_size_with_room_behind_refusals :
    let room := Host.common.room
    let apply := Terminal.obey .common (24, 80)
    let shown : Terminal := ⟨2, 0, 4, 2, 0, true, (-1, -1)⟩
    ∃ s greeting, create room 4 2 false = .ok (s, greeting) ∧
      let v := (Attached.mk s shown).calls room apply [.flip 1 1, .resize 0x10000000000 0x10000000000, .refresh]
      (v.screen.width, v.screen.height) = (0x10000000000, 0x10000000000) ∧ v.screen.plane.size = 8 ∧
      HasRoom room (20000, 1) ∧
      ∃ failure, (v.call room apply (.resize 20000 1)).2 = some failure ∧
        Leaves room v.screen (.resize 20000 1) (v.call room apply (.resize 20000 1)).1.screen := by
  intro room apply shown
  have made : create room 4 2 false = .ok _ := create_natCast 4 2 false (by decide)
  refine ⟨_, _, made, ?_⟩
  intro v
  obtain ⟨asked, granted, -, -, resized, left⟩ := plane_has_last_size_with_room made apply shown
    [.flip 1 1, .resize 0x10000000000 0x10000000000, .refresh]
  have left : ∀ c failure, (v.call room apply c).2 = some failure →
      Leaves room v.screen c (v.call room apply c).1.screen :=
    left
  have refused : (apply v.display (.resolution 20000 1)).2 = some .noPad := by decide +kernel
  have fails : (v.call room apply (.resize 20000 1)).2 ≠ none := by
    intro done
    rw [((resized 20000 1).mp done).2] at refused
    cases refused
  obtain ⟨failure, failed⟩ := Option.ne_none_iff_exists'.mp fails
  refine ⟨?_, ?_, by decide +kernel, failure, failed, left _ failure failed⟩
  · rw [asked]
    decide +kernel
  · rw [granted]
    decide +kernel

/-- A size that is refused is the size of the screen from then on: a pixel that was set is out of reach, and the
    plane has fewer bytes than the width and the height ask for. -/
theorem refused_sizes_are_taken :
    let room := Host.common.room
    let apply : Headless → Command → Headless × Option Empty := fun d command => (d.apply command, none)
    ∃ s greeting, create room 4 2 false = .ok (s, greeting) ∧
      let v := (Attached.mk s (.create none)).calls room apply [.flip 1 1, .refresh]
      let r := v.call room apply (.resize 0x10000000000 0x10000000000)
      r.2 = some (.fault (.badSize .uncountable)) ∧
      (v.screen.width, v.screen.height) = (4, 2) ∧
      (r.1.screen.width, r.1.screen.height) = (0x10000000000, 0x10000000000) ∧
      v.screen.isSet 1 1 = .ok true ∧ r.1.screen.isSet 1 1 = .error (.outOfRange 0x10000000001) ∧
      r.1.screen.plane.size ≠ r.1.screen.width * r.1.screen.height := by
  intro room apply
  refine ⟨_, _, create_natCast 4 2 false (by decide), ?_, ?_, ?_, rfl, rfl, ?_⟩
  all_goals decide +kernel

end Chip8.Screen
