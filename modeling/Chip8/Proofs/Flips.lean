/-
  Chip8.Proofs.Flips — flips may come in any order.

  On a screen whose plane has its size a flip is answered in one of two ways (`answers_flip`). A point that is
  dropped leaves the screen as it is, the mark included. A point that lands is answered with the pixel as it was
  and turns this pixel over, no other. So a sequence of flips never faults (`flipEach_eq`), and what is left of it
  is a parity for each pixel and the mark (`flipAll_pixel`, `flipAll_dirty`). Neither asks for the order of the
  points, and the pixels are all there is of a plane (`plane_eq_of_pixels`).
-/
import Chip8.Proofs.Pixels

namespace Chip8.Screen

variable {s t : Screen} {w h : Nat}

/-! ## One flip -/

structure Turned (s : Screen) (w h : Nat) (spot : Nat × Nat) (t : Screen) : Prop where
  pixel : t.pixel spot.1 spot.2 = s.pixel spot.1 spot.2 ^^^ 1
  others : ∀ a b, a < w → b < h → (a, b) ≠ spot → t.pixel a b = s.pixel a b
  rest : t = { s with plane := t.plane, dirty := true }
  size : t.plane.size = s.plane.size

/-- Is a flip answered by what is at its place, with this pixel turned over, or dropped without a trace? -/
def Answers (s : Screen) (w h : Nat) (point : Int × Int) : Prop :=
  match landing s.wrapping w h point with
  | none => s.flip point.1 point.2 = .ok (s, none)
  | some (a, b) => a < w ∧ b < h ∧ ∃ t old,
      s.isSet a b = .ok old ∧ s.flip point.1 point.2 = .ok (t, some old) ∧ s.Turned w h (a, b) t

theorem isSet_eq {a b : Nat} (shaped : s.Shaped w h) (ha : a < w) (hb : b < h) :
    s.isSet a b = .ok (s.pixel a b != 0) := by
  show (s.plane.read (b * s.width + a) >>= _) = _
  rw [Memory.read_eq, if_pos (inBank_place shaped ha hb)]
  rfl

theorem turned_flipped {spot : Nat × Nat} (shaped : s.Shaped w h) (ha : spot.1 < w) (hb : spot.2 < h) :
    s.Turned w h spot (s.flipped spot) where
  pixel := (pixel_flipped shaped ha hb ha).trans (if_pos rfl)
  others a b column _ other := (pixel_flipped shaped ha hb column).trans (if_neg (Ne.symm other))
  rest := rfl
  size := by simp [flipped, toggle, Memory.stored, Memory.size]

theorem flip_dropped {point : Int × Int} (shaped : s.Shaped w h) (wide : 1 ≤ w) (high : 1 ≤ h)
    (clean : Clean s.wrapping point) (drops : landing s.wrapping w h point = none) :
    s.flip point.1 point.2 = .ok (s, none) := by
  have read := pixel?_eq shaped wide high clean
  rw [drops] at read
  rw [flip, read]
  rfl

theorem flip_landed {point : Int × Int} {spot : Nat × Nat} (shaped : s.Shaped w h) (wide : 1 ≤ w) (high : 1 ≤ h)
    (clean : Clean s.wrapping point) (lands : landing s.wrapping w h point = some spot) :
    s.flip point.1 point.2 = .ok (s.flipped spot, some (s.pixel spot.1 spot.2 != 0)) := by
  have read := pixel?_eq shaped wide high clean
  rw [lands] at read
  rw [flip, read]
  rfl

theorem answers_flip {point : Int × Int} (shaped : s.Shaped w h) (wide : 1 ≤ w) (high : 1 ≤ h)
    (clean : Clean s.wrapping point) : s.Answers w h point := by
  unfold Answers
  cases lands : landing s.wrapping w h point with
  | none => exact flip_dropped shaped wide high clean lands
  | some spot =>
    obtain ⟨ha, hb⟩ := landing_lt wide high clean lands
    exact ⟨ha, hb, _, _, isSet_eq shaped ha hb, flip_landed shaped wide high clean lands,
      turned_flipped shaped ha hb⟩

/-! ## Many flips -/

def flipEach (s : Screen) (points : List (Int × Int)) : Except Fault Screen :=
  points.foldlM (fun t point => (t.flip point.1 point.2).map Prod.fst) s

/-- Points that are flipped one by one leave what they leave in a sprite. -/
theorem flipEach_eq {points : List (Int × Int)} (shaped : s.Shaped w h) (wide : 1 ≤ w) (high : 1 ≤ h)
    (clean : ∀ point ∈ points, Clean s.wrapping point) : s.flipEach points = .ok (s.flipAll points).1 := by
  induction points generalizing s with
  | nil => rfl
  | cons point rest ih =>
    obtain ⟨first, others⟩ := List.forall_mem_cons.mp clean
    rw [flipEach, List.foldlM_cons]
    cases lands : landing s.wrapping w h point with
    | none =>
      rw [flip_dropped shaped wide high first lands, flipAll_dropped shaped wide high first lands]
      exact ih shaped others
    | some spot =>
      rw [flip_landed shaped wide high first lands, flipAll_landed shaped wide high first lands]
      exact ih (flipped_shaped shaped spot) others

/-- The screen is marked if it was, or if a point landed. -/
theorem flipAll_dirty {points : List (Int × Int)} (shaped : s.Shaped w h) (wide : 1 ≤ w) (high : 1 ≤ h)
    (clean : ∀ point ∈ points, Clean s.wrapping point) :
    (s.flipAll points).1.dirty = (s.dirty || points.any fun point => (landing s.wrapping w h point).isSome) := by
  induction points generalizing s with
  | nil => simp [flipAll]
  | cons point rest ih =>
    obtain ⟨first, others⟩ := List.forall_mem_cons.mp clean
    rw [List.any_cons]
    cases lands : landing s.wrapping w h point with
    | none =>
      rw [flipAll_dropped shaped wide high first lands, ih shaped others]
      simp
    | some spot =>
      have marked : (s.flipped spot).dirty = true := rfl
      rw [flipAll_landed shaped wide high first lands]
      simp only [ih (flipped_shaped shaped spot) others, marked, Option.isSome_some, Bool.true_or, Bool.or_true]

/-- A plane is known by its pixels. -/
theorem plane_eq_of_pixels (hs : s.Shaped w h) (ht : t.Shaped w h)
    (same : ∀ a b, a < w → b < h → s.pixel a b = t.pixel a b) : s.plane = t.plane := by
  refine Memory.eq_of_byteAt (hs.size.trans ht.size.symm) ?_
  intro k within
  have inside : k < w * h := hs.size ▸ within
  have wide : 0 < w := Nat.pos_of_mul_pos_right (Nat.zero_lt_of_lt inside)
  have row : k / w < h := Nat.div_lt_of_lt_mul inside
  have place : ((k / w : Nat) : Int) * w + (k % w : Nat) = k := by
    rw [Int.mul_comm]
    exact_mod_cast Nat.div_add_mod k w
  have pixels := same (k % w) (k / w) (Nat.mod_lt k wide) row
  rwa [pixel, pixel, hs.width, ht.width, place] at pixels

theorem flipAll_perm {points others : List (Int × Int)} (shaped : s.Shaped w h) (wide : 1 ≤ w) (high : 1 ≤ h)
    (clean : ∀ point ∈ points, Clean s.wrapping point) (perm : others.Perm points) :
    (s.flipAll others).1 = (s.flipAll points).1 := by
  have also : ∀ point ∈ others, Clean s.wrapping point := fun point mem => clean point (perm.mem_iff.mp mem)
  have planes : (s.flipAll others).1.plane = (s.flipAll points).1.plane := by
    refine plane_eq_of_pixels (flipAll_shaped shaped others) (flipAll_shaped shaped points) ?_
    intro a b ha _
    have count : landings s.wrapping w h others (a, b) = landings s.wrapping w h points (a, b) := perm.countP_eq _
    rw [flipAll_pixel shaped wide high also ha, flipAll_pixel shaped wide high clean ha, count]
  have marks : (s.flipAll others).1.dirty = (s.flipAll points).1.dirty := by
    rw [flipAll_dirty shaped wide high also, flipAll_dirty shaped wide high clean, perm.any_eq]
  obtain ⟨p, d, first⟩ := s.flipAll_frame others
  obtain ⟨q, e, second⟩ := s.flipAll_frame points
  rw [first, second] at planes marks
  rw [first, second, show p = q from planes, show d = e from marks]

/-- Flips that cannot leave the plane never fault. Each lands on one pixel, which it answers with and turns over
    alone, or is dropped and changes nothing. In the end every pixel is turned over by the parity of the points
    that landed on it, nothing else but the mark is changed, and any order of the points leaves the same screen. -/
theorem flips_commute {s : Screen} {w h : Nat} (shaped : s.Shaped w h) (wide : 1 ≤ w) (high : 1 ≤ h)
    (points : List (Int × Int)) (clean : ∀ point ∈ points, Clean s.wrapping point) :
    ∃ t, s.flipEach points = .ok t ∧
      (∀ before point after, points = before ++ point :: after →
        ∃ u, s.flipEach before = .ok u ∧ u.wrapping = s.wrapping ∧ u.Shaped w h ∧ u.Answers w h point) ∧
      t.Shaped w h ∧
      (∀ a b, a < w → b < h →
        t.pixel a b = s.pixel a b ^^^ UInt8.ofNat (landings s.wrapping w h points (a, b) % 2)) ∧
      (∃ plane dirty, t = { s with plane := plane, dirty := dirty }) ∧
      ∀ others, others.Perm points → s.flipEach others = .ok t := by
  refine ⟨_, flipEach_eq shaped wide high clean, ?_, flipAll_shaped shaped points, ?_, s.flipAll_frame points, ?_⟩
  · intro before point after split
    have earlier : ∀ q ∈ before, Clean s.wrapping q := by
      intro q mem
      exact clean q (split ▸ List.mem_append_left _ mem)
    have here : Clean s.wrapping point := clean point (split ▸ by simp)
    obtain ⟨plane, dirty, frame⟩ := s.flipAll_frame before
    have wraps : (s.flipAll before).1.wrapping = s.wrapping := by rw [frame]
    have reached := flipAll_shaped shaped before
    exact ⟨_, flipEach_eq shaped wide high earlier, wraps, reached, answers_flip reached wide high (wraps ▸ here)⟩
  · intro a b ha _
    exact flipAll_pixel shaped wide high clean ha
  · intro others perm
    have also : ∀ point ∈ others, Clean s.wrapping point := fun point mem => clean point (perm.mem_iff.mp mem)
    rw [flipEach_eq shaped wide high also, flipAll_perm shaped wide high clean perm]

/-- On a screen of three columns and two rows one pixel is hit three times, each time over another edge. A point
    beyond the right edge stays in its row. -/
theorem flips_commute_across_the_edges :
    let s := blank 3 2 true
    let points := [(-1, 0), (2, 2), (5, -4), (3, 1)]
    ∃ t, s.flipEach points = .ok t ∧ t.pixel 2 0 = 1 ∧ t.pixel 0 1 = 1 ∧ t.pixel 0 0 = 0 ∧
      s.flipEach [(3, 1), (5, -4), (-1, 0), (2, 2)] = .ok t := by
  intro s points
  have clean : ∀ point ∈ points, Clean s.wrapping point := fun _ _ => .inl rfl
  obtain ⟨t, done, -, -, pixels, -, orders⟩ :=
    flips_commute (blank_shaped 3 2 true) (by decide) (by decide) points clean
  refine ⟨t, done, ?_, ?_, ?_, orders _ (by decide)⟩
  · exact (pixels 2 0 (by decide) (by decide)).trans (by decide)
  · exact (pixels 0 1 (by decide) (by decide)).trans (by decide)
  · exact (pixels 0 0 (by decide) (by decide)).trans (by decide)

end Chip8.Screen
