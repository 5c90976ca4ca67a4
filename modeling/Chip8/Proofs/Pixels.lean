/-
  Chip8.Proofs.Pixels — where points land, and what flipping them does to the picture.

  On a screen whose plane has its size a point lands on one pixel or is dropped, and reading never
  faults. So a pixel that was flipped by a list of points is its old value with the parity of the
  points that landed on it (`flipAll_pixel`), and a set pixel was hit when one of them landed on a pixel
  that was set, or two on the same (`flipAll_hit`). Both are by induction on the points, over the
  screen after the first of them.
-/
import Chip8.Proofs.Access
import Chip8.Screen

namespace Chip8.Screen

/-! ## Shape -/

/-- Is the screen `w` pixels wide and `h` high, with a plane of this size? -/
structure Shaped (s : Screen) (w h : Nat) : Prop where
  width : s.width = w
  height : s.height = h
  size : s.plane.bytes.size = w * h

def Binary (s : Screen) : Prop := ∀ b ∈ s.plane.bytes, b = 0 ∨ b = 1

def pixel (s : Screen) (a b : Nat) : UInt8 := s.plane.byteAt (b * s.width + a)

theorem blank_shaped (w h : Nat) (wrapping : Bool) : (blank w h wrapping).Shaped w h :=
  ⟨rfl, rfl, by simp [blank, Memory.zeros]⟩

theorem clear_shaped {s : Screen} {w h : Nat} (shaped : s.Shaped w h) : s.clear.Shaped w h :=
  ⟨shaped.width, shaped.height, by simpa [clear, Memory.cleared] using shaped.size⟩

theorem clear_binary (s : Screen) : s.clear.Binary := by
  intro b hb
  simp only [clear, Memory.cleared, Array.mem_replicate] at hb
  exact .inl hb.2

theorem frame_shaped {s : Screen} {w h : Nat} (shaped : s.Shaped w h) : s.frame.1.Shaped w h :=
  ⟨shaped.width, shaped.height, shaped.size⟩

theorem toggle_shaped {s : Screen} {w h : Nat} (shaped : s.Shaped w h) (p : Int) (old : UInt8) :
    (s.toggle p old).Shaped w h :=
  ⟨shaped.width, shaped.height, by simpa [toggle, Memory.stored] using shaped.size⟩

/-! ## Points -/

/-- The pixel on which a point falls, by column and row, on a screen `w` wide and `h` high; `none` where
    the point is dropped. -/
def landing (wrapping : Bool) (w h : Nat) (point : Int × Int) : Option (Nat × Nat) :=
  if wrapping then some ((point.1 % w).toNat, (point.2 % h).toNat)
  else if point.1 < w ∧ point.2 < h then some (point.1.toNat, point.2.toNat)
  else none

/-- Is the point one that can only land on the screen or be dropped? -/
def Clean (wrapping : Bool) (point : Int × Int) : Prop := wrapping = true ∨ 0 ≤ point.1 ∧ 0 ≤ point.2

theorem landing_lt {wrapping : Bool} {w h a b : Nat} {point : Int × Int} (wide : 1 ≤ w) (high : 1 ≤ h)
    (clean : Clean wrapping point) (lands : landing wrapping w h point = some (a, b)) : a < w ∧ b < h := by
  unfold landing at lands
  split at lands
  · simp only [Option.some.injEq, Prod.mk.injEq] at lands
    have := Int.emod_lt_of_pos point.1 (b := w) (by omega)
    have := Int.emod_lt_of_pos point.2 (b := h) (by omega)
    omega
  · split at lands
    · simp only [Option.some.injEq, Prod.mk.injEq] at lands
      rcases clean with _ | _
      · contradiction
      · omega
    · cases lands

/-- Row by row, the place of a pixel is inside the plane. -/
theorem place_lt {w h a b : Nat} (ha : a < w) (hb : b < h) : b * w + a < w * h := by
  have rows : (b + 1) * w ≤ h * w := Nat.mul_le_mul_right w hb
  rw [Nat.add_mul, Nat.mul_comm h w] at rows
  omega

theorem place_injective {w a b c d : Nat} (ha : a < w) (hc : c < w) (same : b * w + a = d * w + c) : a = c ∧ b = d := by
  have column : a = c := by
    have := congrArg (· % w) same
    simpa [Nat.mul_add_mod', Nat.mod_eq_of_lt ha, Nat.mod_eq_of_lt hc] using this
  subst column
  exact ⟨rfl, Nat.eq_of_mul_eq_mul_right (by omega) (Nat.add_right_cancel same)⟩

section

variable {s : Screen} {w h : Nat}

theorem inBank_place {a b : Nat} (shaped : s.Shaped w h) (ha : a < w) (hb : b < h) :
    s.plane.InBank (b * s.width + a) := by
  have inside := place_lt ha hb
  have place : (b : Int) * s.width + a = ((b * w + a : Nat) : Int) := by rw [shaped.width]; push_cast; rfl
  rw [place]
  exact ⟨by omega, by simp only [Memory.size, shaped.size]; omega⟩

theorem position_eq {point : Int × Int} (shaped : s.Shaped w h) (wide : 1 ≤ w) (high : 1 ≤ h)
    (clean : Clean s.wrapping point) :
    s.position point.1 point.2 =
      .ok ((landing s.wrapping w h point).map fun spot => (spot.2 : Int) * s.width + spot.1) := by
  have positive : ¬((w : Int) = 0 ∨ (h : Int) = 0) := by omega
  unfold position landing
  rw [shaped.width, shaped.height]
  by_cases wraps : s.wrapping = true
  · have column : 0 ≤ point.1 % w := Int.emod_nonneg _ (by omega)
    have row : 0 ≤ point.2 % h := Int.emod_nonneg _ (by omega)
    rw [if_pos wraps, if_pos wraps, if_neg positive]
    simp [Int.fmod_eq_emod_of_nonneg, Int.toNat_of_nonneg column, Int.toNat_of_nonneg row]
  · obtain ⟨column, row⟩ := clean.resolve_left wraps
    by_cases inside : point.1 < w ∧ point.2 < h
    · have notOut : ¬((w : Int) ≤ point.1 ∨ (h : Int) ≤ point.2) := by omega
      simp [wraps, inside, notOut, Int.toNat_of_nonneg column, Int.toNat_of_nonneg row]
    · have out : (w : Int) ≤ point.1 ∨ (h : Int) ≤ point.2 := by omega
      simp [wraps, inside, out]

theorem pixel?_of_error {x y : Int} {f : Fault} (place : s.position x y = .error f) : s.pixel? x y = .error f := by
  rw [pixel?, place]
  rfl

theorem pixel?_of_none {x y : Int} (place : s.position x y = .ok none) : s.pixel? x y = .ok none := by
  rw [pixel?, place]
  rfl

theorem pixel?_of_some {x y p : Int} (place : s.position x y = .ok (some p)) :
    s.pixel? x y =
      if s.plane.InBank p then .ok (some (p, s.plane.byteAt p)) else .error (.outOfRange p) := by
  rw [pixel?, place]
  show (s.plane.read p >>= _) = _
  rw [Memory.read_eq]
  split <;> rfl

/-- A point lands on a pixel, which is read without a fault, or is dropped. -/
theorem pixel?_eq {point : Int × Int} (shaped : s.Shaped w h) (wide : 1 ≤ w) (high : 1 ≤ h)
    (clean : Clean s.wrapping point) :
    s.pixel? point.1 point.2 =
      .ok ((landing s.wrapping w h point).map fun spot =>
        ((spot.2 : Int) * s.width + spot.1, s.pixel spot.1 spot.2)) := by
  have place := position_eq shaped wide high clean
  cases lands : landing s.wrapping w h point with
  | none =>
    rw [lands] at place
    exact pixel?_of_none place
  | some spot =>
    obtain ⟨ha, hb⟩ := landing_lt wide high clean lands
    rw [lands] at place
    exact (pixel?_of_some place).trans (if_pos (inBank_place shaped ha hb))

/-- On any screen, what is read is the byte of the plane. -/
theorem byte_of_pixel? {x y p : Int} {old : UInt8} (read : s.pixel? x y = .ok (some (p, old))) :
    old = s.plane.byteAt p := by
  rcases place : s.position x y with f | _ | q
  · rw [pixel?_of_error place] at read
    cases read
  · rw [pixel?_of_none place] at read
    cases read
  · rw [pixel?_of_some place] at read
    split at read <;> cases read
    rfl

/-- On any screen, reading a pixel faults only by its place. -/
theorem fault_of_pixel? {x y : Int} {f : Fault} (read : s.pixel? x y = .error f) :
    f = .divisionByZero ∨ ∃ a, f = .outOfRange a := by
  rcases place : s.position x y with g | _ | q
  · rw [pixel?_of_error place] at read
    cases read
    unfold position at place
    split at place <;> split at place <;> cases place
    exact .inl rfl
  · rw [pixel?_of_none place] at read
    cases read
  · rw [pixel?_of_some place] at read
    split at read <;> cases read
    exact .inr ⟨q, rfl⟩

/-! ## One flip -/

def flipped (s : Screen) (spot : Nat × Nat) : Screen :=
  s.toggle (spot.2 * s.width + spot.1) (s.pixel spot.1 spot.2)

theorem flipped_shaped (shaped : s.Shaped w h) (spot : Nat × Nat) : (s.flipped spot).Shaped w h :=
  toggle_shaped shaped _ _

theorem pixel_flipped {a b c d : Nat} (shaped : s.Shaped w h) (ha : a < w) (hb : b < h) (hc : c < w) :
    (s.flipped (a, b)).pixel c d = if (a, b) = (c, d) then s.pixel a b ^^^ 1 else s.pixel c d := by
  have stored := Memory.byteAt_stored (inBank_place shaped ha hb) (s.pixel a b ^^^ 1) (d * s.width + c)
  have same : (d : Int) * s.width + c = b * s.width + a ↔ (a, b) = (c, d) := by
    rw [shaped.width, Prod.mk.injEq]
    refine ⟨fun h => ?_, fun h => by rw [h.1, h.2]⟩
    have places : b * w + a = d * w + c := by exact_mod_cast h.symm
    exact place_injective ha hc places
  simp only [same] at stored
  exact stored

/-! ## Many flips -/

/-- Whatever single flips keep is kept by many. -/
theorem flipAll_preserves {P : Screen → Prop}
    (step : ∀ (t : Screen) (x y p : Int) (old : UInt8), P t → t.pixel? x y = .ok (some (p, old)) → P (t.toggle p old))
    (points : List (Int × Int)) : P s → P (s.flipAll points).1 := by
  induction points generalizing s with
  | nil => exact id
  | cons point rest ih =>
    intro holds
    unfold flipAll
    split
    · exact holds
    · exact ih holds
    · next p old read => exact ih (step s _ _ p old holds read)

theorem flipAll_shaped (shaped : s.Shaped w h) (points : List (Int × Int)) : (s.flipAll points).1.Shaped w h :=
  flipAll_preserves (P := fun t => t.Shaped w h) (fun _ _ _ p old shaped _ => toggle_shaped shaped p old) points shaped

theorem byteAt_binary (binary : s.Binary) (p : Int) : s.plane.byteAt p = 0 ∨ s.plane.byteAt p = 1 := by
  unfold Memory.byteAt
  split
  · unfold Array.getD
    split
    · exact binary _ (Array.getElem_mem _)
    · exact .inl rfl
  · exact .inl rfl

theorem flipAll_binary (binary : s.Binary) (points : List (Int × Int)) : (s.flipAll points).1.Binary := by
  refine flipAll_preserves (fun t x y p old binary read b hb => ?_) points binary
  rcases Array.mem_or_eq_of_mem_setIfInBounds hb with kept | rfl
  · exact binary b kept
  · rw [byte_of_pixel? read]
    rcases byteAt_binary binary p with unset | set
    · rw [unset]
      exact .inr rfl
    · rw [set]
      exact .inl rfl

/-- Flips change pixels and the mark of a changed picture, and nothing else. -/
theorem flipAll_frame (s : Screen) (points : List (Int × Int)) :
    ∃ plane dirty, (s.flipAll points).1 = { s with plane := plane, dirty := dirty } := by
  refine flipAll_preserves (P := fun t => ∃ plane dirty, t = { s with plane := plane, dirty := dirty }) ?_ points
    ⟨s.plane, s.dirty, rfl⟩
  rintro t x y p old ⟨plane, dirty, rfl⟩ -
  exact ⟨_, _, rfl⟩

theorem flipAll_dropped {point : Int × Int} {rest : List (Int × Int)} (shaped : s.Shaped w h) (wide : 1 ≤ w)
    (high : 1 ≤ h) (clean : Clean s.wrapping point) (drops : landing s.wrapping w h point = none) :
    s.flipAll (point :: rest) = s.flipAll rest := by
  have read := pixel?_eq shaped wide high clean
  rw [drops] at read
  simp only [flipAll, read, Option.map_none]

theorem flipAll_landed {point : Int × Int} {rest : List (Int × Int)} {spot : Nat × Nat} (shaped : s.Shaped w h)
    (wide : 1 ≤ w) (high : 1 ≤ h) (clean : Clean s.wrapping point)
    (lands : landing s.wrapping w h point = some spot) :
    s.flipAll (point :: rest) =
      let (t, hit, fault) := (s.flipped spot).flipAll rest
      (t, hit || s.pixel spot.1 spot.2 != 0, fault) := by
  have read := pixel?_eq shaped wide high clean
  rw [lands] at read
  simp only [flipAll, read, Option.map_some]
  rfl

def landings (wrapping : Bool) (w h : Nat) (points : List (Int × Int)) (spot : Nat × Nat) : Nat :=
  points.countP fun point => landing wrapping w h point = some spot

theorem landings_cons (wrapping : Bool) (w h : Nat) (point : Int × Int) (rest : List (Int × Int)) (spot : Nat × Nat) :
    landings wrapping w h (point :: rest) spot =
      landings wrapping w h rest spot + if landing wrapping w h point = some spot then 1 else 0 := by
  simp [landings, List.countP_cons]

/-- Flips that cannot leave the plane do not fault. -/
theorem flipAll_fault {points : List (Int × Int)} (shaped : s.Shaped w h) (wide : 1 ≤ w) (high : 1 ≤ h)
    (clean : ∀ point ∈ points, Clean s.wrapping point) : (s.flipAll points).2.2 = none := by
  induction points generalizing s with
  | nil => rfl
  | cons point rest ih =>
    obtain ⟨first, others⟩ := List.forall_mem_cons.mp clean
    cases lands : landing s.wrapping w h point with
    | none =>
      rw [flipAll_dropped shaped wide high first lands]
      exact ih shaped others
    | some spot =>
      rw [flipAll_landed shaped wide high first lands]
      exact ih (flipped_shaped shaped spot) others

/-- On any screen, flips fault only by the place of a pixel. -/
theorem fault_of_flipAll {points : List (Int × Int)} {f : Fault} (faults : (s.flipAll points).2.2 = some f) :
    f = .divisionByZero ∨ ∃ a, f = .outOfRange a := by
  induction points generalizing s with
  | nil => cases faults
  | cons point rest ih =>
    unfold flipAll at faults
    split at faults
    · next g read =>
      cases faults
      exact fault_of_pixel? read
    · exact ih faults
    · exact ih faults

theorem xor_parity (b : UInt8) (k : Nat) : (b ^^^ 1) ^^^ UInt8.ofNat (k % 2) = b ^^^ UInt8.ofNat ((k + 1) % 2) := by
  rw [UInt8.xor_assoc]
  rcases Nat.mod_two_eq_zero_or_one k with even | odd
  · rw [even, show (k + 1) % 2 = 1 by omega]
    rfl
  · rw [odd, show (k + 1) % 2 = 0 by omega]
    rfl

/-- Every pixel keeps its value or turns over, by the parity of the points that land on it. -/
theorem flipAll_pixel {points : List (Int × Int)} {a b : Nat} (shaped : s.Shaped w h) (wide : 1 ≤ w) (high : 1 ≤ h)
    (clean : ∀ point ∈ points, Clean s.wrapping point) (ha : a < w) :
    (s.flipAll points).1.pixel a b =
      s.pixel a b ^^^ UInt8.ofNat (landings s.wrapping w h points (a, b) % 2) := by
  induction points generalizing s with
  | nil => exact (UInt8.xor_zero).symm
  | cons point rest ih =>
    obtain ⟨first, others⟩ := List.forall_mem_cons.mp clean
    rw [landings_cons]
    cases lands : landing s.wrapping w h point with
    | none =>
      rw [flipAll_dropped shaped wide high first lands]
      exact ih shaped others
    | some spot =>
      obtain ⟨hc, hd⟩ := landing_lt wide high first lands
      rw [flipAll_landed shaped wide high first lands]
      -- The other points start from the screen on which this one is flipped already.
      have later := ih (flipped_shaped shaped spot) others
      refine later.trans ?_
      rw [pixel_flipped shaped hc hd ha]
      by_cases same : spot = (a, b)
      · subst same
        simp only [if_true]
        exact xor_parity _ _
      · simp only [same, Option.some.injEq, if_false, Nat.add_zero]
        rfl

/-- Do the points hit a pixel when it is set? It may have been set by one of them. -/
def Struck (s : Screen) (w h : Nat) (points : List (Int × Int)) (a b : Nat) : Prop :=
  1 ≤ landings s.wrapping w h points (a, b) ∧ (s.pixel a b ≠ 0 ∨ 2 ≤ landings s.wrapping w h points (a, b))

theorem struck_elsewhere {point : Int × Int} {rest : List (Int × Int)} {a b c d : Nat} (shaped : s.Shaped w h)
    (lands : landing s.wrapping w h point = some (c, d)) (hc : c < w) (hd : d < h) (ha : a < w)
    (other : (c, d) ≠ (a, b)) : s.Struck w h (point :: rest) a b ↔ (s.flipped (c, d)).Struck w h rest a b := by
  have count : landings s.wrapping w h (point :: rest) (a, b) = landings s.wrapping w h rest (a, b) := by
    rw [landings_cons, if_neg (by simpa [lands] using other), Nat.add_zero]
  unfold Struck
  rw [count, pixel_flipped shaped hc hd ha, if_neg other]
  rfl

theorem struck_here {point : Int × Int} {rest : List (Int × Int)} {c d : Nat} (shaped : s.Shaped w h)
    (lands : landing s.wrapping w h point = some (c, d)) (hc : c < w) (hd : d < h) :
    s.Struck w h (point :: rest) c d ↔ (s.flipped (c, d)).Struck w h rest c d ∨ s.pixel c d ≠ 0 := by
  have count : landings s.wrapping w h (point :: rest) (c, d) = landings s.wrapping w h rest (c, d) + 1 := by
    rw [landings_cons, if_pos lands]
  have wraps : (s.flipped (c, d)).wrapping = s.wrapping := rfl
  unfold Struck
  rw [count, pixel_flipped shaped hc hd hc, if_pos rfl, wraps]
  by_cases set : s.pixel c d = 0
  · have turned : (0 : UInt8) ^^^ 1 ≠ 0 := by decide
    simp only [set, turned, ne_eq, not_true_eq_false, not_false_eq_true, false_or, or_false, true_or, and_true]
    omega
  · simp [set]

/-- A set pixel is hit when a point lands on a pixel that was set, or two points on the same. -/
theorem flipAll_hit {points : List (Int × Int)} (shaped : s.Shaped w h) (wide : 1 ≤ w) (high : 1 ≤ h)
    (clean : ∀ point ∈ points, Clean s.wrapping point) :
    (s.flipAll points).2.1 = true ↔ ∃ a b, a < w ∧ b < h ∧ s.Struck w h points a b := by
  induction points generalizing s with
  | nil => simp [flipAll, Struck, landings]
  | cons point rest ih =>
    obtain ⟨first, others⟩ := List.forall_mem_cons.mp clean
    cases lands : landing s.wrapping w h point with
    | none =>
      rw [flipAll_dropped shaped wide high first lands, ih shaped others]
      simp only [Struck, landings_cons, lands, reduceCtorEq, if_false, Nat.add_zero]
    | some spot =>
      obtain ⟨c, d⟩ := spot
      obtain ⟨hc, hd⟩ := landing_lt wide high first lands
      rw [flipAll_landed shaped wide high first lands]
      simp only [Bool.or_eq_true, bne_iff_ne]
      rw [ih (flipped_shaped shaped (c, d)) others]
      -- What the other points strike, they strike on the screen after this one.
      constructor
      · rintro (⟨a, b, ha, hb, struck⟩ | set)
        · refine ⟨a, b, ha, hb, ?_⟩
          by_cases same : (c, d) = (a, b)
          · cases same
            exact (struck_here shaped lands hc hd).mpr (.inl struck)
          · exact (struck_elsewhere shaped lands hc hd ha same).mpr struck
        · exact ⟨c, d, hc, hd, (struck_here shaped lands hc hd).mpr (.inr set)⟩
      · rintro ⟨a, b, ha, hb, struck⟩
        by_cases same : (c, d) = (a, b)
        · cases same
          exact ((struck_here shaped lands hc hd).mp struck).imp_left fun later => ⟨c, d, hc, hd, later⟩
        · exact .inl ⟨a, b, ha, hb, (struck_elsewhere shaped lands hc hd ha same).mp struck⟩

end

end Chip8.Screen
