/-
  Chip8.Proofs.Drawing — what drawing a sprite does to the picture and to the flag.

  A sprite is a grid of cells, eight to a row. How often it hits a pixel is counted over its cells
  (`Machine.hits`), and the count settles the pixel and the flag, on a screen of any size and with or
  without wrapping: the points of a sprite are its set cells (`landings_points`), and the rest is known
  of any list of points.
-/
import Chip8.Proofs.Dispatch

namespace Chip8

/-! ## Cells -/

namespace Sprite

def cells (n : Nat) : List (Nat × Nat) := (List.range n).flatMap fun r => (List.range 8).map fun c => (r, c)

theorem and_shiftLeft_eq_zero {b k : Nat} : b &&& (1 <<< k) = 0 ↔ b.testBit k = false := by
  rw [Nat.one_shiftLeft]
  constructor
  · intro zero
    have bit := congrArg (Nat.testBit · k) zero
    simpa [Nat.testBit_and, Nat.testBit_two_pow] using bit
  · intro unset
    refine Nat.eq_of_testBit_eq fun i => ?_
    rw [Nat.testBit_and, Nat.testBit_two_pow, Nat.zero_testBit]
    by_cases same : k = i
    · rw [← same, unset, Bool.false_and]
    · simp [same]

theorem set_column {b c : Nat} (hc : c < 8) : b &&& (0x80 >>> c) ≠ 0 ↔ b.testBit (7 - c) = true := by
  have mask : ∀ c < 8, 0x80 >>> c = 1 <<< (7 - c) := by decide
  rw [mask c hc, ne_eq, and_shiftLeft_eq_zero, Bool.not_eq_false]

theorem countP_columns {p : Nat → Bool} (row : UInt8) :
    (columns row).countP p =
      (List.range 8).countP fun c => decide (row.toNat &&& (0x80 >>> c) ≠ 0) && p c := by
  rw [columns, List.countP_filter]
  refine List.countP_congr fun c mem => ?_
  simp only [Bool.and_eq_true, decide_eq_true_eq, set_column (List.mem_range.mp mem), and_comm]

/-- A point of a sprite is a set cell of it. -/
theorem countP_points {p : Int × Int → Bool} (left top : Int) (byte : Nat → UInt8) (n : Nat) :
    (points left top ((List.range n).map byte)).countP p =
      (cells n).countP fun (r, c) =>
        decide ((byte r).toNat &&& (0x80 >>> c) ≠ 0) && p (left + (c : Int), top + (r : Int)) := by
  have rows : ((List.range n).map byte).zipIdx = (List.range n).map fun r => (byte r, r) := by
    refine List.ext_getElem (by simp) fun k _ _ => ?_
    simp
  rw [points, rows, List.flatMap_map, cells, List.countP_flatMap, List.countP_flatMap]
  refine congrArg List.sum (List.map_congr_left fun r _ => ?_)
  simp only [Function.comp_apply, List.countP_map, countP_columns]
  rfl

end Sprite

namespace Machine

/-- How many cells of a sprite are set and land on a pixel, on a screen `w` wide and `h` high. The corner
    is always brought onto the screen. -/
def hits (m : Machine) (x y : Register) (n w h a b : Nat) : Nat :=
  (Sprite.cells n).countP fun (r, c) =>
    (m.memory.byteAt (m.index + r)).toNat &&& (0x80 >>> c) ≠ 0 ∧
      Screen.landing m.screen.wrapping w h
        (((m.v.get x).toNat % w + c : Nat), ((m.v.get y).toNat % h + r : Nat)) = some (a, b)

theorem landings_points (m : Machine) (x y : Register) (n w h a b : Nat) :
    Screen.landings m.screen.wrapping w h (m.spritePoints w h x y n) (a, b) = m.hits x y n w h a b := by
  rw [Screen.landings, spritePoints, Memory.blockAt, Sprite.countP_points, hits]
  simp only [Bool.decide_and, Int.natCast_add]

/-! ## The instruction -/

variable {m : Machine} {w h : Nat} {x y : Register} {n : Fin 16}

/-- A draw with its sprite in memory flips the points of the sprite. -/
theorem cycle_draw (keys : Keys) (chance : UInt8) (drawn : m.At (.draw x y n)) (shaped : m.screen.Shaped w h)
    (wide : 1 ≤ w) (high : 1 ≤ h) (inside : n.val = 0 ∨ m.memory.Holds m.index n.val) :
    ((m.cycle keys chance).machine, (m.cycle keys chance).fault) =
      let flips := m.screen.flipAll (m.spritePoints w h x y n.val)
      ({ m with
          origin := m.pc, opcode := m.here, pc := m.pc + 2
          screen := { flips.1 with dirty := true }
          v := m.v.set Registers.flag (if flips.2.1 then 1 else 0) }, none) := by
  have settled : (m.screen.flipAll (m.spritePoints w h x y n.val)).2.2 = none :=
    drawPoints_fault shaped wide high x y n.val
  have sprite : (m.fetched m.here).drawSprite x y n.val =
      (m.fetched m.here).drawPoints (m.spritePoints w h x y n.val) :=
    (drawSprite_eq (m := m.fetched m.here) shaped wide high x y n.val).trans (if_pos inside)
  rw [cycle_at drawn, ← drawn.2]
  show (((m.fetched m.here).drawSprite x y n.val).machine, ((m.fetched m.here).drawSprite x y n.val).fault) = _
  rw [sprite]
  simp [drawPoints, fetched, settled]

/-- Drawing a sprite that is in memory turns every pixel over as often as it is hit, and sets the flag
    just if a set pixel was hit. Of the rest only the counter, the word in progress and its address change. -/
theorem cycle_draws_hits (m : Machine) (keys : Keys) (chance : UInt8) {x y : Register} {n : Fin 16} {w h : Nat}
    (drawn : m.At (.draw x y n)) (shaped : m.screen.Shaped w h) (wide : 1 ≤ w) (high : 1 ≤ h)
    (inside : n.val = 0 ∨ 0 ≤ m.index ∧ m.index + n.val ≤ m.memory.size) :
    let c := m.cycle keys chance
    let hits := m.hits x y n.val w h
    let struck := ∃ a b, a < w ∧ b < h ∧ 1 ≤ hits a b ∧ (m.screen.pixel a b ≠ 0 ∨ 2 ≤ hits a b)
    c.fault = none ∧
    (∃ plane flag, c.machine = { m with
      origin := m.pc, opcode := m.here, pc := m.pc + 2
      screen := { m.screen with plane := plane, dirty := true }
      v := m.v.set Registers.flag flag }) ∧
    c.machine.screen.Shaped w h ∧
    (∀ a b, a < w → b < h → c.machine.screen.pixel a b = m.screen.pixel a b ^^^ UInt8.ofNat (hits a b % 2)) ∧
    (struck → c.machine.v.get Registers.flag = 1) ∧ (¬struck → c.machine.v.get Registers.flag = 0) := by
  intro c hits struck
  obtain ⟨drew, settled⟩ := Prod.mk.inj (cycle_draw keys chance drawn shaped wide high inside)
  have clean := spritePoints_clean (m := m) (w := w) (h := h) x y n.val
  have hit : (m.screen.flipAll (m.spritePoints w h x y n.val)).2.1 = true ↔ struck := by
    rw [Screen.flipAll_hit shaped wide high clean]
    simp only [Screen.Struck, landings_points]
    rfl
  have flag : c.machine.v.get Registers.flag =
      if (m.screen.flipAll (m.spritePoints w h x y n.val)).2.1 then 1 else 0 := by
    rw [show c.machine = _ from drew, Registers.get_set, if_pos rfl]
  refine ⟨settled, ?_, ?_, fun a b ha hb => ?_, fun yes => ?_, fun no => ?_⟩
  · obtain ⟨plane, dirty, frame⟩ := m.screen.flipAll_frame (m.spritePoints w h x y n.val)
    exact ⟨plane, _, by rw [show c.machine = _ from drew, frame]⟩
  · have shape := Screen.flipAll_shaped shaped (m.spritePoints w h x y n.val)
    rw [show c.machine = _ from drew]
    exact ⟨shape.width, shape.height, shape.size⟩
  · have count : hits a b = Screen.landings m.screen.wrapping w h (m.spritePoints w h x y n.val) (a, b) :=
      (landings_points m x y n.val w h a b).symm
    rw [show c.machine = _ from drew, count]
    exact Screen.flipAll_pixel shaped wide high clean ha
  · rw [flag, if_pos (hit.mpr yes)]
  · rw [flag, if_neg fun set => no (hit.mp set)]

/-- On a screen of five columns and two rows the sprite meets itself. -/
theorem cycle_draws_hits_thrice :
    ((holding [0xD0, 0x13, 0xFF]).cycle Keys.none 0).machine.v.get Registers.flag = 1 := by
  have drawn : (holding [0xD0, 0x13, 0xFF]).At (.draw 0 1 3) := ⟨by decide, by decide⟩
  have shaped : (holding [0xD0, 0x13, 0xFF]).screen.Shaped 5 2 := ⟨rfl, rfl, by decide⟩
  have facts :=
    cycle_draws_hits (holding [0xD0, 0x13, 0xFF]) Keys.none 0 drawn shaped (by decide) (by decide) (by decide)
  exact facts.2.2.2.2.1 ⟨0, 0, by decide, by decide, by decide, .inr (by decide)⟩

end Machine

end Chip8
