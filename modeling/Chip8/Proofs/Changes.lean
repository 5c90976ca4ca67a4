/-
  Chip8.Proofs.Changes — what a machine keeps, whatever its program does.

  An instruction, carried out or not, leaves alone the dialect, the tracing and all sizes, and it leaves
  the picture as it is or marks the screen (`kept_execute`). The same holds of a boot. So what follows
  from these few facts needs no look at the instructions.
-/
import Chip8.Emulator
import Chip8.Proofs.Pixels

namespace Chip8

/-! ## Memory and screen -/

theorem Memory.cleared_of_size {a b : Memory} (same : a.size = b.size) : a.cleared = b.cleared := by
  simp only [Memory.size, Int.natCast_inj] at same
  rw [Memory.cleared, Memory.cleared, same]

theorem Memory.cleared_cleared (m : Memory) : m.cleared.cleared = m.cleared := Memory.cleared_of_size m.size_cleared

namespace Screen

def Kept (s t : Screen) : Prop := t.dirty = true ∨ t.plane = s.plane ∧ t.dirty = s.dirty

theorem Kept.refl (s : Screen) : Kept s s := .inr ⟨rfl, rfl⟩

theorem kept_flipAll (s : Screen) (points : List (Int × Int)) : Kept s (s.flipAll points).1 :=
  flipAll_preserves (P := Kept s) (fun _ _ _ _ _ _ _ => .inl rfl) points (.refl s)

/-- Flips leave nothing behind that a clearing does not take away. -/
theorem clear_flipAll (s : Screen) (points : List (Int × Int)) : (s.flipAll points).1.clear = s.clear := by
  refine flipAll_preserves (P := fun t => t.clear = s.clear) ?_ points rfl
  intro t _ _ p old same _
  have size : (t.plane.stored p (old ^^^ 1)).cleared = t.plane.cleared :=
    Memory.cleared_of_size (by simp only [Memory.size, Memory.stored, Array.size_setIfInBounds])
  rw [← same]
  simp only [toggle, clear, size]

end Screen

/-! ## The machine -/

namespace Machine

/-- Does a machine keep its build, and its picture too unless the screen is marked? -/
structure Kept (m n : Machine) : Prop where
  dialect : n.dialect = m.dialect
  traced : n.traced = m.traced
  size : n.memory.size = m.memory.size
  limit : n.stack.limit = m.stack.limit
  clear : n.screen.clear = m.screen.clear
  screen : m.screen.Kept n.screen

section

variable {m : Machine} {keys : Keys} {chance : UInt8}

theorem Kept.refl (m : Machine) : Kept m m := ⟨rfl, rfl, rfl, rfl, rfl, .refl m.screen⟩

theorem Kept.withMemory {bank : Memory} (same : bank.size = m.memory.size) : Kept m { m with memory := bank } :=
  { Kept.refl m with size := same }

theorem kept_check {α : Type} {result : Except Fault α} {next : α → Effect}
    (goes : ∀ a, result = .ok a → Kept m (next a).machine) : Kept m (Effect.check m result next).machine := by
  cases result with
  | error f => exact .refl m
  | ok a => exact goes a rfl

theorem kept_advanced {n : Machine} (kept : Kept m n) (x : Register) : Kept m (n.advanced x) := by
  unfold advanced
  split
  · exact { kept with }
  · exact kept

theorem kept_drawPoints (m : Machine) (points : List (Int × Int)) : Kept m (m.drawPoints points).machine := by
  have flipped := m.screen.kept_flipAll points
  have cleared := m.screen.clear_flipAll points
  unfold drawPoints
  rcases flips : m.screen.flipAll points with ⟨screen, hit, _ | f⟩
  · rw [flips] at cleared
    exact ⟨rfl, rfl, rfl, rfl, cleared, .inl (Bool.or_true _)⟩
  · rw [flips] at flipped cleared
    simp only [Option.isNone_some, Bool.or_false]
    exact ⟨rfl, rfl, rfl, rfl, cleared, flipped⟩

theorem kept_drawSprite (m : Machine) (x y : Register) (rows : Nat) : Kept m (m.drawSprite x y rows).machine := by
  unfold drawSprite
  split
  · exact .refl m
  · split
    · exact .refl m
    · exact m.kept_drawPoints _

/-- An instruction that changes a pixel marks the screen, even one that fails. -/
theorem kept_execute (m : Machine) (keys : Keys) (chance : UInt8) (i : Instruction) :
    Kept m (m.execute keys chance i).machine := by
  cases i with
  | clearScreen =>
    have cleared : m.screen.clear.clear = m.screen.clear := by simp only [Screen.clear, Memory.cleared_cleared]
    exact ⟨rfl, rfl, rfl, rfl, cleared, .inl rfl⟩
  | ret =>
    apply kept_check
    intro result popped
    unfold CallStack.pop at popped
    split at popped <;> cases popped
    exact { Kept.refl m with }
  | call nnn =>
    apply kept_check
    intro stack pushed
    unfold CallStack.push at pushed
    split at pushed <;> cases pushed
    exact { Kept.refl m with }
  | skipEqByte | skipNeByte | skipEq | skipNe | skipHeld | skipFree =>
    simp only [execute, skipIf, Effect.done]
    split <;> exact { Kept.refl m with }
  | or | and | xor =>
    simp only [execute, setLogic, Effect.done]
    split <;> exact { Kept.refl m with }
  | draw x y n => exact m.kept_drawSprite x y n.val
  | readDelay | awaitKey =>
    simp only [execute]
    split <;> exact { Kept.refl m with }
  | storeDecimal x => exact kept_check fun bank written => .withMemory (Memory.size_of_writeBlock written)
  | store x => exact kept_check fun bank written => kept_advanced (.withMemory (Memory.size_of_writeBlock written)) x
  | load x =>
    apply kept_check
    intro block _
    exact kept_advanced (n := { m with v := m.v.load block }) { Kept.refl m with } x
  | _ => exact { Kept.refl m with }

theorem kept_cycle (m : Machine) (keys : Keys) (chance : UInt8) : Kept m (m.cycle keys chance).machine := by
  unfold cycle
  split
  · exact { Kept.refl m with }
  · split
    · exact { Kept.refl m with }
    · next word _ _ i _ => exact { (m.fetched word).kept_execute keys chance i with }

theorem kept_boot (m : Machine) (rom : List UInt8) : Kept m (Emulator.bootMachine m rom).1 := by
  have loaded : Kept m (Emulator.loadProgram m rom).1 := by
    have cleared := m.memory.size_cleared
    unfold Emulator.loadProgram
    simp only
    split
    · exact .withMemory cleared
    · next bank font =>
      have sized := (Memory.size_of_writeBlock font).trans cleared
      split
      · exact .withMemory sized
      · next full program => exact .withMemory ((Memory.size_of_writeBlock program).trans sized)
  unfold Emulator.bootMachine
  split
  · next result =>
    rw [result] at loaded
    exact loaded
  · next after result =>
    rw [result] at loaded
    have cleared : after.screen.clear.clear = after.screen.clear := by simp only [Screen.clear, Memory.cleared_cleared]
    exact { loaded with clear := cleared.trans loaded.clear, screen := .inl rfl }

end

end Machine

end Chip8
