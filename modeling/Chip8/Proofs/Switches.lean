/-
  Chip8.Proofs.Switches — the settings of a machine, which no instruction changes.

  A machine carries its dialect and whether it is traced, and hands both on. No instruction asks whether it
  is traced, and a few ask for one point of the dialect (`Instruction.Varies`). So the switches can be
  turned before an instruction or after it, with the same effect, unless the instruction asks for what was
  turned (`execute_turned`).
-/
import Chip8.Proofs.Reachable

namespace Chip8

namespace Instruction

/-- Does an instruction ask for a point in which two dialects differ, and does the answer matter? -/
def Varies (d e : Dialect) : Instruction → Prop
  | shiftRight x y | shiftLeft x y => d.shiftInPlace ≠ e.shiftInPlace ∧ x ≠ y
  | or _ _ | and _ _ | xor _ _ => d.clearFlag ≠ e.clearFlag
  | store _ | load _ => d.advanceIndex ≠ e.advanceIndex
  | _ => False

theorem not_varies_self (d : Dialect) (i : Instruction) : ¬i.Varies d d := by
  intro varies
  cases i with
  | shiftRight x y | shiftLeft x y => exact varies.1 rfl
  | or | and | xor | store | load => exact varies rfl
  | _ => exact varies

end Instruction

namespace Machine

def turned (m : Machine) (dialect : Dialect → Dialect) (trace : Bool → Bool) : Machine :=
  { m with dialect := dialect m.dialect, traced := trace m.traced }

end Machine

def Effect.turned (p : Effect) (dialect : Dialect → Dialect) (trace : Bool → Bool) : Effect :=
  { p with machine := p.machine.turned dialect trace }

namespace Machine

variable (m : Machine) (dialect : Dialect → Dialect) (trace : Bool → Bool)

theorem check_turned {α : Type} {result : Except Fault α} {next told : α → Effect}
    (goes : ∀ a, told a = (next a).turned dialect trace) :
    Effect.check (m.turned dialect trace) result told = (Effect.check m result next).turned dialect trace := by
  cases result with
  | error f => rfl
  | ok a => exact goes a

theorem skipIf_turned (condition : Bool) :
    (m.turned dialect trace).skipIf condition = (m.skipIf condition).turned dialect trace := by
  unfold skipIf
  split <;> rfl

theorem setLogic_turned (same : m.dialect.clearFlag = (dialect m.dialect).clearFlag) (x : Register) (b : UInt8) :
    (m.turned dialect trace).setLogic x b = (m.setLogic x b).turned dialect trace := by
  simp only [setLogic, show (m.turned dialect trace).dialect = dialect m.dialect from rfl, same]
  split <;> rfl

theorem advanced_turned (same : m.dialect.advanceIndex = (dialect m.dialect).advanceIndex) (x : Register) :
    (m.turned dialect trace).advanced x = (m.advanced x).turned dialect trace := by
  simp only [advanced, show (m.turned dialect trace).dialect = dialect m.dialect from rfl, same]
  split <;> rfl

theorem shifted_turned {x y : Register} (same : m.dialect.shiftInPlace = (dialect m.dialect).shiftInPlace ∨ x = y) :
    (m.turned dialect trace).shifted x y = m.shifted x y := by
  simp only [shifted, show (m.turned dialect trace).dialect = dialect m.dialect from rfl,
    show (m.turned dialect trace).v = m.v from rfl]
  rcases same with same | rfl
  · rw [same]
  · simp only [ite_self]

theorem drawSprite_turned (x y : Register) (rows : Nat) :
    (m.turned dialect trace).drawSprite x y rows = (m.drawSprite x y rows).turned dialect trace := by
  have screen : (m.turned dialect trace).screen = m.screen := rfl
  have sprite : (m.turned dialect trace).memory.readBlock (m.turned dialect trace).index rows =
      m.memory.readBlock m.index rows := rfl
  simp only [drawSprite, screen, sprite]
  split
  · rfl
  · split <;> rfl

/-- An instruction that does not ask for what was turned has the same effect. -/
theorem execute_turned (keys : Keys) (chance : UInt8) {i : Instruction}
    (same : ¬i.Varies m.dialect (dialect m.dialect)) :
    (m.turned dialect trace).execute keys chance i = (m.execute keys chance i).turned dialect trace := by
  cases i with
  | ret | call | storeDecimal => exact check_turned m dialect trace fun _ => rfl
  | skipEqByte | skipNeByte | skipEq | skipNe | skipHeld | skipFree =>
    exact congrArg Effect.done (skipIf_turned m dialect trace _)
  | or | and | xor => exact congrArg Effect.done (setLogic_turned m dialect trace (Decidable.not_not.mp same) _ _)
  | shiftRight x y | shiftLeft x y =>
    have agree := Decidable.or_iff_not_not_and_not.mpr same
    simp only [execute, shifted_turned m dialect trace agree]
    rfl
  | draw x y n => exact drawSprite_turned m dialect trace x y n.val
  | readDelay x =>
    simp only [execute, show (m.turned dialect trace).delay = m.delay from rfl]
    split <;> rfl
  | awaitKey x =>
    simp only [execute]
    split <;> rfl
  | store x =>
    apply check_turned
    intro bank
    have advanced := advanced_turned { m with memory := bank } dialect trace (Decidable.not_not.mp same) x
    exact congrArg Effect.done advanced
  | load x =>
    apply check_turned
    intro block
    have advanced := advanced_turned { m with v := m.v.load block } dialect trace (Decidable.not_not.mp same) x
    exact congrArg Effect.done advanced
  | _ => rfl

theorem bootMachine_turned (rom : List UInt8) : Emulator.bootMachine (m.turned dialect trace) rom =
    ((Emulator.bootMachine m rom).1.turned dialect trace, (Emulator.bootMachine m rom).2) := by
  have loaded : Emulator.loadProgram (m.turned dialect trace) rom =
      ((Emulator.loadProgram m rom).1.turned dialect trace, (Emulator.loadProgram m rom).2) := by
    simp only [Emulator.loadProgram, show (m.turned dialect trace).memory = m.memory from rfl]
    split
    · rfl
    · split <;> rfl
  unfold Emulator.bootMachine
  rw [loaded]
  rcases Emulator.loadProgram m rom with ⟨after, _ | f⟩ <;> rfl

theorem message_turned (h : Halt) : h.message (m.turned dialect trace) = h.message m := by
  cases h <;> rfl

end Machine

end Chip8
