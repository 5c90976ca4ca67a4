/-
  Chip8.Proofs.Arithmetic — what the arithmetic instructions compute.

  Registers are read as numbers (`Registers.number`), and each instruction has its law between the numbers
  before and after (`Instruction.Computes`): a sum and its carry, a difference and its borrow, the two halves of a
  shifted byte, a bitwise result. The operands are read before anything is written and the flag is written last
  (`number_setFlagged`), so no law asks whether `Vx`, `Vy` and the flag are one register or more: where `Vx`
  is the flag, the flag is what is left of it.
-/
import Chip8.Proofs.Footprints

namespace Chip8

/-! ## Registers as numbers -/

namespace Registers

def number (v : Registers) (k : Register) : Nat := (v.get k).toNat

variable {v : Registers} {x k : Register} {b : UInt8} {flagged : Bool}

theorem number_set : (v.set x b).number k = if x = k then b.toNat else v.number k := by
  rw [number, get_set, apply_ite UInt8.toNat]
  rfl

/-- The flag is written last. -/
theorem number_setFlagged : (v.setFlagged x b flagged).number k =
    if flag = k then flagged.toNat else if x = k then b.toNat else v.number k := by
  have written : (if flagged then (1 : UInt8) else 0).toNat = flagged.toNat := by cases flagged <;> rfl
  rw [setFlagged, number_set, number_set, written]

end Registers

/-! ## The laws -/

namespace Instruction

open Registers (flag)

def IsArithmetic : Instruction → Prop
  | addByte _ _ | or _ _ | and _ _ | xor _ _ | add _ _ | sub _ _ | shiftRight _ _ | subFrom _ _ | shiftLeft _ _ => True
  | _ => False

/-- Is `r` left in a register, but for a flag that is cleared after it? -/
def Leaves (d : Dialect) (new : Register → Nat) (x : Register) (r : Nat) : Prop :=
  if d.clearFlag then new flag = 0 ∧ (x ≠ flag → new x = r) else new x = r

/-- Is `a` less `b` left in a register, modulo 256, with the flag down if something had to be borrowed? -/
def Subtracts (new : Register → Nat) (x : Register) (a b : Nat) : Prop :=
  new flag = (if b ≤ a then 1 else 0) ∧ (x ≠ flag → (new x : Int) = a - b + 256 * (1 - new flag))

/-- Does an arithmetic instruction take the numbers `old` to the numbers `new`? -/
def Computes (d : Dialect) (old new : Register → Nat) : Instruction → Prop
  | addByte x kk => new x = (old x + kk.toNat) % 256
  | or x y => Leaves d new x (old x ||| old y)
  | and x y => Leaves d new x (old x &&& old y)
  | xor x y => Leaves d new x (old x ^^^ old y)
  | add x y =>
    new flag = (if 255 < old x + old y then 1 else 0) ∧ (x ≠ flag → 256 * new flag + new x = old x + old y)
  | sub x y => Subtracts new x (old x) (old y)
  | subFrom x y => Subtracts new x (old y) (old x)
  | shiftRight x y =>
    let s := old (if d.shiftInPlace then x else y)
    new flag = s % 2 ∧ (x ≠ flag → 2 * new x + new flag = s)
  | shiftLeft x y =>
    let s := old (if d.shiftInPlace then x else y)
    new flag = s / 128 ∧ (x ≠ flag → 256 * new flag + new x = 2 * s)
  | _ => False

end Instruction

/-! ## Bytes -/

theorem decide_toNat (p : Prop) [Decidable p] : (decide p).toNat = if p then 1 else 0 := by
  by_cases holds : p <;> simp [holds]

theorem carry_add (a b : UInt8) :
    256 * (if 255 < a.toNat + b.toNat then 1 else 0) + (a + b).toNat = a.toNat + b.toNat := by
  have first := a.toNat_lt
  have second := b.toNat_lt
  rw [UInt8.toNat_add]
  by_cases carry : 255 < a.toNat + b.toNat
  · rw [if_pos carry]
    omega
  · rw [if_neg carry]
    omega

theorem borrow_sub (a b : UInt8) :
    ((a - b).toNat : Int) = a.toNat - b.toNat + 256 * (1 - (if b.toNat ≤ a.toNat then 1 else 0 : Nat)) := by
  have first := a.toNat_lt
  have second := b.toNat_lt
  rw [UInt8.toNat_sub]
  by_cases covered : b.toNat ≤ a.toNat
  · rw [if_pos covered]
    omega
  · rw [if_neg covered]
    omega

theorem low_bit (s : UInt8) : (s % 2 == 1).toNat = s.toNat % 2 := by
  have odd : (s % 2 == 1) = decide (s.toNat % 2 = 1) := by
    rw [Bool.eq_iff_iff, beq_iff_eq, decide_eq_true_iff, ← UInt8.toNat_inj, UInt8.toNat_mod]
    rfl
  rw [odd, decide_toNat]
  by_cases up : s.toNat % 2 = 1
  · rw [if_pos up, up]
  · rw [if_neg up]
    omega

theorem high_bit (s : UInt8) : (decide (128 ≤ s)).toNat = s.toNat / 128 := by
  have bound := s.toNat_lt
  have high : decide (128 ≤ s) = decide (128 ≤ s.toNat) := decide_eq_decide.mpr UInt8.le_iff_toNat_le
  rw [high, decide_toNat]
  by_cases up : 128 ≤ s.toNat
  · rw [if_pos up]
    omega
  · rw [if_neg up]
    omega

theorem low_shiftRight (s : UInt8) : 2 * (s >>> 1).toNat + s.toNat % 2 = s.toNat := by
  have half : (s >>> 1).toNat = s.toNat / 2 := by
    rw [UInt8.toNat_shiftRight, Nat.shiftRight_eq_div_pow]
    rfl
  omega

theorem high_shiftLeft (s : UInt8) : 256 * (s.toNat / 128) + (s <<< 1).toNat = 2 * s.toNat := by
  have bound := s.toNat_lt
  have double : (s <<< 1).toNat = s.toNat * 2 % 256 := by
    rw [UInt8.toNat_shiftLeft, Nat.shiftLeft_eq]
    rfl
  omega

namespace Machine

open Registers (flag)

section

variable {m : Machine} {i : Instruction} {keys : Keys} {chance : UInt8}

/-! ## Results and flags -/

theorem leaves_setLogic (m : Machine) (x : Register) (b : UInt8) :
    Instruction.Leaves m.dialect (m.setLogic x b).v.number x b.toNat := by
  unfold Instruction.Leaves setLogic
  by_cases clears : m.dialect.clearFlag = true
  · rw [if_pos clears, if_pos clears]
    refine ⟨Registers.number_setFlagged.trans (if_pos rfl), ?_⟩
    intro apart
    exact Registers.number_setFlagged.trans ((if_neg (Ne.symm apart)).trans (if_pos rfl))
  · rw [if_neg clears, if_neg clears]
    exact Registers.number_set.trans (if_pos rfl)

/-- A law between a flag and its result holds of the two registers, unless they are one. -/
theorem law_setFlagged (m : Machine) (x : Register) (law : Nat → Nat → Prop) {b : UInt8} {flagged : Bool} {f : Nat}
    (flags : flagged.toNat = f) (holds : law f b.toNat) :
    let v := (m.setFlagged x b flagged).v
    v.number flag = f ∧ (x ≠ flag → law (v.number flag) (v.number x)) := by
  intro v
  have up : v.number flag = f := (Registers.number_setFlagged.trans (if_pos rfl)).trans flags
  refine ⟨up, ?_⟩
  intro apart
  have result : v.number x = b.toNat :=
    Registers.number_setFlagged.trans ((if_neg (Ne.symm apart)).trans (if_pos rfl))
  rw [up, result]
  exact holds

theorem subtracts_setFlagged (m : Machine) (x : Register) (a b : UInt8) :
    Instruction.Subtracts (m.setFlagged x (a - b) (b ≤ a)).v.number x a.toNat b.toNat :=
  m.law_setFlagged x (fun f r => (r : Int) = a.toNat - b.toNat + 256 * (1 - f)) (decide_toNat _) (borrow_sub a b)

theorem number_shifted (m : Machine) (x y : Register) :
    m.v.number (if m.dialect.shiftInPlace then x else y) = (m.shifted x y).toNat := rfl

/-! ## Effects -/

/-- The operands of an instruction are read before it writes, so aliases do not matter. -/
theorem computes_execute (m : Machine) (keys : Keys) (chance : UInt8) (arithmetic : i.IsArithmetic) :
    (m.execute keys chance i).fault = none ∧
      i.Computes m.dialect m.v.number (m.execute keys chance i).machine.v.number := by
  cases i with
  | addByte x kk =>
    refine ⟨rfl, Registers.number_set.trans ?_⟩
    rw [if_pos rfl, UInt8.toNat_add]
    rfl
  | or x y =>
    have leaves := m.leaves_setLogic x (m.v.get x ||| m.v.get y)
    rw [UInt8.toNat_or] at leaves
    exact ⟨rfl, leaves⟩
  | and x y =>
    have leaves := m.leaves_setLogic x (m.v.get x &&& m.v.get y)
    rw [UInt8.toNat_and] at leaves
    exact ⟨rfl, leaves⟩
  | xor x y =>
    have leaves := m.leaves_setLogic x (m.v.get x ^^^ m.v.get y)
    rw [UInt8.toNat_xor] at leaves
    exact ⟨rfl, leaves⟩
  | add x y =>
    exact ⟨rfl, m.law_setFlagged x (fun f r => 256 * f + r = m.v.number x + m.v.number y) (decide_toNat _)
      (carry_add _ _)⟩
  | sub x y => exact ⟨rfl, m.subtracts_setFlagged x _ _⟩
  | subFrom x y => exact ⟨rfl, m.subtracts_setFlagged x _ _⟩
  | shiftRight x y =>
    have low := low_bit (m.shifted x y)
    refine ⟨rfl, ?_⟩
    simp only [Instruction.Computes, number_shifted]
    exact m.law_setFlagged x (fun f r => 2 * r + f = (m.shifted x y).toNat) low (low_shiftRight _)
  | shiftLeft x y =>
    have high := high_bit (m.shifted x y)
    refine ⟨rfl, ?_⟩
    simp only [Instruction.Computes, number_shifted]
    exact m.law_setFlagged x (fun f r => 256 * f + r = 2 * (m.shifted x y).toNat) high (high_shiftLeft _)
  | _ => exact absurd arithmetic id

/-- Only registers change, but for the word that was taken in. -/
theorem registers_execute (m : Machine) (keys : Keys) (chance : UInt8) (arithmetic : i.IsArithmetic) :
    ∃ v, (m.execute keys chance i).machine = { m with v := v } := by
  cases i with
  | or x y | and x y | xor x y =>
    simp only [execute, Effect.done, setLogic]
    split <;> exact ⟨_, rfl⟩
  | addByte | add | sub | shiftRight | subFrom | shiftLeft => exact ⟨_, rfl⟩
  | _ => exact absurd arithmetic id

end

/-- An arithmetic instruction is always carried out, and the numbers it leaves in the registers follow its law,
    whichever of `Vx`, `Vy` and the flag are one register. A register that it does not set keeps its number, and
    nothing else of the machine changes but for the word that was taken in. -/
theorem cycle_computes {m : Machine} {i : Instruction} (here : m.At i) (arithmetic : i.IsArithmetic) (keys : Keys)
    (chance : UInt8) :
    let c := m.cycle keys chance
    c.fault = none ∧
    i.Computes m.dialect m.v.number c.machine.v.number ∧
    (∀ k, ¬i.SetsRegister m.dialect k → c.machine.v.number k = m.v.number k) ∧
    ∃ v, c.machine = { m.fetched i.encode with v := v } := by
  intro c
  have ran : c = (m.fetched i.encode).perform keys chance i := cycle_at here
  obtain ⟨done, computes⟩ := (m.fetched i.encode).computes_execute keys chance arithmetic
  have carried : c.fault = none := by rw [ran]; exact done
  refine ⟨carried, ?_, ?_, ?_⟩
  · rw [ran]
    exact computes
  · intro k untouched
    have kept : c.machine.v.get k = m.v.get k := by
      apply Decidable.byContradiction
      intro changed
      exact untouched ((footprint_cycle here carried).registers k changed)
    rw [Registers.number, kept]
    rfl
  · rw [ran]
    exact registers_execute _ keys chance arithmetic

/-- The flag minus `V1`, in the flag: the borrow is what is left, not the difference. -/
theorem cycle_computes_in_the_flag :
    let m := { holding [0x8F, 0x15] with v := (Registers.zero.set 0xF 3).set 1 5 }
    let c := m.cycle Keys.none 0
    m.At (.sub 0xF 1) ∧ c.machine.v.number 0xF = 0 ∧ c.machine.v.number 1 = 5 := by
  intro m c
  have here : m.At (.sub 0xF 1) := ⟨by decide, by decide⟩
  obtain ⟨-, ⟨borrow, -⟩, kept, -⟩ := cycle_computes here trivial Keys.none 0
  have untouched : ¬Instruction.SetsRegister m.dialect 1 (.sub 0xF 1) := by rintro (same | same) <;> cases same
  exact ⟨here, borrow, kept 1 untouched⟩

end Machine

end Chip8
