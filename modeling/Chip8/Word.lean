/-
  Chip8.Word — the operand fields of an instruction word.

  A word has sixteen bits: the family in the top four, then `x`, `y` and `n` of four bits each. The
  byte `kk` is the lower eight bits, the address `nnn` the lower twelve. A number of any size stands
  for the word of its sixteen low bits, two's complement for a negative one.
-/

namespace Chip8.Word

def ofInt (n : Int) : Nat := (n % 0x10000).toNat

def tableKey (n : Int) : Int :=
  let key := n.tmod 0x1FFFFFFFFFFFFFFF
  if key = -1 then -2 else key

def family (w : Nat) : Nat := w / 0x1000

def x (w : Nat) : Fin 16 := ⟨w / 0x100 % 16, Nat.mod_lt _ (by decide)⟩

def y (w : Nat) : Fin 16 := ⟨w / 0x10 % 16, Nat.mod_lt _ (by decide)⟩

def n (w : Nat) : Fin 16 := ⟨w % 16, Nat.mod_lt _ (by decide)⟩

def kk (w : Nat) : UInt8 := UInt8.ofNat (w % 0x100)

def nnn (w : Nat) : Fin 0x1000 := ⟨w % 0x1000, Nat.mod_lt _ (by decide)⟩

/-- The fields make up the word. -/
theorem fields_sum (w : Nat) : family w * 0x1000 + x w * 0x100 + y w * 0x10 + n w = w := by
  simp only [family, x, y, n]; omega

theorem kk_eq (w : Nat) : (kk w).toNat = y w * 0x10 + n w := by
  simp only [kk, y, n, UInt8.toNat_ofNat']; omega

theorem nnn_eq (w : Nat) : (nnn w : Nat) = x w * 0x100 + (kk w).toNat := by
  simp only [kk_eq, nnn, x, y, n]; omega

/-! ## Masks -/

theorem and_family {w : Nat} (fits : w < 0x10000) : w &&& 0xF000 = family w * 0x1000 := by
  have low : (w &&& 0xF000) % 2 ^ 12 = 0 := by
    rw [Nat.and_mod_two_pow]
    exact Nat.and_zero _
  have high : (w &&& 0xF000) / 2 ^ 12 = w / 2 ^ 12 % 2 ^ 4 := by
    rw [Nat.and_div_two_pow, show 0xF000 / 2 ^ 12 = 2 ^ 4 - 1 from rfl, Nat.and_two_pow_sub_one_eq_mod]
  simp only [family]
  omega

/-- A mask of the family and the `k` low bits keeps just these. -/
theorem and_mask {w k : Nat} (fits : w < 0x10000) (narrow : k ≤ 12) :
    w &&& (0xF000 ||| (1 <<< k - 1)) = family w * 0x1000 + w % (1 <<< k) := by
  rw [Nat.one_shiftLeft]
  have low : w % 2 ^ k < 2 ^ 12 :=
    Nat.lt_of_lt_of_le (Nat.mod_lt _ (Nat.two_pow_pos k)) (Nat.pow_le_pow_right (by decide) narrow)
  rw [Nat.and_or_distrib_left, and_family fits, Nat.and_two_pow_sub_one_eq_mod, Nat.mul_comm]
  exact (Nat.two_pow_add_eq_or_of_lt low (family w)).symm

end Chip8.Word
