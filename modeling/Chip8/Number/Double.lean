/-
  Chip8.Number.Double — double-precision numbers, exactly.

  A finite double is a mantissa of at most 53 bits times a power of two, so its value is an exact
  number and comparisons with whole numbers are exact. `ofRatio` is the one place where a value is
  rounded: to the nearest double, a tie to the even mantissa, to an infinity past the largest one.
  The two zeros are one value here: nothing that is computed with doubles tells them apart.
-/

namespace Chip8

/-- A double: `mantissa * 2 ^ exponent`, an infinity, or no number at all. -/
inductive Double where
  | finite (mantissa exponent : Int)
  | infinite (negative : Bool)
  | undefined
  deriving DecidableEq, Repr

namespace Double

def twoTo (k : Nat) : Nat := Nat.pow 2 k

/-! ## Rounding -/

/-- The exponent of the last of 53 places of `num / den`, but no finer than the smallest double. -/
def lastPlace (num den : Nat) : Int :=
  let low := (num.log2 : Int) - den.log2 - 53
  let high := low + 53
  let e := if den * twoTo high.toNat ≤ num * twoTo (-high).toNat then low + 1 else low
  max e (-1074)

/-- The whole number nearest to `num / den`; a half goes to the even neighbour. -/
def nearest (num den : Nat) : Nat :=
  let q := num / den
  let twice := 2 * (num % den)
  if twice < den ∨ (twice = den ∧ q % 2 = 0) then q else q + 1

/-- The magnitude of a rounded quotient, or `none` past the largest double. -/
def magnitude? (num den : Nat) : Option (Nat × Int) :=
  let e := lastPlace num den
  let m := nearest (num * twoTo (-e).toNat) (den * twoTo e.toNat)
  if 971 < e ∨ (e = 971 ∧ twoTo 53 ≤ m) then none else some (m, e)

/-- The double nearest to `num / den`, for a positive `den`. -/
def ofRatio (num : Int) (den : Nat) : Double :=
  if num = 0 then finite 0 0
  else match magnitude? num.natAbs den with
    | none => infinite (num < 0)
    | some (m, e) => finite (if num < 0 then -m else m) e

def ofInt (n : Int) : Double := ofRatio n 1

/-! ## Arithmetic and order -/

def aligned (m₁ e₁ m₂ e₂ : Int) : Int × Int × Int :=
  let e := min e₁ e₂
  (m₁ * twoTo (e₁ - e).toNat, m₂ * twoTo (e₂ - e).toNat, e)

def scaled (m e : Int) : Double := ofRatio (m * twoTo e.toNat) (twoTo (-e).toNat)

def add : Double → Double → Double
  | finite m₁ e₁, finite m₂ e₂ =>
    let (a, b, e) := aligned m₁ e₁ m₂ e₂
    scaled (a + b) e
  | undefined, _ => undefined
  | _, undefined => undefined
  | infinite s, infinite t => if s = t then infinite s else undefined
  | infinite s, finite _ _ => infinite s
  | finite _ _, infinite t => infinite t

def div : Double → Double → Double
  | finite m₁ e₁, finite m₂ e₂ =>
    let (a, b, _) := aligned m₁ e₁ m₂ e₂
    ofRatio (if b < 0 then -a else a) b.natAbs
  | undefined, _ => undefined
  | _, undefined => undefined
  | infinite _, infinite _ => undefined
  | infinite s, finite m _ => infinite (xor s (decide (m < 0)))
  | finite _ _, infinite _ => finite 0 0

def isZero : Double → Bool
  | finite m _ => m == 0
  | _ => false

/-- Exact order; nothing is below or above what is no number. -/
def le : Double → Double → Bool
  | finite m₁ e₁, finite m₂ e₂ =>
    let (a, b, _) := aligned m₁ e₁ m₂ e₂
    a ≤ b
  | undefined, _ => false
  | _, undefined => false
  | infinite true, _ => true
  | _, infinite false => true
  | infinite false, _ => false
  | _, infinite true => false

def lt : Double → Double → Bool
  | undefined, _ => false
  | _, undefined => false
  | a, b => !le b a

/-! ## Whole part and bits -/

def truncate? : Double → Option Int
  | finite m e => some ((m * twoTo e.toNat).tdiv (twoTo (-e).toNat))
  | _ => none

def floor? : Double → Option Int
  | finite m e => some ((m * twoTo e.toNat).fdiv (twoTo (-e).toNat))
  | _ => none

def ceil? : Double → Option Int
  | finite m e => some (-(-(m * twoTo e.toNat) / twoTo (-e).toNat))
  | _ => none

theorem twoTo_pos (k : Nat) : 0 < twoTo k := Nat.pow_pos (by decide)

/-- A whole number is not below a finite number just if it is not below the least such number. -/
theorem le_whole {x : Double} {w : Int} (h : x.ceil? = some w) (n : Int) : x.le (.finite n 0) = decide (w ≤ n) := by
  cases x with
  | infinite _ => cases h
  | undefined => cases h
  | finite m e =>
    cases h
    have positive : (0 : Int) < twoTo (-e).toNat := Int.natCast_pos.mpr (twoTo_pos _)
    have bound : -(-(m * twoTo e.toNat) / twoTo (-e).toNat) ≤ n ↔ m * twoTo e.toNat ≤ n * twoTo (-e).toNat := by
      have := Int.le_ediv_iff_mul_le (a := -n) (b := -(m * twoTo e.toNat)) positive
      rw [Int.neg_mul] at this
      omega
    rw [le, aligned, decide_eq_decide, bound]
    rcases Int.le_total 0 e with up | down
    · have low : min e 0 = 0 := by omega
      simp [low, show (-e).toNat = 0 by omega]
    · have low : min e 0 = e := by omega
      simp [low, show e.toNat = 0 by omega]

def fieldsOf (m : Nat) (e : Int) : Nat :=
  let top := m.log2
  let power := (top : Int) + e
  if power < -1022 then m * twoTo (e + 1074).toNat
  else
    let fraction := if top ≤ 52 then m * twoTo (52 - top) else m / twoTo (top - 52)
    (power + 1023).toNat * twoTo 52 + (fraction - twoTo 52)

/-- The 64 bits of the interchange format. -/
def bits : Double → Nat
  | finite m e => if m = 0 then 0 else (if m < 0 then twoTo 63 else 0) + fieldsOf m.natAbs e
  | infinite negative => (if negative then twoTo 63 else 0) + 2047 * twoTo 52
  | undefined => 2047 * twoTo 52 + twoTo 51

end Double

end Chip8
