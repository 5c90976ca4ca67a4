/-
  Chip8.Number — frequencies and rates as they are given.

  A rate is a whole number of any size or a double. Whole numbers divide exactly before the one
  rounding; as soon as a double takes part, both sides are doubles first.
-/
import Chip8.Number.Double

namespace Chip8

inductive Number where
  | whole (n : Int)
  | real (x : Double)
  deriving DecidableEq, Repr

inductive NumberError where
  | divisionByZero
  | tooLarge
  | undefined
  deriving DecidableEq, Repr

namespace Number

def isZero : Number → Bool
  | whole n => n == 0
  | real x => x.isZero

/-- Is the number above zero? What is no number is not refused. -/
def isPositive : Number → Bool
  | whole n => 0 < n
  | real x => !Double.le x (.finite 0 0)

def isAtMost (n : Number) (bound : Int) : Bool :=
  match n with
  | whole n => n ≤ bound
  | real x => x.le (.finite bound 0)

/-- The double for a number; a whole number can be too large to have one. -/
def toDouble : Number → Except NumberError Double
  | whole n =>
    match Double.ofInt n with
    | .infinite _ => .error .tooLarge
    | x => .ok x
  | real x => .ok x

def div : Number → Number → Except NumberError Double
  | whole a, whole b =>
    if b = 0 then .error .divisionByZero
    else match Double.ofRatio (if b < 0 then -a else a) b.natAbs with
      | .infinite _ => .error .tooLarge
      | x => .ok x
  | a, b => do
    let x ← a.toDouble
    let y ← b.toDouble
    if y.isZero then .error .divisionByZero else .ok (x.div y)

/-- The whole part of the quotient, toward zero. -/
def quotient (a b : Number) : Except NumberError Int := do
  match ← a.div b with
  | .infinite _ => .error .tooLarge
  | x => match x.truncate? with
    | some n => .ok n
    | none => .error .undefined

end Number

end Chip8
