/-
  Chip8.Buzzer.Wave — one cycle of a square wave.

  Unsigned eight-bit samples: high for the first half, low for the rest. The length of the cycle is
  the whole part of the sample rate divided by the tone, and at least two. A cycle whose half the
  host cannot count, or has no room for, is refused.
-/
import Chip8.Number
import Chip8.Size

namespace Chip8.Buzzer

structure Wave where
  high : Nat
  low : Nat
  deriving DecidableEq, Repr

inductive WaveError where
  | noLength (error : NumberError)
  | badSize (error : SizeError)
  deriving DecidableEq, Repr

namespace Wave

/-- A cycle of a given length; the odd sample is a low one. -/
def ofLength (n : Nat) : Wave := ⟨n / 2, n - n / 2⟩

/-- The bytes that a sample takes while its wave is built. -/
def sampleBytes : Nat := 8

def checkLength (room : Nat) (n : Int) : Except SizeError Unit :=
  if ¬Size.Countable (n / 2) then .error .uncountable
  else if room < sampleBytes * (n / 2) then .error .noRoom
  else .ok ()

def ofTone (room : Nat) (tone rate : Number) : Except WaveError Wave := do
  let n ← (rate.quotient tone).mapError .noLength
  let length := max 2 n
  (checkLength room length).mapError .badSize
  return ofLength length.toNat

theorem ofTone_of_checkLength {room : Nat} {tone rate : Number} {n : Int} (cycle : rate.quotient tone = .ok n)
    (checked : checkLength room (max 2 n) = .ok ()) : ofTone room tone rate = .ok (ofLength (max 2 n).toNat) := by
  rw [ofTone, cycle]
  show Except.bind ((checkLength room (max 2 n)).mapError WaveError.badSize) _ = _
  rw [checked]
  rfl

def length (w : Wave) : Nat := w.high + w.low

def runs (w : Wave) : List (UInt8 × Nat) := [(0xFF, w.high), (0x00, w.low)]

end Wave

end Chip8.Buzzer
