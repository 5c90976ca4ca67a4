/-
  Chip8.Instruction — the instruction set and its words.

  `encode` is the word of an instruction. The operands stand in the fields of the word, and the
  fields of such a word give them back.
-/
import Chip8.Word

namespace Chip8

abbrev Register := Fin 16

abbrev Address := Fin 0x1000

inductive Instruction where
  /-- 00E0: clear the screen. -/
  | clearScreen
  /-- 00EE: return from a call. -/
  | ret
  /-- 1nnn -/
  | jump (nnn : Address)
  /-- 2nnn -/
  | call (nnn : Address)
  /-- 3xkk: skip the next instruction if `Vx = kk`. -/
  | skipEqByte (x : Register) (kk : UInt8)
  /-- 4xkk: skip the next instruction if `Vx ≠ kk`. -/
  | skipNeByte (x : Register) (kk : UInt8)
  /-- 5xy0: skip the next instruction if `Vx = Vy`. -/
  | skipEq (x y : Register)
  /-- 6xkk -/
  | setByte (x : Register) (kk : UInt8)
  /-- 7xkk -/
  | addByte (x : Register) (kk : UInt8)
  /-- 8xy0 -/
  | copy (x y : Register)
  /-- 8xy1 -/
  | or (x y : Register)
  /-- 8xy2 -/
  | and (x y : Register)
  /-- 8xy3 -/
  | xor (x y : Register)
  /-- 8xy4 -/
  | add (x y : Register)
  /-- 8xy5: `Vx - Vy`. -/
  | sub (x y : Register)
  /-- 8xy6 -/
  | shiftRight (x y : Register)
  /-- 8xy7: `Vy - Vx`. -/
  | subFrom (x y : Register)
  /-- 8xyE -/
  | shiftLeft (x y : Register)
  /-- 9xy0: skip the next instruction if `Vx ≠ Vy`. -/
  | skipNe (x y : Register)
  /-- Annn -/
  | setIndex (nnn : Address)
  /-- Bnnn: jump to `nnn + V0`. -/
  | jumpOffset (nnn : Address)
  /-- Cxkk: a random byte, masked. -/
  | random (x : Register) (kk : UInt8)
  /-- Dxyn: draw a sprite of `n` rows. -/
  | draw (x y : Register) (n : Fin 16)
  /-- Ex9E -/
  | skipHeld (x : Register)
  /-- ExA1 -/
  | skipFree (x : Register)
  /-- Fx07 -/
  | readDelay (x : Register)
  /-- Fx0A: wait for a key. -/
  | awaitKey (x : Register)
  /-- Fx15 -/
  | setDelay (x : Register)
  /-- Fx18 -/
  | setSound (x : Register)
  /-- Fx1E -/
  | addIndex (x : Register)
  /-- Fx29: the address of a digit's glyph. -/
  | setGlyph (x : Register)
  /-- Fx33: the three decimal digits of `Vx`. -/
  | storeDecimal (x : Register)
  /-- Fx55: store V0 to Vx. -/
  | store (x : Register)
  /-- Fx65: load V0 to Vx. -/
  | load (x : Register)
  deriving DecidableEq, Repr

namespace Instruction

/-! ## Words -/

def wordNNN (family : Nat) (nnn : Address) : Nat := family * 0x1000 + nnn

def wordXKK (family : Nat) (x : Register) (kk : Nat) : Nat := family * 0x1000 + x * 0x100 + kk

def wordXYN (family : Nat) (x y : Register) (n : Nat) : Nat := family * 0x1000 + x * 0x100 + y * 0x10 + n

def encode : Instruction → Nat
  | clearScreen => 0x00E0
  | ret => 0x00EE
  | jump nnn => wordNNN 0x1 nnn
  | call nnn => wordNNN 0x2 nnn
  | skipEqByte x kk => wordXKK 0x3 x kk.toNat
  | skipNeByte x kk => wordXKK 0x4 x kk.toNat
  | skipEq x y => wordXYN 0x5 x y 0
  | setByte x kk => wordXKK 0x6 x kk.toNat
  | addByte x kk => wordXKK 0x7 x kk.toNat
  | copy x y => wordXYN 0x8 x y 0x0
  | or x y => wordXYN 0x8 x y 0x1
  | and x y => wordXYN 0x8 x y 0x2
  | xor x y => wordXYN 0x8 x y 0x3
  | add x y => wordXYN 0x8 x y 0x4
  | sub x y => wordXYN 0x8 x y 0x5
  | shiftRight x y => wordXYN 0x8 x y 0x6
  | subFrom x y => wordXYN 0x8 x y 0x7
  | shiftLeft x y => wordXYN 0x8 x y 0xE
  | skipNe x y => wordXYN 0x9 x y 0
  | setIndex nnn => wordNNN 0xA nnn
  | jumpOffset nnn => wordNNN 0xB nnn
  | random x kk => wordXKK 0xC x kk.toNat
  | draw x y n => wordXYN 0xD x y n
  | skipHeld x => wordXKK 0xE x 0x9E
  | skipFree x => wordXKK 0xE x 0xA1
  | readDelay x => wordXKK 0xF x 0x07
  | awaitKey x => wordXKK 0xF x 0x0A
  | setDelay x => wordXKK 0xF x 0x15
  | setSound x => wordXKK 0xF x 0x18
  | addIndex x => wordXKK 0xF x 0x1E
  | setGlyph x => wordXKK 0xF x 0x29
  | storeDecimal x => wordXKK 0xF x 0x33
  | store x => wordXKK 0xF x 0x55
  | load x => wordXKK 0xF x 0x65

/-! ## Fields of words -/

section

open Word

@[simp] theorem family_wordNNN (f : Nat) (a : Address) : family (wordNNN f a) = f := by
  simp only [family, wordNNN]; omega

@[simp] theorem nnn_wordNNN (f : Nat) (a : Address) : nnn (wordNNN f a) = a := by
  apply Fin.ext; simp only [nnn, wordNNN]; omega

@[simp] theorem family_wordXKK (f : Nat) (r : Register) {k : Nat} (h : k < 256) : family (wordXKK f r k) = f := by
  simp only [family, wordXKK]; omega

@[simp] theorem x_wordXKK (f : Nat) (r : Register) {k : Nat} (h : k < 256) : x (wordXKK f r k) = r := by
  apply Fin.ext; simp only [x, wordXKK]; omega

@[simp] theorem low_wordXKK (f : Nat) (r : Register) {k : Nat} (h : k < 256) : wordXKK f r k % 256 = k := by
  simp only [wordXKK]; omega

@[simp] theorem kk_wordXKK (f : Nat) (r : Register) (k : UInt8) : kk (wordXKK f r k.toNat) = k := by
  have := k.toNat_lt
  simp [kk, low_wordXKK f r this]

@[simp] theorem family_wordXYN (f : Nat) (r s : Register) {k : Nat} (h : k < 16) : family (wordXYN f r s k) = f := by
  simp only [family, wordXYN]; omega

@[simp] theorem x_wordXYN (f : Nat) (r s : Register) {k : Nat} (h : k < 16) : x (wordXYN f r s k) = r := by
  apply Fin.ext; simp only [x, wordXYN]; omega

@[simp] theorem y_wordXYN (f : Nat) (r s : Register) {k : Nat} (h : k < 16) : y (wordXYN f r s k) = s := by
  apply Fin.ext; simp only [y, wordXYN]; omega

@[simp] theorem low_wordXYN (f : Nat) (r s : Register) {k : Nat} (h : k < 16) : wordXYN f r s k % 16 = k := by
  simp only [wordXYN]; omega

theorem toNat_lt_256 (k : UInt8) : k.toNat < 256 := k.toNat_lt

@[simp] theorem n_wordXYN (f : Nat) (r s k : Fin 16) : n (wordXYN f r s k) = k :=
  Fin.ext (low_wordXYN f r s k.isLt)

end

end Instruction

end Chip8
