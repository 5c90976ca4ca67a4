/-
  Chip8.Text.Hex — hexadecimal text.

  Addresses, opcodes and registers are shown in lower-case hexadecimal, filled with zeros to a
  least width. A sign stands before the filling and counts towards the width.
-/

namespace Chip8.Text.Hex

def digits (n : Nat) : List Char := Nat.toDigits 16 n

/-- A number in at least `width` characters, its sign included. -/
def padded (width : Nat) (n : Int) : String :=
  let sign := if n < 0 then ['-'] else []
  let body := digits n.natAbs
  String.ofList (sign ++ List.replicate (width - (sign.length + body.length)) '0' ++ body)

def byte (b : UInt8) : String := padded 2 b.toNat

def bytes (bs : List UInt8) : String := String.join (bs.map byte)

def value (c : Char) : Nat :=
  if '0' ≤ c && c ≤ '9' then c.toNat - '0'.toNat
  else if 'a' ≤ c && c ≤ 'f' then c.toNat - 'a'.toNat + 10
  else if 'A' ≤ c && c ≤ 'F' then c.toNat - 'A'.toNat + 10
  else 0

/-- The bytes that pairs of digits spell; a last digit without a partner is left out. -/
def read : List Char → List UInt8
  | a :: b :: rest => UInt8.ofNat (value a * 16 + value b) :: read rest
  | _ => []

end Chip8.Text.Hex
