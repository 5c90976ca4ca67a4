/-
  Chip8.Text.Quoted — file names in error messages.

  A quoted name stands between single quotes, or between double quotes when it holds a single quote
  and no double one. The quote in use and the backslash are written after a backslash; tab, line
  feed and carriage return are `t`, `n` and `r` after one; any other character that is not printable,
  and any half of a surrogate pair, is its code in hexadecimal. In a name that is not quoted only the
  halves are written in this way.
-/
import Chip8.Text.Hex
import Chip8.Text.Printable
import Chip8.Text.Wide

namespace Chip8.Text.Quoted

def mark (name : Wide) : Char :=
  if name.contains (.char '\x27') && !name.contains (.char '\x22') then '\x22' else '\x27'

def coded (n : Nat) : List Char :=
  if n ≤ 0xFF then ['\\', 'x'] ++ (Hex.padded 2 n).toList
  else if n ≤ 0xFFFF then ['\\', 'u'] ++ (Hex.padded 4 n).toList
  else ['\\', 'U'] ++ (Hex.padded 8 n).toList

def codedHalf (number : Fin 0x800) : List Char := coded (0xD800 + number.val)

def escaped (quote : Char) : Point → List Char
  | .half n => codedHalf n
  | .char c =>
    if c = quote ∨ c = '\\' then ['\\', c]
    else if c = '\t' then ['\\', 't']
    else if c = '\n' then ['\\', 'n']
    else if c = '\r' then ['\\', 'r']
    else if Printable.isPrintable c then [c]
    else coded c.toNat

def quote (name : Wide) : String :=
  let q := mark name
  String.ofList ([q] ++ name.flatMap (escaped q) ++ [q])

def plain (name : Wide) : String :=
  String.ofList (name.flatMap fun p => match p with
    | .char c => [c]
    | .half n => codedHalf n)

end Chip8.Text.Quoted
