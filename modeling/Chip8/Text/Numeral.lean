/-
  Chip8.Text.Numeral — whole numbers as users type them.

  A numeral is a sign at most, then digits, with white space around. A single underscore may stand
  between two digits. In base sixteen the digits may follow `0x`, and then an underscore may also
  stand right after that mark. A decimal numeral has at most 4300 digits.
-/
import Chip8.Text.Blank
import Chip8.Text.DecimalDigit

namespace Chip8.Text.Numeral

inductive Base where
  | ten
  | sixteen
  deriving DecidableEq, Repr

def Base.size : Base → Nat
  | .ten => 10
  | .sixteen => 16

/-- The longest numeral that is read. Only decimal ones are limited. -/
def Base.maxDigits? : Base → Option Nat
  | .ten => some 4300
  | .sixteen => none

def letterValue? (c : Char) : Option Nat :=
  if 'a' ≤ c && c ≤ 'f' then some (c.toNat - 'a'.toNat + 10)
  else if 'A' ≤ c && c ≤ 'F' then some (c.toNat - 'A'.toNat + 10)
  else none

def digit? (b : Base) (c : Char) : Option Nat :=
  match DecimalDigit.value? c, b with
  | some d, _ => some d
  | none, .sixteen => letterValue? c
  | none, .ten => none

def following? (b : Base) : List Char → Option (List Nat)
  | [] => some []
  | '_' :: c :: rest => do
    let d ← digit? b c
    let ds ← following? b rest
    return d :: ds
  | c :: rest => do
    let d ← digit? b c
    let ds ← following? b rest
    return d :: ds

def digits? (b : Base) : List Char → Option (List Nat)
  | [] => none
  | c :: rest => do
    let d ← digit? b c
    let ds ← following? b rest
    return d :: ds

/-- The text after a base mark: in base sixteen `0x`, with an underscore after it at most. -/
def unmarked (b : Base) : List Char → List Char
  | z :: x :: rest =>
    if b = .sixteen ∧ DecimalDigit.value? z = some 0 ∧ (x = 'x' ∨ x = 'X') then
      match rest with
      | '_' :: more => more
      | _ => rest
    else z :: x :: rest
  | cs => cs

def ofDigits (b : Base) (ds : List Nat) : Nat := ds.foldl (fun n d => n * b.size + d) 0

def magnitude? (b : Base) (cs : List Char) : Option Nat := do
  let ds ← digits? b (unmarked b cs)
  if (b.maxDigits?).all fun limit => ds.length ≤ limit then some (ofDigits b ds) else none

def int? (b : Base) (text : List Char) : Option Int :=
  match trim text with
  | '+' :: rest => (magnitude? b rest).map Int.ofNat
  | '-' :: rest => (magnitude? b rest).map fun n => -Int.ofNat n
  | cs => (magnitude? b cs).map Int.ofNat

end Chip8.Text.Numeral
