/-
  Chip8.Display.Palette — the two colours of a window.

  A palette is given as one or two colours, separated by a comma: the background and the foreground.
  A colour is six characters that are a numeral in base sixteen; the top eight bits of its value are
  red, the next green, the last blue. A colour that is not given keeps its default.
-/
import Chip8.Text.Fields
import Chip8.Text.Numeral

namespace Chip8.Display

structure Colour where
  red : UInt8
  green : UInt8
  blue : UInt8
  deriving DecidableEq, Repr

namespace Colour

/-- The colour of a number, if its red part is a byte. -/
def ofInt? (n : Int) : Option Colour :=
  let red := n / 0x10000
  if 0 ≤ red ∧ red < 256 then
    some ⟨UInt8.ofNat red.toNat, UInt8.ofNat (n / 0x100 % 256).toNat, UInt8.ofNat (n % 256).toNat⟩
  else none

def toList (c : Colour) : List UInt8 := [c.red, c.green, c.blue]

end Colour

structure Palette where
  background : Colour
  foreground : Colour
  deriving DecidableEq, Repr

inductive PaletteError where
  | tooMany
  | badLength
  | badDigits
  /-- A numeral of six characters that is below zero is no colour. -/
  | negative
  deriving DecidableEq, Repr

namespace PaletteError

def message : PaletteError → String
  | tooMany => "Too many palette colours defined.  Only background and foreground are used."
  | badLength => "Palette colours must all be 6 hex digits long."
  | badDigits => "Invalid palette colour defined."
  | negative => "Palette colour below zero."

/-- Is the refusal one that is put to the user? -/
def isReported : PaletteError → Bool
  | negative => false
  | _ => true

end PaletteError

namespace Palette

def default : Palette := ⟨⟨0x22, 0x22, 0x22⟩, ⟨0xDD, 0xDD, 0xDD⟩⟩

def number (part : List Char) : Except PaletteError Int :=
  if part.length ≠ 6 then .error .badLength
  else match Text.Numeral.int? .sixteen part with
    | some n => .ok n
    | none => .error .badDigits

def colour (n : Int) : Except PaletteError Colour :=
  match Colour.ofInt? n with
  | some c => .ok c
  | none => .error .negative

/-- Reads a palette. All numerals are read before the first is made a colour. -/
def parse (text : List Char) : Except PaletteError Palette := do
  let parts := Text.fields ',' text
  if 2 < parts.length then .error .tooMany
  else
    let numbers ← parts.mapM number
    match ← numbers.mapM colour with
    | [background] => .ok { default with background := background }
    | [background, foreground] => .ok ⟨background, foreground⟩
    | _ => .ok default

def colourOf? (p : Palette) (pixel : UInt8) : Option Colour :=
  if pixel = 0 then some p.background else if pixel = 1 then some p.foreground else none

end Palette

end Chip8.Display
