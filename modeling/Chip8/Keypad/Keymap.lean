/-
  Chip8.Keypad.Keymap — which typed code is which key.

  A keymap is given as sixteen numbers, separated by commas: the codes of the keys 0 to F. No code
  may serve two keys, and none may be one that the keypad keeps for itself. Where the codes are
  characters, capitals count as their small letters.
-/
import Chip8.Host
import Chip8.Text.Fields
import Chip8.Text.Latin
import Chip8.Text.Numeral

namespace Chip8.Keypad

/-- Codes and their keys, in the order of the keys. -/
abbrev Keymap := List (Int × Fin 16)

inductive KeymapError where
  | wrongCount
  | notNumeral
  | reserved (code : Int)
  | duplicate
  deriving DecidableEq, Repr

namespace KeymapError

def message : KeymapError → String
  | wrongCount => "Incorrect number of keys defined -- 16 required.  Use commas to split numbers"
  | notNumeral => "Defined keys are not all integer values"
  | reserved code => "Key " ++ toString code ++ " is reserved for emulator controls"
  | duplicate => "Duplicate keys defined"

end KeymapError

namespace Keymap

def standard : String := "120,49,50,51,113,119,101,97,115,100,122,99,52,114,102,118"

def key? (m : Keymap) (code : Int) : Option (Fin 16) := (m.find? fun p => p.1 == code).map (·.2)

def folded (lower : Bool) (code : Int) : Int := if lower then Text.Latin.lower code else code

def extend (lower : Bool) (reserved : List Int) (m : Keymap) :
    List (List Char × Fin 16) → Except KeymapError Keymap
  | [] => .ok m
  | (text, key) :: rest =>
    match Text.Numeral.int? .ten text with
    | none => .error .notNumeral
    | some n =>
      let code := folded lower n
      if reserved.contains code then .error (.reserved code)
      else if (m.key? code).isSome then .error .duplicate
      else extend lower reserved (m ++ [(code, key)]) rest

def parse (lower : Bool) (reserved : List Int) (text : List Char) : Except KeymapError Keymap :=
  let parts := Text.fields ',' text
  if parts.length ≠ 16 then .error .wrongCount
  else extend lower reserved [] (parts.zip (List.finRange 16))

end Keymap

/-! ## Control codes -/

/-- The codes that a keypad keeps for the emulator. -/
abbrev Controls := List (Int × HostEvent)

namespace Controls

def event? (c : Controls) (code : Int) : Option HostEvent := (c.find? fun p => p.1 == code).map (·.2)

def codes (c : Controls) : List Int := c.map (·.1)

def keyboard : Controls := [(27, .quit), (32, .pause), (8, .reset)]

/-- Escape, interrupt and space as characters, and what terminals send for backspace. -/
def characters : Controls := [(27, .quit), (3, .quit), (32, .pause), (8, .reset), (127, .reset), (263, .reset)]

end Controls

/-- The event of a batch so far and the next one: a later event takes the place of an earlier one,
    but nothing takes the place of quitting. -/
def merge (earlier : Option HostEvent) (later : HostEvent) : Option HostEvent :=
  if earlier = some .quit then earlier else some later

end Chip8.Keypad
