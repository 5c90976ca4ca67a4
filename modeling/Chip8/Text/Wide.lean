/-
  Chip8.Text.Wide — texts that may hold halves of surrogate pairs.

  A program that hands over a text can put a half of a surrogate pair into it, for which there is no
  character. In the name of a file the halves from U+DC80 to U+DCFF stand for the bytes from 80 to FF, where
  these are no text themselves. The other halves stand for nothing, and a name that has one has no bytes.
-/

namespace Chip8.Text

inductive Point where
  | char (c : Char)
  /-- The half with this number, from U+D800 on. -/
  | half (number : Fin 0x800)
  deriving DecidableEq, Repr

abbrev Wide := List Point

namespace Point

def char? : Point → Option Char
  | char c => some c
  | half _ => none

def bytes? : Point → Option (List UInt8)
  | char c => some (String.utf8EncodeChar c)
  | half n => if 0x480 ≤ n.val ∧ n.val < 0x500 then some [UInt8.ofNat (n.val - 0x400)] else none

end Point

namespace Wide

def ofString (s : String) : Wide := s.toList.map .char

def text? (t : Wide) : Option String := (t.mapM Point.char?).map String.ofList

/-- The text with the replacement character in the place of each half. -/
def legible (t : Wide) : String := String.ofList (t.map fun p => p.char?.getD (Char.ofNat 0xFFFD))

/-- The bytes of the name of a file; none if there are none for one of its points. -/
def bytes? (t : Wide) : Option (List UInt8) := (t.mapM Point.bytes?).map List.flatten

theorem mapM_char? {t : Wide} {cs : List Char} : t.mapM Point.char? = some cs ↔ t = cs.map .char := by
  induction t generalizing cs with
  | nil => cases cs <;> simp
  | cons p rest ih =>
    cases p with
    | char c =>
      cases cs with
      | nil => simp [List.mapM_cons, Point.char?, Option.bind_eq_some_iff]
      | cons d rest => simpa [List.mapM_cons, Point.char?, Option.bind_eq_some_iff, ih] using and_comm
    | half n => cases cs <;> simp [List.mapM_cons, Point.char?]

theorem text?_eq_some {t : Wide} {s : String} : t.text? = some s ↔ t = ofString s := by
  simp only [text?, ofString, Option.map_eq_some_iff, mapM_char?]
  constructor
  · rintro ⟨cs, rfl, rfl⟩
    rw [String.toList_ofList]
  · rintro rfl
    exact ⟨s.toList, rfl, String.ofList_toList⟩

theorem legible_ofString (s : String) : (ofString s).legible = s := by
  simp [legible, ofString, Point.char?, Function.comp_def]

end Wide

end Chip8.Text
