/-
  Chip8.Proofs.Texts — texts that can be taken apart again.

  A text of fields between separators is split in one way (`fields_eq_iff`), so two of them that are equal have
  the same fields (`intercalate_inj`). In hexadecimal a number is made of digits and a sign at most
  (`Hex.mem_padded`), and it is read back from its text whatever the least width (`Hex.padded_injective`). So
  are bytes of two digits each (`Hex.bytes_injective`).
-/
import Chip8.Text.Fields
import Chip8.Text.Hex
import Mathlib.Data.List.Basic
import Mathlib.Logic.Function.Basic

namespace Chip8.Text

/-! ## Fields -/

theorem fields_eq_splitOn (separator : Char) (text : List Char) : fields separator text = text.splitOn separator := by
  induction text with
  | nil => rfl
  | cons c rest ih =>
    rw [fields, List.splitOn_cons_eq_if_modifyHead, ← ih]
    by_cases same : c = separator
    · rw [if_pos same, if_pos (by simpa using same)]
    · rw [if_neg same, if_neg (by simpa using same)]
      cases split : fields separator rest with
      | nil => exact absurd split (fields_ne_nil separator rest)
      | cons f more => rfl

theorem not_mem_of_mem_fields {separator : Char} {text field : List Char} (mem : field ∈ fields separator text) :
    separator ∉ field := by
  induction text generalizing field with
  | nil =>
    obtain rfl : field = [] := by simpa [fields] using mem
    exact List.not_mem_nil
  | cons c rest ih =>
    rw [fields] at mem
    split at mem
    · rcases List.mem_cons.mp mem with rfl | later
      · exact List.not_mem_nil
      · exact ih later
    · next other =>
      cases split : fields separator rest with
      | nil => exact absurd split (fields_ne_nil separator rest)
      | cons f more =>
        rw [split] at mem ih
        rcases List.mem_cons.mp mem with rfl | later
        · have clean := ih List.mem_cons_self
          simp [clean, Ne.symm other]
        · exact ih (List.mem_cons_of_mem f later)

/-- A text is split in one way: into fields without separators that make it up again. -/
theorem fields_eq_iff {separator : Char} {text : List Char} {parts : List (List Char)} (some : parts ≠ []) :
    fields separator text = parts ↔
      text = [separator].intercalate parts ∧ ∀ field ∈ parts, separator ∉ field := by
  constructor
  · rintro rfl
    exact ⟨(intercalate_fields separator text).symm, fun field mem => not_mem_of_mem_fields mem⟩
  · rintro ⟨rfl, clean⟩
    rw [fields_eq_splitOn]
    exact List.splitOn_intercalate separator clean some

/-- Equal texts have the same fields. -/
theorem intercalate_inj {mark : String} {separator : Char} (single : mark.toList = [separator]) {xs ys : List String}
    (some : xs ≠ []) (others : ys ≠ []) (clean : ∀ x ∈ xs, separator ∉ x.toList) (also : ∀ y ∈ ys, separator ∉ y.toList)
    (same : mark.intercalate xs = mark.intercalate ys) : xs = ys := by
  have split {parts : List String} (some : parts ≠ []) (clean : ∀ x ∈ parts, separator ∉ x.toList) :
      fields separator (mark.intercalate parts).toList = parts.map String.toList := by
    rw [fields_eq_iff (by simpa using some), String.toList_intercalate, single]
    exact ⟨rfl, by simpa using clean⟩
  have equal : xs.map String.toList = ys.map String.toList := by rw [← split some clean, same, split others also]
  exact List.map_injective_iff.mpr (fun _ _ => String.toList_injective) equal

namespace Hex

/-! ## Numbers in hexadecimal -/

theorem value_digitChar : ∀ d < 16, value (Nat.digitChar d) = d := by decide

def number (cs : List Char) : Nat := cs.foldl (fun n c => n * 16 + value c) 0

theorem number_snoc (cs : List Char) (c : Char) : number (cs ++ [c]) = number cs * 16 + value c := by
  rw [number, List.foldl_append]
  rfl

theorem number_digits (n : Nat) : number (digits n) = n := by
  unfold digits
  induction n using Nat.strongRecOn with
  | ind n ih =>
    rw [Nat.toDigits_eq_if (by decide)]
    split
    · next small => simp [number, value_digitChar n small]
    · next large =>
      rw [number_snoc, ih (n / 16) (by omega), value_digitChar _ (Nat.mod_lt n (by decide))]
      omega

/-- Filling with zeros changes nothing. -/
theorem number_zeros (k : Nat) (cs : List Char) : number (List.replicate k '0' ++ cs) = number cs := by
  induction k with
  | zero => rfl
  | succ k ih =>
    rw [List.replicate_succ, List.cons_append]
    exact ih

def glyphs : List Char := ['-', '0', '1', '2', '3', '4', '5', '6', '7', '8', '9', 'a', 'b', 'c', 'd', 'e', 'f']

theorem mem_digits {n : Nat} {c : Char} (mem : c ∈ digits n) : c ∈ glyphs.tail := by
  have digit : ∀ d < 16, Nat.digitChar d ∈ glyphs.tail := by decide
  unfold digits at mem
  induction n using Nat.strongRecOn with
  | ind n ih =>
    rw [Nat.toDigits_eq_if (by decide)] at mem
    split at mem
    · next small =>
      rw [List.mem_singleton.mp mem]
      exact digit n small
    · rcases List.mem_append.mp mem with above | last
      · exact ih (n / 16) (by omega) above
      · rw [List.mem_singleton.mp last]
        exact digit _ (Nat.mod_lt n (by decide))

theorem mem_filled {k n : Nat} {c : Char} (mem : c ∈ List.replicate k '0' ++ digits n) : c ∈ glyphs.tail := by
  rcases List.mem_append.mp mem with zero | digit
  · rw [(List.mem_replicate.mp zero).2]
    decide
  · exact mem_digits digit

theorem mem_padded {width : Nat} {n : Int} {c : Char} (mem : c ∈ (padded width n).toList) : c ∈ glyphs := by
  rw [padded, String.toList_ofList, List.append_assoc] at mem
  rcases List.mem_append.mp mem with sign | filled
  · split at sign
    · rw [List.mem_singleton.mp sign]
      decide
    · cases sign
  · exact List.mem_of_mem_tail (mem_filled filled)

def signed : List Char → Int
  | '-' :: cs => -(number cs)
  | cs => number cs

theorem signed_of_unsigned {cs : List Char} (unsigned : '-' ∉ cs) : signed cs = number cs := by
  unfold signed
  split
  · exact absurd List.mem_cons_self unsigned
  · rfl

theorem signed_padded (width : Nat) (n : Int) : signed (padded width n).toList = n := by
  rw [padded, String.toList_ofList, List.append_assoc]
  by_cases below : n < 0
  · simp only [if_pos below, List.singleton_append, signed, number_zeros, number_digits]
    omega
  · have unsigned {k : Nat} : '-' ∉ List.replicate k '0' ++ digits n.natAbs := by
      intro mem
      exact absurd (mem_filled mem) (by decide)
    simp only [if_neg below, List.nil_append]
    rw [signed_of_unsigned unsigned, number_zeros, number_digits]
    omega

theorem padded_injective (width : Nat) : Function.Injective (padded width) := by
  intro a b same
  rw [← signed_padded width a, same, signed_padded]

/-! ## Bytes in hexadecimal -/

theorem toList_byte (b : UInt8) : (byte b).toList = [Nat.digitChar (b.toNat / 16), Nat.digitChar (b.toNat % 16)] := by
  have bound := b.toNat_lt
  have positive : ¬((b.toNat : Int) < 0) := by omega
  simp only [byte, padded, if_neg positive, String.toList_ofList, Int.natAbs_natCast, digits]
  by_cases small : b.toNat < 16
  · rw [Nat.toDigits_of_lt_base small, Nat.div_eq_of_lt small, Nat.mod_eq_of_lt small]
    rfl
  · rw [Nat.toDigits_of_base_le (by decide) (by omega), Nat.toDigits_of_lt_base (by omega)]
    rfl

theorem read_bytes (bs : List UInt8) : read (bytes bs).toList = bs := by
  induction bs with
  | nil => rfl
  | cons b rest ih =>
    have bound := b.toNat_lt
    have first : UInt8.ofNat (b.toNat / 16 * 16 + b.toNat % 16) = b := by
      rw [Nat.div_add_mod', UInt8.ofNat_toNat]
    simp only [bytes, String.toList_join, List.map_cons, List.flatMap_cons, toList_byte] at ih ⊢
    simp only [List.cons_append, List.nil_append, read, value_digitChar _ (show b.toNat / 16 < 16 by omega),
      value_digitChar _ (Nat.mod_lt b.toNat (by decide)), first, ih]

theorem bytes_injective : Function.Injective bytes := by
  intro as bs same
  rw [← read_bytes as, same, read_bytes]

theorem mem_bytes {bs : List UInt8} {c : Char} (mem : c ∈ (bytes bs).toList) : c ∈ glyphs := by
  simp only [bytes, String.toList_join, List.mem_flatMap, List.mem_map] at mem
  obtain ⟨_, ⟨b, -, rfl⟩, among⟩ := mem
  exact mem_padded among

end Hex

end Chip8.Text
