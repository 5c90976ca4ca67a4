/-
  Chip8.Instruction.Decode — from words to instructions.

  One table serves both looks that a word may need. `decode?` reads back what `encode` writes: a word
  is an instruction exactly when it is the word of one (`decode?_eq_some_iff`), so no word has two
  readings and every word outside the forms is refused.
-/
import Chip8.Instruction

namespace Chip8.Instruction

/-! ## Reading words -/

/-- What the table holds under a key: an instruction, made from a word that has this key, or the
    bits of a word that make up its key in a second look. -/
inductive Entry where
  | made (make : Nat → Instruction)
  | masked (bits : Nat)

open Word in
/-- One table for both looks. The first key of a word is its family. A family that several
    instructions share has a mask instead of an instruction, and the word under the mask is the
    second key. -/
def table : List (Nat × Entry) :=
  [(0x0, .masked 0xFFFF),
   (0x1, .made fun w => jump (nnn w)),
   (0x2, .made fun w => call (nnn w)),
   (0x3, .made fun w => skipEqByte (x w) (kk w)),
   (0x4, .made fun w => skipNeByte (x w) (kk w)),
   (0x5, .masked 0xF00F),
   (0x6, .made fun w => setByte (x w) (kk w)),
   (0x7, .made fun w => addByte (x w) (kk w)),
   (0x8, .masked 0xF00F),
   (0x9, .masked 0xF00F),
   (0xA, .made fun w => setIndex (nnn w)),
   (0xB, .made fun w => jumpOffset (nnn w)),
   (0xC, .made fun w => random (x w) (kk w)),
   (0xD, .made fun w => draw (x w) (y w) (n w)),
   (0xE, .masked 0xF0FF),
   (0xF, .masked 0xF0FF),
   (0x00E0, .made fun _ => clearScreen),
   (0x00EE, .made fun _ => ret),
   (0x5000, .made fun w => skipEq (x w) (y w)),
   (0x8000, .made fun w => copy (x w) (y w)),
   (0x8001, .made fun w => or (x w) (y w)),
   (0x8002, .made fun w => and (x w) (y w)),
   (0x8003, .made fun w => xor (x w) (y w)),
   (0x8004, .made fun w => add (x w) (y w)),
   (0x8005, .made fun w => sub (x w) (y w)),
   (0x8006, .made fun w => shiftRight (x w) (y w)),
   (0x8007, .made fun w => subFrom (x w) (y w)),
   (0x800E, .made fun w => shiftLeft (x w) (y w)),
   (0x9000, .made fun w => skipNe (x w) (y w)),
   (0xE09E, .made fun w => skipHeld (x w)),
   (0xE0A1, .made fun w => skipFree (x w)),
   (0xF007, .made fun w => readDelay (x w)),
   (0xF00A, .made fun w => awaitKey (x w)),
   (0xF015, .made fun w => setDelay (x w)),
   (0xF018, .made fun w => setSound (x w)),
   (0xF01E, .made fun w => addIndex (x w)),
   (0xF029, .made fun w => setGlyph (x w)),
   (0xF033, .made fun w => storeDecimal (x w)),
   (0xF055, .made fun w => store (x w)),
   (0xF065, .made fun w => load (x w))]

/-- The second look, with a word's key under the mask of its family. No mask leads to another
    (`masked_ends`). -/
def lookAgain (key w : Nat) : Option Instruction :=
  match table.lookup key with
  | some (.made make) => some (make w)
  | _ => none

/-- The instruction of a word, or `none` for a word that is not one. The keys below 0x10 stand for
    families, so a word that is such a number is not looked up again. -/
def decode? (w : Nat) : Option Instruction :=
  match table.lookup (Word.family w) with
  | some (.made make) => some (make w)
  | some (.masked bits) => if w < 0x10 then none else lookAgain (w &&& bits) w
  | none => none

section

open Word

/-! ## The table -/

theorem mem_table_of_lookup {key : Nat} {e : Entry} (h : table.lookup key = some e) : (key, e) ∈ table := by
  obtain ⟨before, after, split, -⟩ := List.lookup_eq_some_iff.1 h
  rw [split]
  exact List.mem_append_right _ List.mem_cons_self

/-- The families that are shared, with their masks. -/
theorem mask_of_family {f bits : Nat} (mem : (f, .masked bits) ∈ table) :
    f = 0x0 ∧ bits = 0xF000 ||| (1 <<< 12 - 1) ∨ (f = 0x5 ∨ f = 0x8 ∨ f = 0x9) ∧ bits = 0xF000 ||| (1 <<< 4 - 1) ∨
      (f = 0xE ∨ f = 0xF) ∧ bits = 0xF000 ||| (1 <<< 8 - 1) := by
  simp only [table, List.mem_cons, Prod.mk.injEq, Entry.masked.injEq, reduceCtorEq, and_false, false_or,
    or_false, List.not_mem_nil] at mem
  rcases mem with ⟨rfl, rfl⟩ | ⟨rfl, rfl⟩ | ⟨rfl, rfl⟩ | ⟨rfl, rfl⟩ | ⟨rfl, rfl⟩ | ⟨rfl, rfl⟩ <;> decide

/-- What an instruction keeps of the key and of the word it is made from. -/
theorem encode_made {key : Nat} {make : Nat → Instruction} (mem : (key, .made make) ∈ table) (w : Nat) :
    encode (make w) =
      if key < 0x10 then key * 0x1000 + w % 0x1000
      else if key < 0x1000 then key
      else if key < 0xE000 then key + x w * 0x100 + y w * 0x10
      else key + x w * 0x100 := by
  have low : w % 0x1000 = x w * 0x100 + y w * 0x10 + n w := by simp only [x, y, n]; omega
  simp only [table, List.mem_cons, Prod.mk.injEq, Entry.made.injEq, reduceCtorEq, and_false, false_or,
    or_false, List.not_mem_nil] at mem
  repeat' refine Or.elim mem (fun mem => ?_) fun mem => ?_
  all_goals obtain ⟨rfl, rfl⟩ := mem
  all_goals simp [encode, wordNNN, wordXKK, wordXYN, kk_eq, nnn, low] <;> omega

/-- The key of a second look. -/
theorem second_key {w bits : Nat} (fits : w < 0x10000) (mem : (family w, .masked bits) ∈ table) :
    family w = 0x0 ∧ w &&& bits = w ∨
      (family w = 0x5 ∨ family w = 0x8 ∨ family w = 0x9) ∧ w &&& bits = family w * 0x1000 + w % 16 ∨
      (family w = 0xE ∨ family w = 0xF) ∧ w &&& bits = family w * 0x1000 + w % 256 := by
  rcases mask_of_family mem with ⟨shared, rfl⟩ | ⟨shared, rfl⟩ | ⟨shared, rfl⟩
  · refine .inl ⟨shared, (and_mask fits (by decide)).trans ?_⟩
    exact Nat.div_add_mod' w 0x1000
  · exact .inr (.inl ⟨shared, and_mask fits (by decide)⟩)
  · exact .inr (.inr ⟨shared, and_mask fits (by decide)⟩)

/-- A second look never finds another mask. -/
theorem masked_ends {w bits again : Nat} (fits : w < 0x10000) (big : 0x10 ≤ w)
    (mem : (family w, .masked bits) ∈ table) : (w &&& bits, .masked again) ∉ table := by
  intro found
  have family_eq : w &&& bits < 0x10 := by
    have := mask_of_family found
    omega
  have key := second_key fits mem
  omega

/-! ## The two directions -/

theorem decode?_of_family {w f : Nat} {make : Nat → Instruction} (family_eq : family w = f)
    (found : table.lookup f = some (.made make)) : decode? w = some (make w) := by
  simp [decode?, family_eq, found]

/-- Words of a shared family whose mask keeps `k` low bits. -/
theorem decode?_of_masked {w f bits k : Nat} {make : Nat → Instruction} (fits : w < 0x10000)
    (family_eq : family w = f) (big : 0x10 ≤ w) (found : table.lookup f = some (.masked bits))
    (mask : bits = 0xF000 ||| (1 <<< k - 1)) (narrow : k ≤ 12)
    (again : table.lookup (f * 0x1000 + w % (1 <<< k)) = some (.made make)) : decode? w = some (make w) := by
  have key : w &&& bits = f * 0x1000 + w % (1 <<< k) := by rw [mask, and_mask fits narrow, family_eq]
  have notFamily : ¬w < 0x10 := by omega
  simp [decode?, family_eq, found, notFamily, lookAgain, key, again]

theorem decode?_of_nibble {w f n : Nat} {make : Nat → Instruction} (fits : w < 0x10000) (family_eq : family w = f)
    (low : w % 16 = n) (pos : 0 < f) (found : table.lookup f = some (.masked 0xF00F))
    (again : table.lookup (f * 0x1000 + n) = some (.made make)) : decode? w = some (make w) := by
  have big : 0x10 ≤ w := by simp only [family] at family_eq; omega
  exact decode?_of_masked (k := 4) fits family_eq big found rfl (by decide) (low ▸ again)

theorem decode?_of_byte {w f b : Nat} {make : Nat → Instruction} (fits : w < 0x10000) (family_eq : family w = f)
    (low : w % 256 = b) (pos : 0 < f) (found : table.lookup f = some (.masked 0xF0FF))
    (again : table.lookup (f * 0x1000 + b) = some (.made make)) : decode? w = some (make w) := by
  have big : 0x10 ≤ w := by simp only [family] at family_eq; omega
  exact decode?_of_masked (k := 8) fits family_eq big found rfl (by decide) (low ▸ again)

theorem encode_lt (i : Instruction) : encode i < 0x10000 := by
  cases i with
  | skipEqByte r k | skipNeByte r k | setByte r k | addByte r k | random r k =>
    have := k.toNat_lt
    simp only [encode, wordXKK]
    omega
  | _ =>
    simp only [encode, wordNNN, wordXKK, wordXYN]
    omega

theorem decode?_encode (i : Instruction) : decode? (encode i) = some i := by
  have fits := encode_lt i
  cases i with
  | clearScreen | ret => rfl
  | jump a | call a | setIndex a | jumpOffset a =>
    exact (decode?_of_family (family_wordNNN _ a) rfl).trans (by simp)
  | skipEqByte r k | skipNeByte r k | setByte r k | addByte r k | random r k =>
    exact (decode?_of_family (family_wordXKK _ r k.toNat_lt) rfl).trans (by simp [toNat_lt_256])
  | skipEq r s | copy r s | or r s | and r s | xor r s | add r s | sub r s | shiftRight r s | subFrom r s
  | shiftLeft r s | skipNe r s =>
    refine (decode?_of_nibble fits (family_wordXYN _ r s ?_) (low_wordXYN _ r s ?_) ?_ rfl rfl).trans ?_
    all_goals simp [encode]
  | draw r s k => exact (decode?_of_family (family_wordXYN _ r s k.isLt) rfl).trans (by simp)
  | skipHeld r | skipFree r | readDelay r | awaitKey r | setDelay r | setSound r | addIndex r | setGlyph r
  | storeDecimal r | store r | load r =>
    refine (decode?_of_byte fits (family_wordXKK _ r ?_) (low_wordXKK _ r ?_) ?_ rfl rfl).trans ?_
    all_goals simp [encode]

theorem encode_of_decode? {w : Nat} {i : Instruction} (fits : w < 0x10000) (h : decode? w = some i) :
    encode i = w := by
  have small : family w < 0x10 := by simp only [family]; omega
  unfold decode? at h
  split at h
  · rename_i make found
    cases h
    rw [encode_made (mem_table_of_lookup found), if_pos small]
    exact Nat.div_add_mod' w 0x1000
  · rename_i bits found
    split at h
    · cases h
    · unfold lookAgain at h
      split at h
      · rename_i make again
        cases h
        rw [encode_made (mem_table_of_lookup again)]
        rcases second_key fits (mem_table_of_lookup found) with ⟨shared, key⟩ | ⟨shared, key⟩ | ⟨shared, key⟩
        · have tiny : w < 0x1000 := by simp only [family] at shared; omega
          rw [key, if_neg (by omega), if_pos tiny]
        · rw [key, if_neg (by omega), if_neg (by omega), if_pos (by omega)]
          simp only [family, x, y]
          omega
        · rw [key, if_neg (by omega), if_neg (by omega), if_neg (by omega)]
          simp only [family, x]
          omega
      · cases h
  · cases h

/-- A word is an instruction exactly when it is the word of one. -/
theorem decode?_eq_some_iff {w : Nat} (fits : w < 0x10000) {i : Instruction} : decode? w = some i ↔ encode i = w :=
  ⟨encode_of_decode? fits, fun h => h ▸ decode?_encode i⟩

end

end Chip8.Instruction
