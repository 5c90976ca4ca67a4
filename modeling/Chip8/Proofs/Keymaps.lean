/-
  Chip8.Proofs.Keymaps — which texts are keymaps, and which key a code selects.

  A text defines a code for each key if it is sixteen numerals between commas, no two of one code and none
  reserved (`Keymap.Defines`). Just these texts are read, and what is read maps the code of each key to the
  key and nothing else. Any other text is refused for a fault that it has (`Keymap.Blames`). Both come from one
  look at each field: what is taken extends the keymap by the field's code (`extend_ok`), and what is refused
  is refused for this field and the ones before it (`extend_error`). The codes of a keypad's own controls are
  reserved, so no keymap that is read sees them (`serves_of_parse`).
-/
import Chip8.Keypad.Keymap
import Chip8.Proofs.Texts
import Mathlib.Data.List.FinRange
import Mathlib.Data.List.Nodup
import Mathlib.Logic.ExistsUnique

namespace Chip8

namespace Text

/-- Codes that are no Latin characters have no case. -/
theorem Latin.lower_of_outside {code : Int} (outside : code < 0 ∨ 0x100 ≤ code) : lower code = code := by
  have small : isCapital code = false := by
    simp only [isCapital, Bool.or_eq_false_iff, Bool.and_eq_false_iff, decide_eq_false_iff_not]
    omega
  rw [lower, small]
  rfl

end Text

namespace Keypad

namespace Keymap

/-! ## What a text says -/

/-- Does a text define these codes for the keys: sixteen numerals between commas, no two of one code, and
    none of a reserved one? Where letters count alike, a number below 256 is the code of a small letter. -/
structure Defines (lower : Bool) (reserved : List Int) (text : List Char) (codes : Fin 16 → Int) : Prop where
  numerals : ∃ field : Fin 16 → List Char,
    text = [','].intercalate (List.ofFn field) ∧
      ∀ k, ',' ∉ field k ∧ ∃ n, Text.Numeral.int? .ten (field k) = some n ∧
        codes k = if lower = true ∧ 0 ≤ n ∧ n < 0x100 then Text.Latin.lower n else n
  distinct : Function.Injective codes
  unreserved : ∀ k, codes k ∉ reserved

def code? (lower : Bool) (field : List Char) : Option Int := (Text.Numeral.int? .ten field).map (folded lower)

/-- Is this a fault of fields, where there are codes before them? -/
def Blames (lower : Bool) (reserved : List Int) (before : List Int) (fields : List (List Char)) : KeymapError → Prop
  | .wrongCount => before.length + fields.length ≠ 16
  | .notNumeral => ∃ field ∈ fields, Text.Numeral.int? .ten field = none
  | .reserved code => code ∈ reserved ∧ ∃ field ∈ fields, code? lower field = some code
  | .duplicate => ¬(before ++ fields.filterMap (code? lower)).Nodup

section

variable {lower : Bool} {reserved : List Int} {text : List Char} {codes : Fin 16 → Int} {m m' : Keymap}

theorem folded_eq (n : Int) :
    folded lower n = if lower = true ∧ 0 ≤ n ∧ n < 0x100 then Text.Latin.lower n else n := by
  unfold folded
  cases lower with
  | false => simp
  | true =>
    by_cases latin : 0 ≤ n ∧ n < 0x100
    · simp [latin]
    · have outside : n < 0 ∨ 0x100 ≤ n := by omega
      simp [latin, Text.Latin.lower_of_outside outside]

/-- A text that defines codes has them in its fields. -/
theorem defines_iff :
    Defines lower reserved text codes ↔
      (∃ field : Fin 16 → List Char, Text.fields ',' text = List.ofFn field ∧
        ∀ k, code? lower (field k) = some (codes k)) ∧
      Function.Injective codes ∧ ∀ k, codes k ∉ reserved := by
  have some (field : Fin 16 → List Char) : List.ofFn field ≠ [] := by simp
  constructor
  · rintro ⟨⟨field, joined, read⟩, distinct, unreserved⟩
    refine ⟨⟨field, ?_, ?_⟩, distinct, unreserved⟩
    · rw [Text.fields_eq_iff (some field)]
      refine ⟨joined, ?_⟩
      intro part mem
      obtain ⟨k, rfl⟩ := List.mem_ofFn.mp mem
      exact (read k).1
    · intro k
      obtain ⟨-, n, numeral, code⟩ := read k
      rw [code?, numeral, code, Option.map_some, folded_eq]
  · rintro ⟨⟨field, split, read⟩, distinct, unreserved⟩
    obtain ⟨joined, clean⟩ := (Text.fields_eq_iff (some field)).mp split
    refine ⟨⟨field, joined, ?_⟩, distinct, unreserved⟩
    intro k
    refine ⟨clean _ (List.mem_ofFn.mpr ⟨k, rfl⟩), ?_⟩
    obtain ⟨n, numeral, code⟩ := Option.map_eq_some_iff.mp (read k)
    exact ⟨n, numeral, by rw [← code, folded_eq]⟩

/-! ## Keys of codes -/

theorem key?_isSome_iff {code : Int} : (m.key? code).isSome ↔ code ∈ m.map Prod.fst := by
  simp [key?, List.find?_isSome]

/-- What a code selects is its key. -/
theorem mem_of_key? {code : Int} {k : Fin 16} (found : m.key? code = some k) : (code, k) ∈ m := by
  obtain ⟨⟨c, j⟩, first, rfl⟩ := Option.map_eq_some_iff.mp found
  obtain rfl : c = code := by simpa using List.find?_some first
  exact List.mem_of_find?_eq_some first

def ofCodes (codes : Fin 16 → Int) : Keymap := List.ofFn fun k => (codes k, k)

theorem mem_ofCodes {code : Int} {k : Fin 16} : (code, k) ∈ ofCodes codes ↔ code = codes k := by
  simp only [ofCodes, List.mem_ofFn, Prod.mk.injEq]
  constructor
  · rintro ⟨j, rfl, rfl⟩
    rfl
  · rintro rfl
    exact ⟨k, rfl, rfl⟩

theorem key?_ofCodes (distinct : Function.Injective codes) {code : Int} {k : Fin 16} :
    (ofCodes codes).key? code = some k ↔ code = codes k := by
  constructor
  · intro found
    exact mem_ofCodes.mp (mem_of_key? found)
  · rintro rfl
    have mem : codes k ∈ (ofCodes codes).map Prod.fst := List.mem_map.mpr ⟨_, mem_ofCodes.mpr rfl, rfl⟩
    obtain ⟨j, found⟩ := Option.isSome_iff_exists.mp (key?_isSome_iff.mpr mem)
    rw [found, distinct (mem_ofCodes.mp (mem_of_key? found))]

/-! ## Field by field -/

variable {field : Fin 16 → List Char} {keys : List (Fin 16)}

/-- What is taken has a code for each key, all of them new. -/
theorem extend_ok (read : ∀ k n, code? lower (field k) = some n → codes k = n) (distinct : (m.map Prod.fst).Nodup)
    (taken : extend lower reserved m (keys.map fun k => (field k, k)) = .ok m') :
    m' = m ++ keys.map (fun k => (codes k, k)) ∧ (m.map Prod.fst ++ keys.map codes).Nodup ∧
      ∀ k ∈ keys, code? lower (field k) = some (codes k) ∧ codes k ∉ reserved := by
  induction keys generalizing m with
  | nil =>
    cases taken
    simpa using distinct
  | cons k rest ih =>
    rw [List.map_cons, extend] at taken
    split at taken
    · cases taken
    · next n numeral =>
      have coded : code? lower (field k) = some (folded lower n) := by rw [code?, numeral, Option.map_some]
      rw [← read k _ coded] at taken coded
      simp only at taken
      split at taken
      · cases taken
      · next unreserved =>
        split at taken
        · cases taken
        · next new =>
          rw [key?_isSome_iff] at new
          have also : ((m ++ [(codes k, k)]).map Prod.fst).Nodup := by
            rw [List.map_append, List.map_singleton, List.nodup_append]
            refine ⟨distinct, List.nodup_singleton _, ?_⟩
            rintro code mem _ last rfl
            have here : code = codes k := List.mem_singleton.mp last
            exact new (here ▸ mem)
          obtain ⟨rfl, different, others⟩ := ih also taken
          refine ⟨by simp, by simpa using different, ?_⟩
          rw [List.forall_mem_cons]
          exact ⟨⟨coded, by simpa using unreserved⟩, others⟩

/-- What is refused is refused for one of its fields, or for one code in two of them. -/
theorem extend_error {fields : List (List Char × Fin 16)} {e : KeymapError}
    (refused : extend lower reserved m fields = .error e) :
    Blames lower reserved (m.map Prod.fst) (fields.map Prod.fst) e := by
  induction fields generalizing m with
  | nil => cases refused
  | cons p rest ih =>
    obtain ⟨field, k⟩ := p
    rw [extend] at refused
    rw [List.map_cons]
    split at refused
    · next none =>
      cases refused
      exact ⟨field, List.mem_cons_self, none⟩
    · next n numeral =>
      have coded : code? lower field = some (folded lower n) := by rw [code?, numeral, Option.map_some]
      simp only at refused
      split at refused
      · next kept =>
        cases refused
        exact ⟨by simpa using kept, field, List.mem_cons_self, coded⟩
      · split at refused
        · next twice =>
          cases refused
          rw [key?_isSome_iff] at twice
          rw [Blames, List.filterMap_cons_some coded, List.nodup_append]
          rintro ⟨-, -, apart⟩
          exact apart _ twice _ List.mem_cons_self rfl
        · have later := ih refused
          rw [List.map_append, List.map_singleton] at later
          cases e with
          | wrongCount => simpa [Blames, Nat.add_assoc, Nat.add_comm 1] using later
          | notNumeral =>
            obtain ⟨other, mem, none⟩ := later
            exact ⟨other, List.mem_cons_of_mem field mem, none⟩
          | reserved code =>
            obtain ⟨kept, other, mem, same⟩ := later
            exact ⟨kept, other, List.mem_cons_of_mem field mem, same⟩
          | duplicate =>
            rw [Blames, List.append_assoc] at later
            rw [Blames, List.filterMap_cons_some coded]
            exact later

/-! ## Whole texts -/

theorem Defines.unique {others : Fin 16 → Int} (first : Defines lower reserved text codes)
    (second : Defines lower reserved text others) : codes = others := by
  obtain ⟨⟨field, split, read⟩, -⟩ := defines_iff.mp first
  obtain ⟨⟨part, also, reread⟩, -⟩ := defines_iff.mp second
  obtain rfl : field = part := List.ofFn_injective (split.symm.trans also)
  funext k
  exact Option.some.inj ((read k).symm.trans (reread k))

/-- A text with a fault defines no codes. -/
theorem not_defines_of_blames {e : KeymapError} (fault : Blames lower reserved [] (Text.fields ',' text) e) :
    ¬Defines lower reserved text codes := by
  intro defines
  obtain ⟨⟨field, split, read⟩, distinct, unreserved⟩ := defines_iff.mp defines
  rw [split] at fault
  cases e with
  | wrongCount => exact fault (by simp)
  | notNumeral =>
    obtain ⟨part, mem, none⟩ := fault
    obtain ⟨k, rfl⟩ := List.mem_ofFn.mp mem
    have coded := read k
    rw [code?, none] at coded
    cases coded
  | reserved code =>
    obtain ⟨kept, part, mem, coded⟩ := fault
    obtain ⟨k, rfl⟩ := List.mem_ofFn.mp mem
    obtain rfl : codes k = code := Option.some.inj ((read k).symm.trans coded)
    exact unreserved k kept
  | duplicate =>
    refine fault ?_
    have coded : (List.ofFn field).filterMap (code? lower) = List.ofFn codes := by
      rw [List.ofFn_eq_map, List.ofFn_eq_map, List.filterMap_map, ← List.filterMap_eq_map]
      exact List.filterMap_congr fun k _ => read k
    rw [List.nil_append, coded]
    exact List.nodup_ofFn.mpr distinct

theorem exists_ofFn {α : Type} {parts : List α} {n : Nat} (count : parts.length = n) :
    ∃ f : Fin n → α, parts = List.ofFn f := by
  subst count
  exact ⟨parts.get, (List.ofFn_get parts).symm⟩

theorem zip_ofFn {α : Type} {n : Nat} (f : Fin n → α) :
    (List.ofFn f).zip (List.finRange n) = (List.finRange n).map fun k => (f k, k) := by
  have zipped : ((List.finRange n).map f).zip ((List.finRange n).map id) = _ := List.zip_map'
  rw [List.map_id] at zipped
  rw [List.ofFn_eq_map, zipped]
  rfl

/-- A text defines codes and is read as them, or it has the fault that it is refused for. -/
theorem parse_cases (lower : Bool) (reserved : List Int) (text : List Char) :
    (∃ codes, Defines lower reserved text codes ∧ parse lower reserved text = .ok (ofCodes codes)) ∨
      ∃ e, parse lower reserved text = .error e ∧ Blames lower reserved [] (Text.fields ',' text) e := by
  by_cases count : (Text.fields ',' text).length = 16
  · obtain ⟨field, split⟩ := exists_ofFn count
    have parsed : parse lower reserved text =
        extend lower reserved [] ((List.finRange 16).map fun k => (field k, k)) := by
      rw [parse, if_neg (not_not_intro count), split, zip_ofFn]
    rcases taken : parse lower reserved text with e | m
    · refine .inr ⟨e, rfl, ?_⟩
      have fault := extend_error (parsed.symm.trans taken)
      rw [List.map_map] at fault
      rwa [split, List.ofFn_eq_map]
    · left
      rw [parsed] at taken
      have read (k : Fin 16) (n : Int) (coded : code? lower (field k) = some n) :
          (code? lower (field k)).getD 0 = n := by rw [coded, Option.getD_some]
      have empty : (([] : Keymap).map Prod.fst).Nodup := List.nodup_nil
      obtain ⟨rfl, different, all⟩ := extend_ok read empty taken
      refine ⟨_, defines_iff.mpr ⟨⟨field, split, fun k => (all k (List.mem_finRange k)).1⟩, ?_,
        fun k => (all k (List.mem_finRange k)).2⟩, ?_⟩
      · rw [← List.nodup_ofFn, List.ofFn_eq_map]
        exact different
      · rw [List.nil_append, ofCodes, List.ofFn_eq_map]
  · refine .inr ⟨.wrongCount, ?_, ?_⟩
    · rw [parse, if_pos count]
    · simpa [Blames] using count

/-- A text that defines codes is read as them. -/
theorem Defines.parse_eq (defines : Defines lower reserved text codes) :
    parse lower reserved text = .ok (ofCodes codes) := by
  rcases parse_cases lower reserved text with ⟨others, also, parsed⟩ | ⟨e, -, fault⟩
  · rw [parsed, defines.unique also]
  · exact absurd defines (not_defines_of_blames fault)

/-- What is read is what the text defines. -/
theorem defines_of_parse (parsed : parse lower reserved text = .ok m) :
    ∃ codes, Defines lower reserved text codes ∧ m = ofCodes codes := by
  rcases parse_cases lower reserved text with ⟨codes, defines, also⟩ | ⟨e, refused, -⟩
  · exact ⟨codes, defines, Except.ok.inj (parsed.symm.trans also)⟩
  · rw [refused] at parsed
    cases parsed

/-- Are these the codes of a keymap's keys, and the reserved ones none of them? -/
structure Serves (m : Keymap) (reserved : List Int) (codes : Fin 16 → Int) : Prop where
  selects : ∀ code k, m.key? code = some k ↔ code = codes k
  free : ∀ code ∈ reserved, m.key? code = none

theorem Serves.ne_of_none (serves : m.Serves reserved codes) {code : Int} (unmapped : m.key? code = none)
    (k : Fin 16) : code ≠ codes k := by
  rw [ne_eq, ← serves.selects, unmapped]
  exact nofun

theorem Serves.eq_iff (serves : m.Serves reserved codes) {code : Int} {j : Fin 16} (selected : m.key? code = some j)
    (k : Fin 16) : code = codes k ↔ j = k := by
  rw [← serves.selects, selected, Option.some_inj]

theorem Serves.unreserved (serves : m.Serves reserved codes) (k : Fin 16) : codes k ∉ reserved := by
  intro kept
  exact serves.ne_of_none (serves.free _ kept) k rfl

/-- What is read has a code for each key, and no key has a reserved one. -/
theorem serves_of_parse (parsed : parse lower reserved text = .ok m) :
    ∃ codes, Defines lower reserved text codes ∧ m.Serves reserved codes := by
  obtain ⟨codes, defines, rfl⟩ := defines_of_parse parsed
  refine ⟨codes, defines, fun code k => key?_ofCodes defines.distinct, ?_⟩
  intro code kept
  refine Option.eq_none_iff_forall_ne_some.mpr ?_
  intro k selected
  obtain rfl := (key?_ofCodes defines.distinct).mp selected
  exact defines.unreserved k kept

end

/-- Whatever the text, whether letters count alike, and whatever codes are reserved, a keymap is read just if
    the text defines codes. It then maps the code of each key to the key and nothing else, so that each key has
    one code. Otherwise the text is refused for a fault that it has. -/
theorem keymap_maps_codes (lower : Bool) (reserved : List Int) (text : List Char) :
    ((∃ m, parse lower reserved text = .ok m) ↔ ∃ codes, Defines lower reserved text codes) ∧
    (∀ codes, Defines lower reserved text codes → ∃ m : Keymap, parse lower reserved text = .ok m ∧
      m = List.ofFn (fun k => (codes k, k)) ∧ (∀ code k, m.key? code = some k ↔ code = codes k) ∧
      ∀ k, ∃! code, m.key? code = some k) ∧
    ((∀ codes, ¬Defines lower reserved text codes) →
      ∃ e, parse lower reserved text = .error e ∧ Blames lower reserved [] (Text.fields ',' text) e) := by
  refine ⟨⟨?_, ?_⟩, ?_, ?_⟩
  · rintro ⟨m, parsed⟩
    obtain ⟨codes, defines, -⟩ := defines_of_parse parsed
    exact ⟨codes, defines⟩
  · rintro ⟨codes, defines⟩
    exact ⟨_, defines.parse_eq⟩
  · intro codes defines
    have selects (code : Int) (k : Fin 16) : (ofCodes codes).key? code = some k ↔ code = codes k :=
      key?_ofCodes defines.distinct
    refine ⟨_, defines.parse_eq, rfl, selects, ?_⟩
    intro k
    exact ⟨codes k, (selects _ k).mpr rfl, fun code found => (selects code k).mp found⟩
  · intro undefined
    rcases parse_cases lower reserved text with ⟨codes, defines, -⟩ | refused
    · exact absurd defines (undefined codes)
    · exact refused

/-- Blanks, signs and zeros do not matter, and neither does a capital: with `X` for the small letter in one place
    the text is read, with both of them it is not. -/
theorem keymap_maps_codes_of_letters :
    let odd := " 88,4_9,+50,51,113,119,101,97,115,100,122,99,52,114,102,0118".toList
    let twice := "88,49,50,51,113,119,101,97,115,100,122,99,52,114,102,120".toList
    (∃ codes, Defines true Controls.characters.codes odd codes ∧ codes 0 = 120 ∧ codes 15 = 118) ∧
      ∀ codes, ¬Defines true Controls.characters.codes twice codes := by
  intro odd twice
  obtain ⟨accepted, maps, -⟩ := keymap_maps_codes true Controls.characters.codes odd
  obtain ⟨refused, -, -⟩ := keymap_maps_codes true Controls.characters.codes twice
  obtain ⟨m, parsed, first, last⟩ : ∃ m : Keymap, parse true Controls.characters.codes odd = .ok m ∧
      m.key? 120 = some 0 ∧ m.key? 118 = some 15 := ⟨_, rfl, by decide, by decide⟩
  refine ⟨?_, ?_⟩
  · obtain ⟨codes, defines⟩ := accepted.mp ⟨m, parsed⟩
    obtain ⟨n, also, -, selects, -⟩ := maps codes defines
    obtain rfl : m = n := Except.ok.inj (parsed.symm.trans also)
    exact ⟨codes, defines, ((selects 120 0).mp first).symm, ((selects 118 15).mp last).symm⟩
  · intro codes defines
    obtain ⟨m, parsed⟩ := refused.mpr ⟨codes, defines⟩
    have duplicate : parse true Controls.characters.codes twice = .error .duplicate := rfl
    rw [duplicate] at parsed
    cases parsed

end Keymap

/-- A code that is kept for no control asks for nothing. -/
theorem Controls.event?_eq_none_iff {c : Controls} {code : Int} : c.event? code = none ↔ code ∉ c.codes := by
  rw [event?, Option.map_eq_none_iff, List.find?_eq_none, codes, List.mem_map]
  constructor
  · rintro free ⟨control, mem, same⟩
    exact free control mem (by simpa using same)
  · intro free control mem same
    exact free ⟨control, mem, eq_of_beq same⟩

theorem Controls.mem_codes_of_event? {c : Controls} {code : Int} {e : HostEvent} (asked : c.event? code = some e) :
    code ∈ c.codes := by
  by_contra other
  rw [event?_eq_none_iff.mpr other] at asked
  cases asked

end Keypad

end Chip8
