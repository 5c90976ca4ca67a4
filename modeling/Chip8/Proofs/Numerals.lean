/-
  Chip8.Proofs.Numerals — how far numerals reach, and what digits spell.

  A numeral has no more digits than characters, so a short one is a small number (`natAbs_lt_of_int?`).
  Hexadecimal digits alone, without a sign, a mark or white space, are the numeral of the number that they spell
  (`int?_of_hex`). A number that is written in decimal is read back, as long as it is not too long to be read
  (`int?_toString`).
-/
import Chip8.Proofs.Texts
import Chip8.Text.Numeral
import Mathlib.Algebra.Group.Nat.Defs

namespace Chip8.Text

namespace Numeral

variable {b : Base}

/-! ## Lengths -/

theorem letterValue?_lt {c : Char} {d : Nat} (read : letterValue? c = some d) : d < 16 := by
  unfold letterValue? at read
  simp only [Bool.and_eq_true, decide_eq_true_eq, Char.le_def, UInt32.le_iff_toNat_le] at read
  split at read
  · next small =>
    change 97 ≤ c.val.toNat ∧ c.val.toNat ≤ 102 at small
    change some (c.val.toNat - 97 + 10) = some d at read
    cases read
    omega
  · split at read
    · next capital =>
      change 65 ≤ c.val.toNat ∧ c.val.toNat ≤ 70 at capital
      change some (c.val.toNat - 65 + 10) = some d at read
      cases read
      omega
    · cases read

theorem digit?_lt {c : Char} {d : Nat} (read : digit? b c = some d) : d < b.size := by
  rcases value : DecimalDigit.value? c with _ | v
  · cases b with
    | ten => simp [digit?, value] at read
    | sixteen =>
      simp only [digit?, value] at read
      exact letterValue?_lt read
  · simp only [digit?, value, Option.some.injEq] at read
    subst read
    have small := DecimalDigit.value?_lt value
    cases b <;> simp only [Base.size] <;> omega

/-- A digit and the digits behind it. -/
theorem cons_bound {c : Char} {rest : List Char} {ds : List Nat}
    (read : (do
      let d ← digit? b c
      let more ← following? b rest
      return d :: more) = some ds)
    (others : ∀ {more}, following? b rest = some more → more.length ≤ rest.length ∧ ∀ d ∈ more, d < b.size) :
    ds.length ≤ rest.length + 1 ∧ ∀ d ∈ ds, d < b.size := by
  simp only [bind, pure, Option.bind_eq_some_iff, Option.some.injEq] at read
  obtain ⟨d, digit, more, read, rfl⟩ := read
  obtain ⟨length, small⟩ := others read
  exact ⟨Nat.succ_le_succ length, List.forall_mem_cons.mpr ⟨digit?_lt digit, small⟩⟩

theorem following?_bound {cs : List Char} {ds : List Nat} (read : following? b cs = some ds) :
    ds.length ≤ cs.length ∧ ∀ d ∈ ds, d < b.size := by
  fun_induction following? b cs generalizing ds with
  | case1 =>
    cases read
    exact ⟨Nat.le_refl 0, fun d none => absurd none List.not_mem_nil⟩
  | case2 c rest ih =>
    obtain ⟨length, small⟩ := cons_bound read ih
    exact ⟨Nat.le_succ_of_le length, small⟩
  | case3 c rest _ ih => exact cons_bound read ih

theorem ofDigits_lt {ds : List Nat} (small : ∀ d ∈ ds, d < b.size) : ofDigits b ds < b.size ^ ds.length := by
  have more (n : Nat) : ds.foldl (fun n d => n * b.size + d) n < (n + 1) * b.size ^ ds.length := by
    induction ds generalizing n with
    | nil => simp
    | cons d rest ih =>
      obtain ⟨first, others⟩ := List.forall_mem_cons.mp small
      calc rest.foldl (fun n d => n * b.size + d) (n * b.size + d)
          < (n * b.size + d + 1) * b.size ^ rest.length := ih others _
        _ ≤ (n * b.size + b.size) * b.size ^ rest.length := Nat.mul_le_mul_right _ (by omega)
        _ = (n + 1) * b.size ^ (rest.length + 1) := by rw [Nat.pow_succ', ← Nat.mul_assoc, Nat.succ_mul]
  simpa [ofDigits] using more 0

theorem grows {k l : Nat} (shorter : k ≤ l) : b.size ^ k ≤ b.size ^ l :=
  Nat.pow_le_pow_right (by cases b <;> decide) shorter

theorem length_unmarked (cs : List Char) : (unmarked b cs).length ≤ cs.length := by
  unfold unmarked
  split
  · split
    · split <;> simp <;> omega
    · exact Nat.le_refl _
  · exact Nat.le_refl _

theorem magnitude?_lt {cs : List Char} {n : Nat} (read : magnitude? b cs = some n) : n < b.size ^ cs.length := by
  unfold magnitude? at read
  obtain ⟨ds, digits, spelled⟩ := Option.bind_eq_some_iff.mp read
  obtain rfl : ofDigits b ds = n := by
    split at spelled
    · exact Option.some.inj spelled
    · cases spelled
  have bound : ds.length ≤ (unmarked b cs).length ∧ ∀ d ∈ ds, d < b.size := by
    cases body : unmarked b cs with
    | nil =>
      rw [body] at digits
      cases digits
    | cons c rest =>
      rw [body] at digits
      exact cons_bound digits following?_bound
  exact Nat.lt_of_lt_of_le (ofDigits_lt bound.2) (grows (Nat.le_trans bound.1 (length_unmarked cs)))

theorem length_trim (cs : List Char) : (trim cs).length ≤ cs.length := by
  rw [trim, List.length_reverse]
  refine Nat.le_trans (List.dropWhile_sublist _).length_le ?_
  rw [List.length_reverse]
  exact (List.dropWhile_sublist _).length_le

/-- A numeral of so many characters has no more digits. -/
theorem natAbs_lt_of_int? {text : List Char} {n : Int} (read : int? b text = some n) :
    n.natAbs < b.size ^ text.length := by
  have within {cs : List Char} {m : Nat} (short : cs.length ≤ (trim text).length) (spelled : magnitude? b cs = some m) :
      m < b.size ^ text.length :=
    Nat.lt_of_lt_of_le (magnitude?_lt spelled) (grows (Nat.le_trans short (length_trim text)))
  unfold int? at read
  split at read
  · next rest trimmed =>
    obtain ⟨m, spelled, rfl⟩ := Option.map_eq_some_iff.mp read
    exact within (by simp [trimmed]) spelled
  · next rest trimmed =>
    obtain ⟨m, spelled, rfl⟩ := Option.map_eq_some_iff.mp read
    rw [Int.natAbs_neg]
    exact within (by simp [trimmed]) spelled
  · obtain ⟨m, spelled, rfl⟩ := Option.map_eq_some_iff.mp read
    exact within (Nat.le_refl _) spelled

/-! ## Digits alone -/

theorem trim_of_solid {cs : List Char} (solid : ∀ c ∈ cs, ¬isBlank c = true) : trim cs = cs := by
  have kept {l : List Char} (solid : ∀ c ∈ l, ¬isBlank c = true) : l.dropWhile isBlank = l := by
    cases l with
    | nil => rfl
    | cons c rest => exact List.dropWhile_cons_of_neg (solid c List.mem_cons_self)
  rw [trim, kept solid, kept (fun c mem => solid c (List.mem_reverse.mp mem)), List.reverse_reverse]

/-- Characters that are digits follow one another as such. -/
theorem following?_of_digits {cs : List Char} {value : Char → Nat}
    (digits : ∀ c ∈ cs, c ≠ '_' ∧ digit? b c = some (value c)) : following? b cs = some (cs.map value) := by
  induction cs with
  | nil => rfl
  | cons c rest ih =>
    obtain ⟨⟨plain, digit⟩, others⟩ := List.forall_mem_cons.mp digits
    rw [following?.eq_3 _ _ _ (fun _ _ same _ => plain same), digit, ih others]
    rfl

theorem digits?_of_digits {cs : List Char} {value : Char → Nat} (some : cs ≠ [])
    (digits : ∀ c ∈ cs, c ≠ '_' ∧ digit? b c = Option.some (value c)) : digits? b cs = Option.some (cs.map value) := by
  cases cs with
  | nil => exact absurd rfl some
  | cons c rest =>
    obtain ⟨⟨_, digit⟩, others⟩ := List.forall_mem_cons.mp digits
    rw [digits?, digit, following?_of_digits others]
    rfl

/-! ## Hexadecimal digits -/

def hexDigits : List Char :=
  ['0', '1', '2', '3', '4', '5', '6', '7', '8', '9', 'a', 'b', 'c', 'd', 'e', 'f', 'A', 'B', 'C', 'D', 'E', 'F']

theorem digit?_of_hex {c : Char} (hex : c ∈ hexDigits) : digit? .sixteen c = some (Hex.value c) := by
  have all : hexDigits.all (fun c => digit? .sixteen c == some (Hex.value c)) = true := by decide
  exact beq_iff_eq.mp (List.all_eq_true.mp all c hex)

theorem not_isBlank_of_hex {c : Char} (hex : c ∈ hexDigits) : ¬isBlank c = true := by
  have all : hexDigits.all (fun c => !isBlank c) = true := by decide
  simpa using List.all_eq_true.mp all c hex

section

variable {cs : List Char} (hex : cs ⊆ hexDigits)
include hex

theorem unmarked_of_hex : unmarked .sixteen cs = cs := by
  unfold unmarked
  split
  · next z x rest =>
    have digit : x ∈ hexDigits := hex (List.mem_cons_of_mem z List.mem_cons_self)
    refine if_neg ?_
    rintro ⟨-, -, rfl | rfl⟩ <;> exact absurd digit (by decide)
  · rfl

/-- Hexadecimal digits are the numeral of the number that they spell. -/
theorem int?_of_hex (some : cs ≠ []) : int? .sixteen cs = Option.some ↑(Hex.number cs) := by
  have spelled : magnitude? .sixteen cs = Option.some (Hex.number cs) := by
    have digits : ∀ c ∈ cs, c ≠ '_' ∧ digit? .sixteen c = Option.some (Hex.value c) := by
      intro c mem
      have digit := hex mem
      refine ⟨?_, digit?_of_hex digit⟩
      rintro rfl
      exact absurd digit (by decide)
    rw [magnitude?, unmarked_of_hex hex, digits?_of_digits some digits]
    simp only [bind, Option.bind_some, Base.maxDigits?, Option.all_none, if_true, ofDigits, List.foldl_map, Base.size,
      Hex.number]
  unfold int?
  rw [trim_of_solid fun c mem => not_isBlank_of_hex (hex mem)]
  split
  · exact absurd (hex List.mem_cons_self) (by decide)
  · exact absurd (hex List.mem_cons_self) (by decide)
  · rw [spelled]
    rfl

end

/-! ## Decimal digits -/

theorem isDigit_bounds {c : Char} (digit : c.isDigit = true) : 48 ≤ c.toNat ∧ c.toNat ≤ 57 := by
  simp only [Char.isDigit, Bool.and_eq_true, decide_eq_true_eq, ge_iff_le, UInt32.le_iff_toNat_le] at digit
  exact digit

theorem not_isBlank_of_isDigit {c : Char} (digit : c.isDigit = true) : ¬isBlank c = true := by
  have bounds := isDigit_bounds digit
  simp only [isBlank, Bool.or_eq_true, Bool.and_eq_true, decide_eq_true_eq, beq_iff_eq]
  omega

theorem digit?_of_isDigit {c : Char} (digit : c.isDigit = true) : digit? .ten c = some (c.toNat - '0'.toNat) := by
  have within : (decide (0x30 ≤ c.toNat) && decide (c.toNat < 0x30 + 10)) = true := by
    have bounds := isDigit_bounds digit
    simp only [Bool.and_eq_true, decide_eq_true_eq]
    omega
  have first : DecimalDigit.zeros.find? (fun z => z ≤ c.toNat && c.toNat < z + 10) = some 0x30 :=
    List.find?_cons_of_pos within
  have value : DecimalDigit.value? c = some (c.toNat - '0'.toNat) := by
    rw [DecimalDigit.value?, first]
    rfl
  simp only [digit?, value]

theorem unmarked_ten (cs : List Char) : unmarked .ten cs = cs := by
  unfold unmarked
  split
  · exact if_neg fun marked => nomatch marked.1
  · rfl

theorem magnitude?_toDigits {n : Nat} (short : (Nat.toDigits 10 n).length ≤ 4300) :
    magnitude? .ten (Nat.toDigits 10 n) = some n := by
  have digits : ∀ c ∈ Nat.toDigits 10 n, c ≠ '_' ∧ digit? .ten c = some (c.toNat - '0'.toNat) := by
    intro c mem
    have digit := Nat.isDigit_of_mem_toDigits (by decide) (by decide) mem
    refine ⟨?_, digit?_of_isDigit digit⟩
    rintro rfl
    exact absurd digit (by decide)
  have spelled : ofDigits .ten ((Nat.toDigits 10 n).map fun c => c.toNat - '0'.toNat) = n := by
    simp only [ofDigits, List.foldl_map, Base.size, Nat.mul_comm _ 10]
    exact Nat.ofDigitChars_ten_toDigits
  rw [magnitude?, unmarked_ten, digits?_of_digits Nat.toDigits_ne_nil digits]
  simp only [bind, Option.bind_some, List.length_map, Base.maxDigits?, Option.all_some, decide_eq_true short, if_true,
    spelled]

/-- A number that is written in decimal is read back, if it is not too long. -/
theorem int?_toString {n : Int} (short : (Nat.toDigits 10 n.natAbs).length ≤ 4300) :
    int? .ten (toString n).toList = some n := by
  have digits : ∀ c ∈ Nat.toDigits 10 n.natAbs, c.isDigit = true := fun c mem =>
    Nat.isDigit_of_mem_toDigits (by decide) (by decide) mem
  have solid : ∀ c ∈ Nat.toDigits 10 n.natAbs, ¬isBlank c = true := fun c mem => not_isBlank_of_isDigit (digits c mem)
  have spelled := magnitude?_toDigits short
  cases n with
  | ofNat k =>
    have text : (toString (Int.ofNat k)).toList = Nat.toDigits 10 (Int.ofNat k).natAbs := Nat.toList_repr
    rw [text, int?, trim_of_solid solid]
    split
    · next rest signed => exact absurd (digits '+' (signed ▸ List.mem_cons_self)) (by decide)
    · next rest signed => exact absurd (digits '-' (signed ▸ List.mem_cons_self)) (by decide)
    · exact congrArg (Option.map Int.ofNat) spelled
  | negSucc k =>
    have text : (toString (Int.negSucc k)).toList = '-' :: Nat.toDigits 10 (Int.negSucc k).natAbs := by
      rw [Int.toString_eq_repr, ← Nat.toList_repr]
      exact String.toList_append
    have signed : ∀ c ∈ '-' :: Nat.toDigits 10 (Int.negSucc k).natAbs, ¬isBlank c = true :=
      List.forall_mem_cons.mpr ⟨by decide, solid⟩
    rw [text, int?, trim_of_solid signed]
    exact congrArg (Option.map fun n => -Int.ofNat n) spelled

end Numeral

end Chip8.Text
