/-
  Chip8.Proofs.Mnemonics — the text of an instruction tells what it does.

  A mnemonic is a name and operands. The texts of operands hold no separators and no two of them are alike
  (`Operand.text_injective`), so name and operands are read off a mnemonic (`written_inj`), and they are enough
  to write the instruction down again (`assemble?_operands`), but for the second register of a shift that works
  in place. So instructions with the same mnemonic are the same up to that register (`mnemonic_eq_iff`), which
  such a shift does not look at: carried out, they cannot be told apart (`mnemonic_tells_effect`).
-/
import Chip8.Proofs.Dialects
import Chip8.Proofs.Texts
import Mathlib.Algebra.Group.Nat.Defs

namespace Chip8

namespace Text.Hex

/-! ## Numbers of a fixed width -/

/-- A number that fits is written in just so many digits. -/
theorem exists_digits {width n : Nat} (some : 0 < width) (fits : n < 16 ^ width) :
    ∃ ds : List Char, (padded width n).toList = ds ∧ ds.length = width ∧ number ds = n := by
  have short : (digits n).length ≤ width := (Nat.length_toDigits_le_iff (by decide) some).mpr fits
  have unsigned : ¬(n : Int) < 0 := by omega
  refine ⟨List.replicate (width - (digits n).length) '0' ++ digits n, ?_, ?_, ?_⟩
  · simp only [padded, if_neg unsigned, String.toList_ofList, List.nil_append, List.length_nil, Nat.zero_add,
      Int.natAbs_natCast]
  · rw [List.length_append, List.length_replicate]
    omega
  · rw [number_zeros, number_digits]

end Text.Hex

open Text

/-! ## Operands -/

inductive Operand where
  | register (x : Register)
  | byte (kk : UInt8)
  | address (nnn : Address)
  /-- The rows of a sprite. -/
  | rows (n : Fin 16)
  | index
  /-- Memory at I. -/
  | block
  | delay
  | sound
  | glyph
  | decimal
  | key
  deriving DecidableEq, Repr

namespace Operand

def text : Operand → String
  | register x => Instruction.registerName x
  | byte kk => Instruction.byteText kk
  | address nnn => Instruction.addressText nnn
  | rows n => "0x" ++ Hex.padded 1 n.val
  | index => "I"
  | block => "[I]"
  | delay => "DT"
  | sound => "ST"
  | glyph => "F"
  | decimal => "B"
  | key => "K"

def below? (bound n : Nat) : Option (Fin bound) := if small : n < bound then some ⟨n, small⟩ else none

theorem below?_val {bound : Nat} (n : Fin bound) : below? bound n = some n := dif_pos n.isLt

/-- Reads an operand. Numbers are told apart by how many digits they have. -/
def ofText? : List Char → Option Operand
  | ['V', d] => (below? 16 (Hex.number [d])).map register
  | ['0', 'x', d] => (below? 16 (Hex.number [d])).map rows
  | ['0', 'x', d, e] => some (byte (UInt8.ofNat (Hex.number [d, e])))
  | ['0', 'x', d, e, f] => (below? 0x1000 (Hex.number [d, e, f])).map address
  | ['I'] => some index
  | ['[', 'I', ']'] => some block
  | ['D', 'T'] => some delay
  | ['S', 'T'] => some sound
  | ['F'] => some glyph
  | ['B'] => some decimal
  | ['K'] => some key
  | _ => none

theorem ofText?_text (o : Operand) : ofText? o.text.toList = some o := by
  cases o with
  | register x =>
    obtain ⟨ds, shown, length, value⟩ := Hex.exists_digits (show 0 < 1 by decide) x.isLt
    obtain ⟨d, rfl⟩ := List.length_eq_one_iff.mp length
    simp only [text, Instruction.registerName, String.toList_append, shown]
    change (below? 16 (Hex.number [d])).map register = _
    rw [value, below?_val, Option.map_some]
  | rows n =>
    obtain ⟨ds, shown, length, value⟩ := Hex.exists_digits (show 0 < 1 by decide) n.isLt
    obtain ⟨d, rfl⟩ := List.length_eq_one_iff.mp length
    simp only [text, String.toList_append, shown]
    change (below? 16 (Hex.number [d])).map rows = _
    rw [value, below?_val, Option.map_some]
  | byte kk =>
    obtain ⟨ds, shown, length, value⟩ := Hex.exists_digits (show 0 < 2 by decide) kk.toNat_lt
    obtain ⟨d, e, rfl⟩ := List.length_eq_two.mp length
    simp only [text, Instruction.byteText, String.toList_append, shown]
    change some (byte (UInt8.ofNat (Hex.number [d, e]))) = _
    simp [value]
  | address nnn =>
    obtain ⟨ds, shown, length, value⟩ := Hex.exists_digits (show 0 < 3 by decide) nnn.isLt
    obtain ⟨d, e, f, rfl⟩ := List.length_eq_three.mp length
    simp only [text, Instruction.addressText, String.toList_append, shown]
    change (below? 0x1000 (Hex.number [d, e, f])).map address = _
    rw [value, below?_val, Option.map_some]
  | _ => rfl

theorem text_injective : Function.Injective text := by
  intro o p same
  have read := ofText?_text o
  rw [same, ofText?_text p] at read
  exact (Option.some.inj read).symm

theorem space_not_mem_text (o : Operand) : ' ' ∉ o.text.toList := by
  have digits {width : Nat} {n : Int} : ' ' ∉ (Hex.padded width n).toList := by
    intro mem
    exact absurd (Hex.mem_padded mem) (by decide)
  cases o with
  | register x | byte kk | address nnn | rows n =>
    simp only [text, Instruction.registerName, Instruction.byteText, Instruction.addressText, String.toList_append,
      List.mem_append, not_or]
    exact ⟨by decide, digits⟩
  | _ => decide

end Operand

/-! ## Names and operands -/

def written (name : String) : List Operand → String
  | [] => name
  | operands => Instruction.operation name (operands.map Operand.text)

def operandWords : List String → List String
  | [] => []
  | [o] => [o]
  | o :: p :: rest => (o ++ ",") :: operandWords (p :: rest)

theorem length_operandWords (os : List String) : (operandWords os).length = os.length := by
  fun_induction operandWords os with
  | case1 | case2 => rfl
  | case3 o p rest ih => simpa using ih

theorem intercalate_operandWords (o : String) (rest : List String) :
    " ".intercalate (operandWords (o :: rest)) = ", ".intercalate (o :: rest) := by
  induction rest generalizing o with
  | nil => rfl
  | cons p rest ih =>
    rw [operandWords, String.intercalate_cons_of_ne_nil, ih, String.intercalate_cons_cons,
      show (", " : String) = "," ++ " " from rfl]
    · simp only [String.append_assoc]
    · exact List.ne_nil_of_length_pos (by rw [length_operandWords]; exact Nat.succ_pos _)

theorem operandWords_injective : Function.Injective operandWords := by
  intro os ps same
  have lengths : os.length = ps.length := by rw [← length_operandWords os, same, length_operandWords]
  induction os generalizing ps with
  | nil => exact (List.length_eq_zero_iff.mp lengths.symm).symm
  | cons o rest ih =>
    obtain ⟨p, more, rfl⟩ := List.exists_cons_of_length_eq_add_one lengths.symm
    have lengths := Nat.succ.inj lengths
    cases rest with
    | nil =>
      obtain rfl := List.length_eq_zero_iff.mp lengths.symm
      exact same
    | cons q rest =>
      obtain ⟨r, more, rfl⟩ := List.exists_cons_of_length_eq_add_one lengths.symm
      obtain ⟨first, others⟩ := List.cons.inj same
      rw [(String.append_left_inj ",").mp first, ih others lengths]

theorem written_eq (name : String) (operands : List Operand) :
    written name operands = " ".intercalate (name :: operandWords (operands.map Operand.text)) := by
  cases operands with
  | nil => rfl
  | cons o rest =>
    have words : operandWords ((o :: rest).map Operand.text) ≠ [] :=
      List.ne_nil_of_length_pos (by rw [length_operandWords]; exact Nat.succ_pos _)
    rw [String.intercalate_cons_of_ne_nil words, List.map_cons, intercalate_operandWords]
    rfl

theorem space_not_mem_operandWords {os : List String} (clean : ∀ o ∈ os, ' ' ∉ o.toList) :
    ∀ word ∈ operandWords os, ' ' ∉ word.toList := by
  fun_induction operandWords os with
  | case1 => exact clean
  | case2 o => exact clean
  | case3 o p rest ih =>
    obtain ⟨first, others⟩ := List.forall_mem_cons.mp clean
    refine List.forall_mem_cons.mpr ⟨?_, ih others⟩
    rw [String.toList_append, List.mem_append, not_or]
    exact ⟨first, by decide⟩

/-- A name and operands are read off the text. -/
theorem written_inj {name other : String} {os ps : List Operand} (clean : ' ' ∉ name.toList)
    (also : ' ' ∉ other.toList) (same : written name os = written other ps) : name = other ∧ os = ps := by
  have words {name : String} (clean : ' ' ∉ name.toList) (os : List Operand) :
      ∀ word ∈ name :: operandWords (os.map Operand.text), ' ' ∉ word.toList := by
    refine List.forall_mem_cons.mpr ⟨clean, space_not_mem_operandWords ?_⟩
    exact List.forall_mem_map.mpr fun o _ => o.space_not_mem_text
  rw [written_eq, written_eq] at same
  obtain ⟨names, operands⟩ := List.cons.inj
    (intercalate_inj rfl (List.cons_ne_nil _ _) (List.cons_ne_nil _ _) (words clean os) (words also ps) same)
  exact ⟨names, List.map_injective_iff.mpr Operand.text_injective (operandWords_injective operands)⟩

namespace Instruction

def name : Instruction → String
  | clearScreen => "CLS"
  | ret => "RET"
  | jump _ | jumpOffset _ => "JP"
  | call _ => "CALL"
  | skipEqByte _ _ | skipEq _ _ => "SE"
  | skipNeByte _ _ | skipNe _ _ => "SNE"
  | setByte _ _ | copy _ _ | setIndex _ | readDelay _ | awaitKey _ | setDelay _ | setSound _ | setGlyph _
  | storeDecimal _ | store _ | load _ => "LD"
  | addByte _ _ | add _ _ | addIndex _ => "ADD"
  | or _ _ => "OR"
  | and _ _ => "AND"
  | xor _ _ => "XOR"
  | sub _ _ => "SUB"
  | shiftRight _ _ => "SHR"
  | subFrom _ _ => "SUBN"
  | shiftLeft _ _ => "SHL"
  | random _ _ => "RND"
  | draw _ _ _ => "DRW"
  | skipHeld _ => "SKP"
  | skipFree _ => "SKNP"

def operands (inPlace : Bool) : Instruction → List Operand
  | clearScreen | ret => []
  | jump nnn | call nnn => [.address nnn]
  | skipEqByte x kk | skipNeByte x kk | setByte x kk | addByte x kk | random x kk => [.register x, .byte kk]
  | skipEq x y | copy x y | or x y | and x y | xor x y | add x y | sub x y | subFrom x y | skipNe x y =>
    [.register x, .register y]
  | shiftRight x y | shiftLeft x y => if inPlace then [.register x] else [.register x, .register y]
  | setIndex nnn => [.index, .address nnn]
  | jumpOffset nnn => [.register Registers.offset, .address nnn]
  | draw x y n => [.register x, .register y, .rows n]
  | skipHeld x | skipFree x => [.register x]
  | readDelay x => [.register x, .delay]
  | awaitKey x => [.register x, .key]
  | setDelay x => [.delay, .register x]
  | setSound x => [.sound, .register x]
  | addIndex x => [.index, .register x]
  | setGlyph x => [.glyph, .register x]
  | storeDecimal x => [.decimal, .register x]
  | store x => [.block, .register x]
  | load x => [.register x, .block]

theorem mnemonic_eq (inPlace : Bool) (i : Instruction) : i.mnemonic inPlace = written i.name (i.operands inPlace) := by
  cases i with
  | shiftRight x y | shiftLeft x y => cases inPlace <;> rfl
  | _ => rfl

/-- The instruction of a name and operands. A shift of one register is read as one of this register into itself. -/
def assemble? : String → List Operand → Option Instruction
  | "CLS", [] => some clearScreen
  | "RET", [] => some ret
  | "JP", [.address nnn] => some (jump nnn)
  | "JP", [.register _, .address nnn] => some (jumpOffset nnn)
  | "CALL", [.address nnn] => some (call nnn)
  | "SE", [.register x, .byte kk] => some (skipEqByte x kk)
  | "SE", [.register x, .register y] => some (skipEq x y)
  | "SNE", [.register x, .byte kk] => some (skipNeByte x kk)
  | "SNE", [.register x, .register y] => some (skipNe x y)
  | "LD", [.register x, .byte kk] => some (setByte x kk)
  | "LD", [.register x, .register y] => some (copy x y)
  | "LD", [.index, .address nnn] => some (setIndex nnn)
  | "LD", [.register x, .delay] => some (readDelay x)
  | "LD", [.register x, .key] => some (awaitKey x)
  | "LD", [.delay, .register x] => some (setDelay x)
  | "LD", [.sound, .register x] => some (setSound x)
  | "LD", [.glyph, .register x] => some (setGlyph x)
  | "LD", [.decimal, .register x] => some (storeDecimal x)
  | "LD", [.block, .register x] => some (store x)
  | "LD", [.register x, .block] => some (load x)
  | "ADD", [.register x, .byte kk] => some (addByte x kk)
  | "ADD", [.register x, .register y] => some (add x y)
  | "ADD", [.index, .register x] => some (addIndex x)
  | "OR", [.register x, .register y] => some (or x y)
  | "AND", [.register x, .register y] => some (and x y)
  | "XOR", [.register x, .register y] => some (xor x y)
  | "SUB", [.register x, .register y] => some (sub x y)
  | "SUBN", [.register x, .register y] => some (subFrom x y)
  | "SHR", [.register x] => some (shiftRight x x)
  | "SHR", [.register x, .register y] => some (shiftRight x y)
  | "SHL", [.register x] => some (shiftLeft x x)
  | "SHL", [.register x, .register y] => some (shiftLeft x y)
  | "RND", [.register x, .byte kk] => some (random x kk)
  | "DRW", [.register x, .register y, .rows n] => some (draw x y n)
  | "SKP", [.register x] => some (skipHeld x)
  | "SKNP", [.register x] => some (skipFree x)
  | _, _ => none

/-- The instruction as far as its mnemonic tells: of a shift in place, not the second register. -/
def told (inPlace : Bool) : Instruction → Instruction
  | shiftRight x y => shiftRight x (if inPlace then x else y)
  | shiftLeft x y => shiftLeft x (if inPlace then x else y)
  | i => i

theorem assemble?_operands (inPlace : Bool) (i : Instruction) :
    assemble? i.name (i.operands inPlace) = some (i.told inPlace) := by
  cases i with
  | shiftRight x y | shiftLeft x y => cases inPlace <;> rfl
  | _ => rfl

theorem space_not_mem_name (i : Instruction) : ' ' ∉ i.name.toList := by
  cases i <;> simp only [name] <;> decide

/-! ## What a mnemonic leaves open -/

theorem encode_injective : Function.Injective encode := by
  intro i j same
  have read := decode?_encode i
  rw [same, decode?_encode] at read
  exact (Option.some.inj read).symm

def SameShift (i j : Instruction) : Prop :=
  ∃ x y z, i = shiftRight x y ∧ j = shiftRight x z ∨ i = shiftLeft x y ∧ j = shiftLeft x z

theorem isShift_told (inPlace : Bool) (i : Instruction) : (i.told inPlace).IsShift ↔ i.IsShift := by
  cases i <;> exact Iff.rfl

theorem told_of_not_shift {i : Instruction} (other : ¬i.IsShift) (inPlace : Bool) : i.told inPlace = i := by
  cases i with
  | shiftRight | shiftLeft => exact absurd trivial other
  | _ => rfl

theorem shift_cases {i : Instruction} (shift : i.IsShift) : ∃ x y, i = shiftRight x y ∨ i = shiftLeft x y := by
  cases i with
  | shiftRight x y => exact ⟨x, y, .inl rfl⟩
  | shiftLeft x y => exact ⟨x, y, .inr rfl⟩
  | _ => exact shift.elim

theorem told_eq_told_iff {inPlace : Bool} {i j : Instruction} :
    i.told inPlace = j.told inPlace ↔ i = j ∨ inPlace = true ∧ SameShift i j := by
  constructor
  · intro same
    have kinds : i.IsShift ↔ j.IsShift := by rw [← isShift_told inPlace i, same, isShift_told]
    by_cases shift : i.IsShift
    · obtain ⟨x, y, rfl | rfl⟩ := shift_cases shift
      all_goals
        obtain ⟨x', z, rfl | rfl⟩ := shift_cases (kinds.mp shift)
        all_goals cases inPlace <;> simp [told] at same
        all_goals simp [SameShift, same]
    · rw [told_of_not_shift shift, told_of_not_shift fun other => shift (kinds.mpr other)] at same
      exact .inl same
  · rintro (rfl | ⟨rfl, x, y, z, ⟨rfl, rfl⟩ | ⟨rfl, rfl⟩⟩) <;> rfl

theorem mnemonic_told (inPlace : Bool) (i : Instruction) : (i.told inPlace).mnemonic inPlace = i.mnemonic inPlace := by
  cases i with
  | shiftRight x y | shiftLeft x y => cases inPlace <;> rfl
  | _ => rfl

/-- A mnemonic tells all of an instruction, but for the second register of a shift in place. -/
theorem mnemonic_eq_iff {inPlace : Bool} {i j : Instruction} :
    i.mnemonic inPlace = j.mnemonic inPlace ↔ i = j ∨ inPlace = true ∧ SameShift i j := by
  rw [← told_eq_told_iff]
  constructor
  · intro same
    rw [mnemonic_eq, mnemonic_eq] at same
    obtain ⟨names, operands⟩ := written_inj i.space_not_mem_name j.space_not_mem_name same
    have read := assemble?_operands inPlace i
    rw [names, operands, assemble?_operands] at read
    exact (Option.some.inj read).symm
  · intro same
    rw [← mnemonic_told inPlace i, same, mnemonic_told]

end Instruction

namespace Machine

open Instruction

/-! ## What a mnemonic tells -/

/-- A shift in place does not look at its second register. -/
theorem perform_sameShift {m : Machine} (inPlace : m.dialect.shiftInPlace = true) {i j : Instruction}
    (same : SameShift i j) (w w' : Nat) (keys : Keys) (chance : UInt8) :
    let a := (m.fetched w).perform keys chance i
    let b := (m.fetched w').perform keys chance j
    a.fault = b.fault ∧ a.drew = b.drew ∧ { a.machine with opcode := b.machine.opcode } = b.machine := by
  have shifted (x y : Register) (w : Nat) : (m.fetched w).shifted x y = m.v.get x := by
    rw [Machine.shifted, if_pos (show (m.fetched w).dialect.shiftInPlace = true from inPlace)]
    rfl
  obtain ⟨x, y, z, ⟨rfl, rfl⟩ | ⟨rfl, rfl⟩⟩ := same
  all_goals
    simp only [perform, execute, shifted]
    exact ⟨rfl, rfl, rfl⟩

/-- Two words of instructions have the same mnemonic just if they are the same, or in the dialect that shifts in
    place, if they are shifts of one kind and of one register. And whatever the machine, the keys and the chance,
    words with the same mnemonic have one effect, but for the word that is kept. -/
theorem mnemonic_tells_effect (d : Dialect) {w w' : Nat} (fits : w < 0x10000) (fits' : w' < 0x10000)
    {i j : Instruction} (valid : decode? w = some i) (valid' : decode? w' = some j) :
    (i.mnemonic d.shiftInPlace = j.mnemonic d.shiftInPlace ↔
      w = w' ∨ d.shiftInPlace = true ∧ ∃ n ∈ [0x6, 0xE], ∃ x y z, w = wordXYN 0x8 x y n ∧ w' = wordXYN 0x8 x z n) ∧
    ∀ (m : Machine) (keys : Keys) (chance : UInt8), m.dialect = d →
      let a := (m.fetched w).perform keys chance i
      let b := (m.fetched w').perform keys chance j
      (m.traced = true →
        a.line = some ((m.fetched w).stateLine (i.mnemonic d.shiftInPlace)) ∧
          b.line = some ((m.fetched w').stateLine (j.mnemonic d.shiftInPlace))) ∧
      (i.mnemonic d.shiftInPlace = j.mnemonic d.shiftInPlace →
        a.fault = b.fault ∧ a.drew = b.drew ∧ { a.machine with opcode := b.machine.opcode } = b.machine) := by
  obtain rfl := encode_of_decode? fits valid
  obtain rfl := encode_of_decode? fits' valid'
  refine ⟨?_, ?_⟩
  · rw [mnemonic_eq_iff]
    refine or_congr encode_injective.eq_iff.symm (and_congr_right fun _ => ⟨?_, ?_⟩)
    · rintro ⟨x, y, z, ⟨rfl, rfl⟩ | ⟨rfl, rfl⟩⟩
      · exact ⟨0x6, by decide, x, y, z, rfl, rfl⟩
      · exact ⟨0xE, by decide, x, y, z, rfl, rfl⟩
    · rintro ⟨n, mem, x, y, z, first, second⟩
      rcases List.mem_pair.mp mem with rfl | rfl
      · refine ⟨x, y, z, .inl ⟨?_, ?_⟩⟩
        · exact encode_injective (first : i.encode = (shiftRight x y).encode)
        · exact encode_injective (second : j.encode = (shiftRight x z).encode)
      · refine ⟨x, y, z, .inr ⟨?_, ?_⟩⟩
        · exact encode_injective (first : i.encode = (shiftLeft x y).encode)
        · exact encode_injective (second : j.encode = (shiftLeft x z).encode)
  · intro m keys chance dialect a b
    subst dialect
    refine ⟨fun traced => ⟨if_pos traced, if_pos traced⟩, fun same => ?_⟩
    rcases mnemonic_eq_iff.mp same with rfl | ⟨inPlace, shifts⟩
    · exact ⟨rfl, rfl, rfl⟩
    · exact perform_sameShift inPlace shifts _ _ keys chance

/-- Two shifts of V1 in place cannot be told apart. -/
theorem mnemonic_tells_effect_of_shifts :
    (Instruction.shiftRight 1 2).mnemonic true = (Instruction.shiftRight 1 15).mnemonic true ∧
      ∀ (m : Machine) (keys : Keys) (chance : UInt8), m.dialect = {} →
        ((m.fetched 0x8126).perform keys chance (.shiftRight 1 2)).fault =
          ((m.fetched 0x81F6).perform keys chance (.shiftRight 1 15)).fault := by
  have law := @mnemonic_tells_effect {} 0x8126 0x81F6 (by decide) (by decide) _ _
    (decode?_encode (.shiftRight 1 2)) (decode?_encode (.shiftRight 1 15))
  have same := law.1.mpr (.inr ⟨rfl, 0x6, by decide, 1, 2, 15, rfl, rfl⟩)
  exact ⟨same, fun m keys chance dialect => ((law.2 m keys chance dialect).2 same).1⟩

end Machine

end Chip8
