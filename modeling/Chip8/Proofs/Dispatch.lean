/-
  Chip8.Proofs.Dispatch — which words are instructions, and what a cycle makes of them.

  A form is written as in a manual: four places, each a digit or a small letter that stands for part
  of an operand. A word of a form is an instruction of this form (`decode?_of_matches`), so no two
  forms share a word, and the word of an instruction has its form (`encode_matches`). So the table
  accepts the words of the forms and no others, although its keys for families look like words
  themselves (`formless_of_low`).
-/
import Chip8.Machine.Cycle
import Chip8.Proofs.Effects

namespace Chip8

/-! ## Forms -/

namespace Form

def isOperand (c : Char) : Bool := c.isLower

def digitValue (c : Char) : Nat := if c.isDigit then c.toNat - '0'.toNat else c.toNat - 'A'.toNat + 10

def Fits (c : Char) (nibble : Nat) : Prop := isOperand c = false → nibble = digitValue c

instance (c : Char) (nibble : Nat) : Decidable (Fits c nibble) := inferInstanceAs (Decidable (_ → _))

def nibbles (w : Nat) : List Nat := [w / 0x1000, w / 0x100 % 16, w / 0x10 % 16, w % 16]

def Matches (form : String) (w : Nat) : Prop := ∀ p ∈ form.toList.zip (nibbles w), Fits p.1 p.2

instance (form : String) (w : Nat) : Decidable (Matches form w) := inferInstanceAs (Decidable (∀ _ ∈ _, _))

end Form

namespace Instruction

def forms : List String :=
  ["00E0", "00EE", "1nnn", "2nnn", "3xkk", "4xkk", "5xy0", "6xkk", "7xkk",
   "8xy0", "8xy1", "8xy2", "8xy3", "8xy4", "8xy5", "8xy6", "8xy7", "8xyE", "9xy0",
   "Annn", "Bnnn", "Cxkk", "Dxyn", "Ex9E", "ExA1",
   "Fx07", "Fx0A", "Fx15", "Fx18", "Fx1E", "Fx29", "Fx33", "Fx55", "Fx65"]

def form : Instruction → String
  | clearScreen => "00E0"
  | ret => "00EE"
  | jump _ => "1nnn"
  | call _ => "2nnn"
  | skipEqByte _ _ => "3xkk"
  | skipNeByte _ _ => "4xkk"
  | skipEq _ _ => "5xy0"
  | setByte _ _ => "6xkk"
  | addByte _ _ => "7xkk"
  | copy _ _ => "8xy0"
  | or _ _ => "8xy1"
  | and _ _ => "8xy2"
  | xor _ _ => "8xy3"
  | add _ _ => "8xy4"
  | sub _ _ => "8xy5"
  | shiftRight _ _ => "8xy6"
  | subFrom _ _ => "8xy7"
  | shiftLeft _ _ => "8xyE"
  | skipNe _ _ => "9xy0"
  | setIndex _ => "Annn"
  | jumpOffset _ => "Bnnn"
  | random _ _ => "Cxkk"
  | draw _ _ _ => "Dxyn"
  | skipHeld _ => "Ex9E"
  | skipFree _ => "ExA1"
  | readDelay _ => "Fx07"
  | awaitKey _ => "Fx0A"
  | setDelay _ => "Fx15"
  | setSound _ => "Fx18"
  | addIndex _ => "Fx1E"
  | setGlyph _ => "Fx29"
  | storeDecimal _ => "Fx33"
  | store _ => "Fx55"
  | load _ => "Fx65"

/-- Are the operands of an instruction the fields of a word? -/
def TakesFields (w : Nat) : Instruction → Prop
  | clearScreen | ret => True
  | jump nnn | call nnn | setIndex nnn | jumpOffset nnn => nnn = Word.nnn w
  | skipEqByte x kk | skipNeByte x kk | setByte x kk | addByte x kk | random x kk => x = Word.x w ∧ kk = Word.kk w
  | skipEq x y | copy x y | or x y | and x y | xor x y | add x y | sub x y | shiftRight x y | subFrom x y
  | shiftLeft x y | skipNe x y => x = Word.x w ∧ y = Word.y w
  | draw x y n => x = Word.x w ∧ y = Word.y w ∧ n = Word.n w
  | skipHeld x | skipFree x | readDelay x | awaitKey x | setDelay x | setSound x | addIndex x | setGlyph x
  | storeDecimal x | store x | load x => x = Word.x w

theorem form_mem (i : Instruction) : i.form ∈ forms := by
  cases i <;> simp [form, forms]

theorem encode_matches (i : Instruction) : Form.Matches i.form i.encode := by
  cases i with
  | skipEqByte r k | skipNeByte r k | setByte r k | addByte r k | random r k =>
    have := k.toNat_lt
    simp [form, encode, wordXKK, Form.Matches, Form.Fits, Form.nibbles, Form.isOperand, Form.digitValue]
    omega
  | clearScreen | ret => decide
  | _ =>
    simp [form, encode, wordNNN, wordXKK, wordXYN, Form.Matches, Form.Fits, Form.nibbles, Form.isOperand,
      Form.digitValue] <;> omega

theorem low_byte {w a b : Nat} (middle : w / 16 % 16 = a) (low : w % 16 = b) : w % 256 = a * 0x10 + b := by omega

/-- A word that has a form is an instruction of this form. -/
theorem decode?_of_matches {w : Nat} {f : String} (fits : w < 0x10000) (mem : f ∈ forms) (h : Form.Matches f w) :
    ∃ i, decode? w = some i ∧ i.form = f := by
  simp only [forms, List.mem_cons, List.not_mem_nil, or_false] at mem
  repeat' refine Or.elim mem (fun mem => ?_) fun mem => ?_
  all_goals
    subst mem
    simp [Form.Matches, Form.Fits, Form.nibbles, Form.isOperand, Form.digitValue] at h
  -- The digits of a form are the family alone, the family and a nibble or a byte, or the whole word.
  all_goals first
    | exact ⟨_, decode?_of_family h rfl, rfl⟩
    | exact ⟨_, decode?_of_nibble fits h.1 h.2 (by decide) rfl rfl, rfl⟩
    | exact ⟨_, decode?_of_byte fits h.1 (low_byte h.2.1 h.2.2) (by decide) rfl rfl, rfl⟩
    | obtain rfl : w = 0x00E0 := by omega
      exact ⟨_, rfl, rfl⟩
    | obtain rfl : w = 0x00EE := by omega
      exact ⟨_, rfl, rfl⟩

/-- No two forms share a word. -/
theorem forms_apart {w : Nat} {f g : String} (fits : w < 0x10000) (memF : f ∈ forms) (memG : g ∈ forms)
    (hf : Form.Matches f w) (hg : Form.Matches g w) : f = g := by
  obtain ⟨i, decoded, rfl⟩ := decode?_of_matches fits memF hf
  obtain ⟨j, again, rfl⟩ := decode?_of_matches fits memG hg
  rw [decoded] at again
  cases again
  rfl

theorem decode?_of_formless {w : Nat} (fits : w < 0x10000) (formless : ∀ f ∈ forms, ¬Form.Matches f w) :
    decode? w = none := by
  cases decoded : decode? w with
  | none => rfl
  | some i =>
    have word := encode_of_decode? fits decoded
    exact absurd (word ▸ encode_matches i) (formless i.form (form_mem i))

/-- The keys of families are no words of instructions. -/
theorem formless_of_low {w : Nat} (low : w < 0x10) : ∀ f ∈ forms, ¬Form.Matches f w := by
  intro f mem h
  obtain ⟨i, decoded, -⟩ := decode?_of_matches (by omega) mem h
  have family : Word.family w = 0 := by simp only [Word.family]; omega
  simp [decode?, family, table, low] at decoded

theorem takesFields_encode (i : Instruction) : i.TakesFields i.encode := by
  cases i with
  | clearScreen | ret => trivial
  | _ => simp [TakesFields, encode, toNat_lt_256]

end Instruction

namespace Machine

/-! ## The fetch -/

def here (m : Machine) : Nat := m.memory.wordAt m.pc

/-- Is the word at the program counter in memory, and is it the word of this instruction? -/
def At (m : Machine) (i : Instruction) : Prop := m.memory.Holds m.pc 2 ∧ m.here = i.encode

theorem fetch_eq (m : Machine) :
    m.fetch = if m.memory.Holds m.pc 2 then .ok m.here else .error (.outOfRange (m.memory.outside m.pc 2)) :=
  m.memory.readWord_eq m.pc

theorem here_lt (m : Machine) : m.here < 0x10000 := m.memory.wordAt_lt m.pc

section

variable {m : Machine} {keys : Keys} {chance : UInt8}

theorem cycle_of_outside (h : ¬m.memory.Holds m.pc 2) :
    m.cycle keys chance =
      ⟨{ m with origin := m.pc, opcode := 0 }, some (.outOfRange (m.memory.outside m.pc 2)), false, none⟩ := by
  simp [cycle, fetch_eq, h]

theorem cycle_of_none (held : m.memory.Holds m.pc 2) (h : Instruction.decode? m.here = none) :
    m.cycle keys chance = ⟨m.fetched m.here, some (.notInstruction m.here m.pc), false, none⟩ := by
  simp [cycle, fetch_eq, held, h]

theorem cycle_of_some {i : Instruction} (held : m.memory.Holds m.pc 2) (h : Instruction.decode? m.here = some i) :
    m.cycle keys chance = (m.fetched m.here).perform keys chance i := by
  simp [cycle, fetch_eq, held, h]

theorem cycle_at {i : Instruction} (h : m.At i) :
    m.cycle keys chance = (m.fetched i.encode).perform keys chance i := by
  have decoded : Instruction.decode? m.here = some i := h.2 ▸ Instruction.decode?_encode i
  rw [cycle_of_some h.1 decoded, h.2]

theorem at_of_decode? {i : Instruction} (held : m.memory.Holds m.pc 2) (h : Instruction.decode? m.here = some i) :
    m.At i :=
  ⟨held, (Instruction.encode_of_decode? m.here_lt h).symm⟩

end

/-! ## The dispatch -/

/-- With a whole word at the program counter, the words of the forms are run, each by the instruction of
    its one form with the word's own fields, and any other word is refused before anything else happens. -/
theorem cycle_follows_form (m : Machine) (keys : Keys) (chance : UInt8) (held : m.memory.Holds m.pc 2) :
    let w := m.here
    let taken : Machine := { m with origin := m.pc, opcode := w, pc := m.pc + 2 }
    let c := m.cycle keys chance
    (Word.family w * 0x1000 + Word.x w * 0x100 + Word.y w * 0x10 + Word.n w = w ∧
      (Word.kk w).toNat = Word.y w * 0x10 + Word.n w ∧ (Word.nnn w : Nat) = Word.x w * 0x100 + (Word.kk w).toNat) ∧
    (∀ f ∈ Instruction.forms, Form.Matches f w →
      (∃ i : Instruction, i.form = f ∧ i.encode = w ∧ i.TakesFields w ∧ c = taken.perform keys chance i) ∧
      (∀ word a, c.fault ≠ some (.notInstruction word a)) ∧
      ∀ g ∈ Instruction.forms, Form.Matches g w → g = f) ∧
    ((∀ f ∈ Instruction.forms, ¬Form.Matches f w) → c = ⟨taken, some (.notInstruction w m.pc), false, none⟩) ∧
    (w < 0x10 → ∀ f ∈ Instruction.forms, ¬Form.Matches f w) := by
  intro w taken c
  have fits : w < 0x10000 := m.here_lt
  refine ⟨⟨Word.fields_sum w, Word.kk_eq w, Word.nnn_eq w⟩, ?_, ?_, Instruction.formless_of_low⟩
  · intro f mem h
    obtain ⟨i, decoded, form⟩ := Instruction.decode?_of_matches fits mem h
    have word := Instruction.encode_of_decode? fits decoded
    have run : c = taken.perform keys chance i := cycle_of_some held decoded
    refine ⟨⟨i, form, word, word ▸ i.takesFields_encode, run⟩, ?_, ?_⟩
    · intro word a
      rw [run]
      exact execute_ne_notInstruction
    · intro g memG hg
      exact Instruction.forms_apart fits memG mem hg h
  · intro formless
    exact cycle_of_none held (Instruction.decode?_of_formless fits formless)

def holding (bytes : List UInt8) : Machine :=
  { create ⟨bytes.toArray⟩ (.empty Layout.stackDepth) (.blank 5 2 true) {} false with pc := 0 }

theorem cycle_refuses_8018 :
    (holding [0x80, 0x18]).cycle Keys.none 0 =
      ⟨{ holding [0x80, 0x18] with origin := 0, opcode := 0x8018, pc := 2 },
        some (.notInstruction 0x8018 0), false, none⟩ :=
  (cycle_follows_form (holding [0x80, 0x18]) Keys.none 0 (by decide)).2.2.1 (by decide)

end Machine

end Chip8
