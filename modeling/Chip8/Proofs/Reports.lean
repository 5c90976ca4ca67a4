/-
  Chip8.Proofs.Reports — a crash report tells the state that led to it.

  A report is made of lines, and the line of the state of words between spaces. No number in it holds a space
  and no line a line feed, so each of them can be taken out of the text and read back (`stateLine_inj`,
  `stackLine_inj`, `crashReport_inj`). A cycle that fails has changed nothing that is shown but the address and
  the word in progress, which are the counter and the word of the cycle. So two reports with the same text
  come from the same state (`report_identifies_state`). A fetch that failed is shown like a word of zero; the
  reasons tell them apart, for a word of zero is no instruction.
-/
import Chip8.Proofs.Stops
import Chip8.Proofs.Tracing

namespace Chip8.Machine

open Text

/-! ## Words and lines -/

def words (m : Machine) (instruction : String) : List String :=
  ["V:", "0x" ++ Hex.bytes m.v.toList.reverse, "I:", "0x" ++ Hex.padded 4 m.index, "DT:", "0x" ++ Hex.padded 2 m.delay,
    "ST:", "0x" ++ Hex.padded 2 m.sound, "PC:", "0x" ++ Hex.padded 3 m.origin, "OP:", "0x" ++ Hex.padded 4 m.opcode,
    "IN:", instruction]

def addressWord (a : Int) : String := "0x" ++ Hex.padded 3 a

def stackWords : List Int → List String
  | [] => ["(Empty)"]
  | addresses => addresses.map addressWord

def reportLines (m : Machine) (instruction reason : String) : List String :=
  ["Emulation halted.", "", About.intro ++ "Debug info:", m.stateLine instruction, m.stackLine, "", reason]

variable {m n : Machine} {instruction reason cause : String}

theorem stateLine_eq : m.stateLine instruction = " ".intercalate (m.words instruction) := by
  unfold stateLine words
  simp only [String.intercalate_cons_cons, String.intercalate_singleton,
    show ("V: 0x" : String) = "V:" ++ (" " ++ "0x") from rfl,
    show (" I: 0x" : String) = " " ++ ("I:" ++ (" " ++ "0x")) from rfl,
    show (" DT: 0x" : String) = " " ++ ("DT:" ++ (" " ++ "0x")) from rfl,
    show (" ST: 0x" : String) = " " ++ ("ST:" ++ (" " ++ "0x")) from rfl,
    show (" PC: 0x" : String) = " " ++ ("PC:" ++ (" " ++ "0x")) from rfl,
    show (" OP: 0x" : String) = " " ++ ("OP:" ++ (" " ++ "0x")) from rfl,
    show (" IN: " : String) = " " ++ ("IN:" ++ " ") from rfl, String.append_assoc]

theorem intercalate_addresses (start : String) (addresses : List Int) :
    " ".intercalate (start :: addresses.map addressWord) =
      start ++ String.join (addresses.map fun a => " 0x" ++ Hex.padded 3 a) := by
  induction addresses generalizing start with
  | nil => simp
  | cons a rest ih =>
    rw [List.map_cons, String.intercalate_cons_cons, ih, addressWord, List.map_cons, String.join_cons,
      show (" 0x" : String) = " " ++ "0x" from rfl]
    simp only [String.append_assoc]

theorem stackLine_eq : m.stackLine = " ".intercalate ("Stack:" :: stackWords m.stack.toList) := by
  unfold stackLine
  rcases m.stack.toList with _ | ⟨a, rest⟩
  · rfl
  · exact (intercalate_addresses "Stack:" (a :: rest)).symm

theorem crashReport_eq : m.crashReport instruction reason = "\n".intercalate (m.reportLines instruction reason) := by
  unfold crashReport fullState reportLines
  simp only [String.intercalate_cons_cons, String.intercalate_singleton,
    show ("Emulation halted.\n\n" : String) = "Emulation halted." ++ ("\n" ++ ("" ++ "\n")) from rfl,
    show ("Debug info:\n" : String) = "Debug info:" ++ "\n" from rfl,
    show ("\n\n" : String) = "\n" ++ ("" ++ "\n") from rfl, String.append_assoc]

/-! ## Reading back -/

/-- A number after its mark holds no space. -/
theorem space_not_mem {text : String} (number : ∀ c ∈ text.toList, c ∈ Hex.glyphs) : ' ' ∉ ("0x" ++ text).toList := by
  rw [String.toList_append]
  intro mem
  rcases List.mem_append.mp mem with mark | digit
  · exact absurd mark (by decide)
  · exact absurd (number _ digit) (by decide)

theorem space_not_mem_words : ∀ word ∈ m.words "???", ' ' ∉ word.toList := by
  have padded {width : Nat} {k : Int} : ' ' ∉ ("0x" ++ Hex.padded width k).toList :=
    space_not_mem fun _ => Hex.mem_padded
  have bytes {bs : List UInt8} : ' ' ∉ ("0x" ++ Hex.bytes bs).toList := space_not_mem fun _ => Hex.mem_bytes
  simp only [words, List.forall_mem_cons]
  exact ⟨by decide, bytes, by decide, padded, by decide, padded, by decide, padded, by decide, padded, by decide,
    padded, by decide, by decide, fun _ none => absurd none List.not_mem_nil⟩

/-- The words of a stack line are pieces of a kind that holds for the constant ones and for every address. -/
theorem forall_mem_stackWords {p : String → Prop} (first : p "Stack:") (empty : p "(Empty)")
    (address : ∀ a, p (addressWord a)) (addresses : List Int) : ∀ word ∈ "Stack:" :: stackWords addresses, p word := by
  rw [List.forall_mem_cons]
  refine ⟨first, ?_⟩
  cases addresses with
  | nil => exact List.forall_mem_singleton.mpr empty
  | cons a rest => exact List.forall_mem_map.mpr fun a _ => address a

/-- What two state lines with the same text have in common. -/
structure SameState (m n : Machine) : Prop where
  v : m.v = n.v
  index : m.index = n.index
  delay : m.delay = n.delay
  sound : m.sound = n.sound
  origin : m.origin = n.origin
  opcode : m.opcode = n.opcode

theorem stateLine_inj (same : m.stateLine "???" = n.stateLine "???") : m.SameState n := by
  rw [stateLine_eq, stateLine_eq] at same
  have words := intercalate_inj rfl (List.cons_ne_nil _ _) (List.cons_ne_nil _ _) space_not_mem_words
    space_not_mem_words same
  simp only [List.cons.injEq, String.append_right_inj, true_and, and_true] at words
  obtain ⟨v, index, delay, sound, origin, opcode⟩ := words
  have registers := List.reverse_injective (Hex.bytes_injective v)
  exact ⟨Vector.toList_inj.mp registers, Hex.padded_injective _ index, Hex.padded_injective _ delay,
    Hex.padded_injective _ sound, Hex.padded_injective _ origin, Hex.padded_injective _ opcode⟩

theorem addressWord_ne_empty (a : Int) : addressWord a ≠ "(Empty)" := by
  intro same
  have first := congrArg (fun word => word.toList.head?) same
  simp [addressWord] at first

theorem addressWord_injective : Function.Injective addressWord := by
  intro a b same
  exact Hex.padded_injective 3 ((String.append_right_inj "0x").mp same)

theorem stackWords_injective : Function.Injective stackWords := by
  intro as bs same
  cases as with
  | nil =>
    cases bs with
    | nil => rfl
    | cons b _ => exact absurd (List.cons.inj same).1.symm (addressWord_ne_empty b)
  | cons a _ =>
    cases bs with
    | nil => exact absurd (List.cons.inj same).1 (addressWord_ne_empty a)
    | cons b _ => exact List.map_injective_iff.mpr addressWord_injective same

theorem stackLine_inj (same : m.stackLine = n.stackLine) : m.stack.toList = n.stack.toList := by
  have clean := forall_mem_stackWords (p := (' ' ∉ ·.toList)) (by decide) (by decide)
    fun _ => space_not_mem fun _ => Hex.mem_padded
  rw [stackLine_eq, stackLine_eq] at same
  have words := intercalate_inj rfl (List.cons_ne_nil _ _) (List.cons_ne_nil _ _) (clean _) (clean _) same
  exact stackWords_injective (List.cons.inj words).2

theorem isLine_stackLine : IsLine m.stackLine := by
  rw [stackLine_eq]
  refine isLine_intercalate (by decide) (forall_mem_stackWords (by decide) (by decide) ?_ _)
  exact fun a => isLine_append (by decide) (Hex.isLine_padded 3 a)

theorem isLine_reportLines (single : IsLine reason) : ∀ line ∈ m.reportLines "???" reason, IsLine line := by
  simp only [reportLines, List.forall_mem_cons]
  exact ⟨by decide, by decide, by decide, m.isLine_stateLine (by decide), isLine_stackLine, by decide, single,
    fun _ none => absurd none List.not_mem_nil⟩

/-- Equal reports show the same state, the same stack and the same reason. -/
theorem crashReport_inj (single : IsLine reason) (also : IsLine cause)
    (same : m.crashReport "???" reason = n.crashReport "???" cause) :
    m.SameState n ∧ m.stack.toList = n.stack.toList ∧ reason = cause := by
  rw [crashReport_eq, crashReport_eq] at same
  have lines := intercalate_inj rfl (List.cons_ne_nil _ _) (List.cons_ne_nil _ _) (isLine_reportLines single)
    (isLine_reportLines also) same
  simp only [List.cons.injEq, true_and, and_true] at lines
  obtain ⟨state, stack, reasons⟩ := lines
  exact ⟨stateLine_inj state, stackLine_inj stack, reasons⟩

/-! ## Cycles that fail -/

theorem IsProgramFault.isLine_message {f : Fault} (possible : IsProgramFault f) : IsLine f.message := by
  rcases possible with ⟨a, rfl⟩ | ⟨word, a, rfl⟩ | rfl | rfl
  · exact isLine_append (by decide) (Hex.isLine_padded 4 a)
  · have opcode := isLine_append (by decide : IsLine "Opcode 0x") (Hex.isLine_padded 4 word)
    have address := isLine_labelled opcode (by decide : IsLine " at address 0x") (Hex.isLine_padded 3 a)
    exact isLine_append address (by decide)
  · decide
  · decide

theorem head?_toList_append {start rest : String} {c : Char} (first : start.toList.head? = some c) :
    (start ++ rest).toList.head? = some c := by
  rw [String.toList_append, List.head?_append, first]
  rfl

/-- An access outside memory is not put like a word that is no instruction. -/
theorem outOfRange_ne_notInstruction (a word b : Int) :
    (Fault.outOfRange a).message ≠ (Fault.notInstruction word b).message := by
  have left : (Fault.outOfRange a).message.toList.head? = some 'M' := head?_toList_append (by decide)
  have right : (Fault.notInstruction word b).message.toList.head? = some 'O' := by
    unfold Fault.message
    simp only [String.append_assoc]
    exact head?_toList_append (by decide)
  intro same
  rw [same, right] at left
  cases left

variable {keys keys' : Keys} {chance chance' : UInt8} {f g : Fault}

/-- A cycle that fails shows the state before it, at no word or at the word that was fetched. -/
theorem InRange.shown_of_fault (r : m.InRange) (fails : (m.cycle keys chance).fault = some f) :
    (∃ e, m.fetch = .error e) ∧ (m.cycle keys chance).machine = { m with origin := m.pc, opcode := 0 } ∧
        (∃ a, f = .outOfRange a) ∨
      m.fetch = .ok m.here ∧ (m.cycle keys chance).machine = m.fetched m.here ∧
        (m.here = 0 → f = .notInstruction 0 m.pc) := by
  by_cases held : m.memory.Holds m.pc 2
  · right
    refine ⟨by rw [fetch_eq, if_pos held], r.machine_of_stops held (r.stops_iff.mp fails), ?_⟩
    intro zero
    have low : m.here < 0x10 := by omega
    have undecoded := Instruction.decode?_of_formless m.here_lt (Instruction.formless_of_low low)
    rw [cycle_of_none held undecoded, zero] at fails
    exact (Option.some.inj fails).symm
  · left
    rw [cycle_of_outside held] at fails ⊢
    exact ⟨⟨_, by rw [fetch_eq, if_neg held]⟩, rfl, ⟨_, (Option.some.inj fails).symm⟩⟩

/-- Two cycles that fail with the same report start from the same registers, index, timers, counter and return
    addresses, with any programs, dialects, keys and chances. And either both find no word at their counter, or
    both fetch the same. -/
theorem report_identifies_state {rom rom' : List UInt8} (reached : Reachable rom m) (also : Reachable rom' n)
    (fails : (m.cycle keys chance).fault = some f) (fails' : (n.cycle keys' chance').fault = some g)
    (same : (m.cycle keys chance).machine.faultReport f = (n.cycle keys' chance').machine.faultReport g) :
    m.v = n.v ∧ m.index = n.index ∧ m.delay = n.delay ∧ m.sound = n.sound ∧ m.pc = n.pc ∧
      m.stack.toList = n.stack.toList ∧
      ((∃ e, m.fetch = .error e) ∧ (∃ e, n.fetch = .error e) ∨ ∃ word, m.fetch = .ok word ∧ n.fetch = .ok word) := by
  have left := reached.inRange
  have right := also.inRange
  obtain ⟨state, stack, reasons⟩ := crashReport_inj (left.fault_of_cycle fails).isLine_message
    (right.fault_of_cycle fails').isLine_message same
  rcases left.shown_of_fault fails with ⟨lost, shown, a, rfl⟩ | ⟨word, shown, zero⟩
  all_goals
    rcases right.shown_of_fault fails' with ⟨lost', shown', b, rfl⟩ | ⟨word', shown', zero'⟩
    all_goals rw [shown, shown'] at state stack
  · exact ⟨state.v, state.index, state.delay, state.sound, state.origin, stack, .inl ⟨lost, lost'⟩⟩
  · -- no word is shown like the word zero, but the reasons differ
    have zero : (n.here : Int) = 0 := state.opcode.symm
    obtain rfl := zero' (by omega)
    exact absurd reasons (outOfRange_ne_notInstruction a 0 n.pc)
  · have none : (m.here : Int) = 0 := state.opcode
    obtain rfl := zero (by omega)
    exact absurd reasons.symm (outOfRange_ne_notInstruction b 0 m.pc)
  · have words : (m.here : Int) = n.here := state.opcode
    have words : m.here = n.here := by omega
    refine ⟨state.v, state.index, state.delay, state.sound, state.origin, stack, .inr ⟨m.here, word, ?_⟩⟩
    rw [words]
    exact word'

/-- Two machines that differ in dialect, in wrapping and in what they did before fail alike at an empty word. -/
theorem report_identifies_state_unbooted :
    let m := Machine.standard {} false false
    let n := ((Machine.standard { clearFlag := true } true false).act [] (.tick Keys.none 0)).act [] .reset
    let f : Fault := .notInstruction 0 0x200
    (m.cycle Keys.none 0).fault = some f ∧ (n.cycle Keys.none 7).fault = some f ∧
      (m.cycle Keys.none 0).machine.faultReport f = (n.cycle Keys.none 7).machine.faultReport f ∧
      m.dialect ≠ n.dialect ∧ m.v = n.v ∧ m.pc = n.pc ∧ ∃ word, m.fetch = .ok word ∧ n.fetch = .ok word := by
  intro m n f
  have fails : (m.cycle Keys.none 0).fault = some f := by decide +kernel
  have also : (n.cycle Keys.none 7).fault = some f := by decide +kernel
  have same : (m.cycle Keys.none 0).machine.faultReport f = (n.cycle Keys.none 7).machine.faultReport f := by
    decide +kernel
  have reached : Reachable [] m := .start {} false false
  have other : Reachable [] n := .act .reset (.act (.tick Keys.none 0) (.start { clearFlag := true } true false))
  obtain ⟨v, -, -, -, pc, -, fetched⟩ := report_identifies_state reached other fails also same
  refine ⟨fails, also, same, by decide +kernel, v, pc, ?_⟩
  rcases fetched with ⟨⟨e, lost⟩, -⟩ | fetched
  · have held : m.fetch = .ok 0 := by decide +kernel
    rw [held] at lost
    cases lost
  · exact fetched

end Chip8.Machine
