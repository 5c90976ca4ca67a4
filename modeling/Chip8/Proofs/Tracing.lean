/-
  Chip8.Proofs.Tracing — a traced machine is the same machine, with a line for each instruction.

  Whether a machine is traced is never asked but for the line. So the switch can be turned before an
  instruction or after it, with the same effect (`execute_withTrace`), and a run of a traced machine is
  the run of an untraced one but for its lines (`tracing_only_prints`). The line of a cycle describes the
  state before it: the word at the counter, if this is an instruction, whatever comes of it.
-/
import Chip8.Proofs.Switches
import Chip8.Proofs.Texts
import Mathlib.Data.List.Forall2

namespace Chip8

/-! ## Lines -/

def IsLine (s : String) : Prop := '\n' ∉ s.toList

instance (s : String) : Decidable (IsLine s) := inferInstanceAs (Decidable (¬_))

theorem isLine_append {s t : String} (hs : IsLine s) (ht : IsLine t) : IsLine (s ++ t) := by
  simp only [IsLine, String.toList_append, List.mem_append, not_or]
  exact ⟨hs, ht⟩

theorem isLine_labelled {s label t : String} (hs : IsLine s) (hl : IsLine label) (ht : IsLine t) :
    IsLine (s ++ label ++ t) :=
  isLine_append (isLine_append hs hl) ht

theorem isLine_intercalate {s : String} {parts : List String} (hs : IsLine s) (hp : ∀ p ∈ parts, IsLine p) :
    IsLine (s.intercalate parts) := by
  simp only [IsLine, String.toList_intercalate] at hs hp ⊢
  induction parts with
  | nil => exact List.not_mem_nil
  | cons p rest ih =>
    obtain ⟨first, others⟩ := List.forall_mem_cons.mp hp
    cases rest with
    | nil => simpa using first
    | cons q rest =>
      simp only [List.map_cons, List.intercalate_cons_cons, List.mem_append, not_or]
      exact ⟨⟨first, hs⟩, ih others⟩

namespace Text.Hex

theorem isLine_padded (width : Nat) (n : Int) : IsLine (padded width n) := by
  intro feed
  exact absurd (mem_padded feed) (by decide)

theorem isLine_bytes (bs : List UInt8) : IsLine (bytes bs) := by
  intro feed
  exact absurd (mem_bytes feed) (by decide)

end Text.Hex

namespace Instruction

open Text

theorem isLine_registerName (x : Register) : IsLine (registerName x) :=
  isLine_append (by decide) (Hex.isLine_padded 1 _)

theorem isLine_byteText (kk : UInt8) : IsLine (byteText kk) := isLine_append (by decide) (Hex.isLine_padded 2 _)

theorem isLine_addressText (nnn : Address) : IsLine (addressText nnn) :=
  isLine_append (by decide) (Hex.isLine_padded 3 _)

theorem isLine_operation {name : String} {operands : List String} (named : IsLine name)
    (listed : ∀ p ∈ operands, IsLine p) : IsLine (operation name operands) :=
  isLine_append (isLine_append named (by decide)) (isLine_intercalate (by decide) listed)

theorem isLine_mnemonic (inPlace : Bool) (i : Instruction) : IsLine (i.mnemonic inPlace) := by
  cases i with
  | clearScreen => exact (by decide : IsLine "CLS")
  | ret => exact (by decide : IsLine "RET")
  | shiftRight x y | shiftLeft x y =>
    cases inPlace <;> exact isLine_operation (by decide) (by simp [isLine_registerName])
  | draw x y n =>
    have rows : IsLine ("0x" ++ Hex.padded 1 n.val) := isLine_append (by decide) (Hex.isLine_padded 1 _)
    exact isLine_operation (by decide) (by simp [isLine_registerName, rows])
  | _ =>
    exact isLine_operation (by decide) (by simp +decide [isLine_registerName, isLine_byteText, isLine_addressText])

end Instruction

namespace Machine

/-! ## The switch -/

def withTrace (m : Machine) (on : Bool) : Machine := { m with traced := on }

end Machine

def Effect.withTrace (e : Effect) (on : Bool) : Effect := { e with machine := e.machine.withTrace on }

namespace Machine

variable (m : Machine) (on : Bool)

/-- An instruction never asks whether it is traced. -/
theorem execute_withTrace (keys : Keys) (chance : UInt8) (i : Instruction) :
    (m.withTrace on).execute keys chance i = (m.execute keys chance i).withTrace on :=
  m.execute_turned id (fun _ => on) keys chance (i.not_varies_self m.dialect)

/-! ## Cycles -/

def narration? : Option String :=
  if m.memory.Holds m.pc 2 then
    (Instruction.decode? m.here).map fun i => (m.fetched m.here).stateLine (i.mnemonic m.dialect.shiftInPlace)
  else none

/-- Tracing changes nothing of a cycle but the line. -/
theorem cycle_withTrace (keys : Keys) (chance : UInt8) :
    (m.withTrace on).cycle keys chance =
      { m.cycle keys chance with
        machine := (m.cycle keys chance).machine.withTrace on
        line := if on then m.narration? else none } := by
  by_cases held : m.memory.Holds m.pc 2
  · cases decoded : Instruction.decode? m.here with
    | none =>
      have same : (m.withTrace on).cycle keys chance =
          ⟨(m.withTrace on).fetched m.here, some (.notInstruction m.here m.pc), false, none⟩ :=
        cycle_of_none held decoded
      simp only [same, cycle_of_none held decoded, narration?, decoded, Option.map_none, ite_self]
      rfl
    | some i =>
      have same : (m.withTrace on).cycle keys chance = ((m.fetched m.here).withTrace on).perform keys chance i :=
        cycle_of_some held decoded
      simp only [same, cycle_of_some held decoded, perform, execute_withTrace, narration?, if_pos held, decoded,
        Option.map_some]
      rfl
  · have same : (m.withTrace on).cycle keys chance =
        ⟨{ m.withTrace on with origin := m.pc, opcode := 0 }, some (.outOfRange (m.memory.outside m.pc 2)), false,
          none⟩ :=
      cycle_of_outside held
    simp only [same, cycle_of_outside held, narration?, if_neg held, ite_self]
    rfl

theorem narrates_iff :
    m.narration?.isSome ↔ m.memory.Holds m.pc 2 ∧ ∃ form ∈ Instruction.forms, Form.Matches form m.here := by
  unfold narration?
  split
  · next held =>
    rw [Option.isSome_map]
    constructor
    · intro decodes
      obtain ⟨i, decoded⟩ := Option.isSome_iff_exists.mp decodes
      have matched := i.encode_matches
      rw [Instruction.encode_of_decode? m.here_lt decoded] at matched
      exact ⟨held, i.form, i.form_mem, matched⟩
    · rintro ⟨-, form, mem, matched⟩
      obtain ⟨i, decoded, -⟩ := Instruction.decode?_of_matches m.here_lt mem matched
      rw [decoded]
      rfl
  · next lost => exact ⟨fun told => (nomatch told), fun ⟨held, _⟩ => absurd held lost⟩

theorem isLine_stateLine {text : String} (single : IsLine text) : IsLine (m.stateLine text) := by
  have padded := Text.Hex.isLine_padded
  have v := isLine_append (by decide : IsLine "V: 0x") (Text.Hex.isLine_bytes m.v.toList.reverse)
  have index := isLine_labelled v (by decide : IsLine " I: 0x") (padded 4 m.index)
  have delay := isLine_labelled index (by decide : IsLine " DT: 0x") (padded 2 m.delay)
  have sound := isLine_labelled delay (by decide : IsLine " ST: 0x") (padded 2 m.sound)
  have origin := isLine_labelled sound (by decide : IsLine " PC: 0x") (padded 3 m.origin)
  have opcode := isLine_labelled origin (by decide : IsLine " OP: 0x") (padded 4 m.opcode)
  exact isLine_labelled opcode (by decide : IsLine " IN: ") single

/-- Is a text one line that shows the state at an instruction, with the address and the word of it? -/
def Shows (text : String) : Prop :=
  IsLine text ∧ ∃ i : Instruction, i.encode = m.here ∧
    text = "V: 0x" ++ Text.Hex.bytes m.v.toList.reverse ++ " I: 0x" ++ Text.Hex.padded 4 m.index
      ++ " DT: 0x" ++ Text.Hex.padded 2 m.delay ++ " ST: 0x" ++ Text.Hex.padded 2 m.sound
      ++ " PC: 0x" ++ Text.Hex.padded 3 m.pc ++ " OP: 0x" ++ Text.Hex.padded 4 m.here
      ++ " IN: " ++ i.mnemonic m.dialect.shiftInPlace

theorem narration_shows {text : String} (told : m.narration? = some text) : m.Shows text := by
  unfold narration? at told
  split at told
  · obtain ⟨i, decoded, rfl⟩ := Option.map_eq_some_iff.mp told
    exact ⟨isLine_stateLine _ (i.isLine_mnemonic _), i, Instruction.encode_of_decode? m.here_lt decoded, rfl⟩
  · cases told

/-! ## Runs -/

/-- One action of a run: the machine before and after it, how it failed, whether it used up a random byte, and
    what it printed. -/
structure Observation where
  before : Machine
  action : Action
  after : Machine
  halt : Option Halt
  drew : Bool
  line : Option String

def Observation.message (o : Observation) : Option String := o.halt.map (Halt.message o.after)

def observe (rom : List UInt8) (m : Machine) (a : Action) : Observation where
  before := m
  action := a
  after := m.act rom a
  halt := match a with
    | .tick keys chance => (m.cycle keys chance).fault.map .crash
    | .boot => (Emulator.bootMachine m rom).2.map .boot
    | _ => none
  drew := match a with
    | .tick keys chance => (m.cycle keys chance).drew
    | _ => false
  line := match a with
    | .tick keys chance => (m.cycle keys chance).line
    | _ => none

def observations (rom : List UInt8) (m : Machine) : List Action → List Observation
  | [] => []
  | a :: rest => m.observe rom a :: observations rom (m.act rom a) rest

/-- Does a traced observation show what an untraced one shows, and a line if there is an instruction? -/
structure Echoes (quiet live : Observation) : Prop where
  action : live.action = quiet.action
  before : live.before = quiet.before.withTrace true
  after : live.after = quiet.after.withTrace true
  halt : live.halt = quiet.halt
  message : live.message = quiet.message
  drew : live.drew = quiet.drew
  silent : quiet.line = none
  /-- The cycles at an instruction print a line, whether or not the instruction fails. -/
  told : live.line.isSome ↔
    (∃ keys chance, quiet.action = .tick keys chance) ∧ quiet.before.memory.Holds quiet.before.pc 2 ∧
      ∃ form ∈ Instruction.forms, Form.Matches form quiet.before.here
  line : ∀ text, live.line = some text → quiet.before.Shows text

theorem bootMachine_withTrace (rom : List UInt8) : Emulator.bootMachine (m.withTrace on) rom =
    ((Emulator.bootMachine m rom).1.withTrace on, (Emulator.bootMachine m rom).2) :=
  m.bootMachine_turned id (fun _ => on) rom

theorem act_withTrace (rom : List UInt8) (a : Action) : (m.withTrace on).act rom a = (m.act rom a).withTrace on := by
  cases a with
  | boot => simp only [act, bootMachine_withTrace]
  | tick keys chance => simp only [act, cycle_withTrace]
  | countDown | reset | frame => rfl

/-- Tracing changes nothing of an action but the line of a cycle. -/
theorem observe_withTrace (rom : List UInt8) (a : Action) :
    (m.withTrace on).observe rom a =
      { m.observe rom a with
        before := m.withTrace on
        after := (m.act rom a).withTrace on
        line := match a with
          | .tick _ _ => if on then m.narration? else none
          | _ => none } := by
  cases a with
  | tick keys chance => simp only [observe, act_withTrace, cycle_withTrace]
  | boot => simp only [observe, act_withTrace, bootMachine_withTrace]
  | countDown | reset | frame => rfl

theorem message_withTrace (h : Halt) : h.message (m.withTrace on) = h.message m :=
  m.message_turned id (fun _ => on) h

theorem message_observe (rom : List UInt8) (a : Action) :
    ((m.withTrace on).observe rom a).message = (m.observe rom a).message := by
  rw [observe_withTrace]
  unfold Observation.message
  simp only
  cases (m.observe rom a).halt with
  | none => rfl
  | some h => exact congrArg some (message_withTrace _ on h)

theorem echoes_observe (rom : List UInt8) (a : Action) :
    Echoes ((m.withTrace false).observe rom a) ((m.withTrace true).observe rom a) := by
  -- both are compared with the machine as it is, traced or not
  have message := (m.message_observe true rom a).trans (m.message_observe false rom a).symm
  rw [observe_withTrace, observe_withTrace] at message ⊢
  cases a with
  | tick keys chance =>
    refine ⟨rfl, rfl, rfl, rfl, message, rfl, rfl, ⟨?_, ?_⟩, ?_⟩
    · intro told
      exact ⟨⟨keys, chance, rfl⟩, m.narrates_iff.mp told⟩
    · rintro ⟨-, found⟩
      exact m.narrates_iff.mpr found
    · intro _ told
      exact m.narration_shows told
  | boot | countDown | reset | frame =>
    refine ⟨rfl, rfl, rfl, rfl, message, rfl, rfl, ⟨fun told => (nomatch told), ?_⟩, fun _ told => (nomatch told)⟩
    exact fun ⟨⟨_, _, same⟩, _⟩ => (nomatch same)

/-- A traced machine and an untraced one go through the same states and fail alike, whatever is done to
    them, and the traced one prints one line for each instruction that it comes to. -/
theorem tracing_only_prints (rom : List UInt8) (actions : List Action) :
    List.Forall₂ Echoes ((m.withTrace false).observations rom actions)
      ((m.withTrace true).observations rom actions) := by
  induction actions generalizing m with
  | nil => exact .nil
  | cons a rest ih =>
    simp only [observations, act_withTrace]
    exact .cons (m.echoes_observe rom a) (ih (m.act rom a))

end Machine

end Chip8
