/-
  Chip8.Proofs.Dialects — where dialects show.

  A few instructions ask for the dialect, each for one point of it: a shift which register it works on, a
  logical operation whether it clears the flag, a store or load of registers whether it moves I. Where two
  dialects agree on that point they have one effect (`execute_turned`). Where they do not, the machines
  differ in the registers or the index that the instruction shows it in, and in nothing else
  (`apart_execute`); a fault is the same in every dialect.

  So the runs in two dialects are one run, up to the first such instruction that is carried out
  (`coincide_observations`).
-/
import Chip8.Proofs.Changes
import Chip8.Proofs.Tracing

namespace Chip8

/-! ## Where a dialect can show -/

namespace Instruction

def ShowsIn (k : Register) : Instruction → Prop
  | shiftRight x _ | shiftLeft x _ => k = x ∨ k = Registers.flag
  | or _ _ | and _ _ | xor _ _ => k = Registers.flag
  | _ => False

def ShowsInIndex : Instruction → Prop
  | store _ | load _ => True
  | _ => False

/-- Is an instruction written in two ways? -/
def IsShift : Instruction → Prop
  | shiftRight _ _ | shiftLeft _ _ => True
  | _ => False

theorem mnemonic_of_not_shift {i : Instruction} (other : ¬i.IsShift) (a b : Bool) : i.mnemonic a = i.mnemonic b := by
  cases i with
  | shiftRight | shiftLeft => exact absurd trivial other
  | _ => rfl

end Instruction

namespace Registers

theorem ext_get {v w : Registers} (same : ∀ k, w.get k = v.get k) : w = v := by
  apply Vector.ext
  intro k bound
  exact same ⟨k, bound⟩

theorem get_setFlagged_of_ne (v : Registers) {x k : Register} (b : UInt8) (flagged : Bool) (target : k ≠ x)
    (other : k ≠ flag) : (v.setFlagged x b flagged).get k = v.get k := by
  rw [setFlagged, get_set, if_neg other.symm, get_set, if_neg target.symm]

end Registers

def Cycle.effect (c : Cycle) : Effect := ⟨c.machine, c.fault⟩

namespace Machine

def withDialect (m : Machine) (e : Dialect) : Machine := { m with dialect := e }

/-- Are two effects the same in two dialects, but for what an instruction here shows them in? It shows them
    only if it varies and is carried out. -/
structure Apart (here : Instruction → Prop) (d e : Dialect) (p q : Effect) : Prop where
  fault : q.fault = p.fault
  rest : q.machine = { p.machine with dialect := e, v := q.machine.v, index := q.machine.index }
  registers : ∀ k, q.machine.v.get k ≠ p.machine.v.get k →
    p.fault = none ∧ ∃ i, here i ∧ i.Varies d e ∧ i.ShowsIn k
  index : q.machine.index ≠ p.machine.index → p.fault = none ∧ ∃ i, here i ∧ i.Varies d e ∧ i.ShowsInIndex

section

variable {m : Machine} {d e : Dialect} {here : Instruction → Prop} {i : Instruction} {x : Register} {p q : Effect}

/-! ## Effects -/

namespace Apart

theorem of_same (fault : q.fault = p.fault) (machine : q.machine = p.machine.withDialect e) :
    Apart here d e p q where
  fault := fault
  rest := by
    rw [machine]
    rfl
  registers _ changed := absurd (by rw [machine]; rfl) changed
  index changed := absurd (by rw [machine]; rfl) changed

/-- Where no instruction that varies is carried out there is nothing to tell. -/
theorem same (apart : Apart here d e p q) (quiet : p.fault = none → ∀ i, here i → ¬i.Varies d e) :
    q.machine = p.machine.withDialect e := by
  have v : q.machine.v = p.machine.v := by
    apply Registers.ext_get
    intro k
    apply Decidable.byContradiction
    intro changed
    obtain ⟨done, i, mine, varies, -⟩ := apart.registers k changed
    exact quiet done i mine varies
  have index : q.machine.index = p.machine.index := by
    apply Decidable.byContradiction
    intro changed
    obtain ⟨done, i, mine, varies, -⟩ := apart.index changed
    exact quiet done i mine varies
  rw [apart.rest, v, index]
  rfl

theorem check {α : Type} {result : Except Fault α} {next told : α → Effect}
    (goes : ∀ a, Apart here d e (next a) (told a)) :
    Apart here d e (.check m result next) (.check (m.withDialect e) result told) := by
  cases result with
  | error f => exact of_same rfl rfl
  | ok a => exact goes a

end Apart

theorem apart_setFlagged (mine : here i) (varies : i.Varies d e) (target : i.ShowsIn x)
    (flag : i.ShowsIn Registers.flag) (a b : UInt8) (s t : Bool) :
    Apart here d e (.done (m.setFlagged x a s)) (.done ((m.withDialect e).setFlagged x b t)) where
  fault := rfl
  rest := rfl
  registers k changed := by
    refine ⟨rfl, i, mine, varies, ?_⟩
    by_cases isTarget : k = x
    · rw [isTarget]
      exact target
    · by_cases isFlag : k = Registers.flag
      · rw [isFlag]
        exact flag
      · have first := m.v.get_setFlagged_of_ne a s isTarget isFlag
        have second := m.v.get_setFlagged_of_ne b t isTarget isFlag
        exact absurd (second.trans first.symm) changed
  index changed := absurd rfl changed

/-- A logical operation sets its register in every dialect, and the flag in some. -/
theorem get_setLogic (m : Machine) (x : Register) (b : UInt8) {k : Register} (other : k ≠ Registers.flag) :
    (m.setLogic x b).v.get k = if x = k then b else m.v.get k := by
  unfold setLogic
  split
  · show (m.v.setFlagged x b false).get k = _
    rw [Registers.setFlagged, Registers.get_set, if_neg other.symm, Registers.get_set]
  · exact m.v.get_set x k b

theorem apart_setLogic (mine : here i) (varies : i.Varies d e) (flag : i.ShowsIn Registers.flag) (b : UInt8) :
    Apart here d e (.done (m.setLogic x b)) (.done ((m.withDialect e).setLogic x b)) := by
  have kept : ∀ n : Machine, n.setLogic x b = { n with v := (n.setLogic x b).v } := by
    intro n
    unfold setLogic
    split <;> rfl
  refine ⟨rfl, ?_, ?_, ?_⟩
  · simp only [Effect.done]
    rw [kept m, kept (m.withDialect e)]
    rfl
  · intro k changed
    refine ⟨rfl, i, mine, varies, ?_⟩
    by_cases isFlag : k = Registers.flag
    · rw [isFlag]
      exact flag
    · have first := m.get_setLogic x b isFlag
      have second := (m.withDialect e).get_setLogic x b isFlag
      exact absurd (second.trans first.symm) changed
  · intro changed
    simp only [Effect.done] at changed
    rw [kept m, kept (m.withDialect e)] at changed
    exact absurd rfl changed

theorem apart_advanced (mine : here i) (varies : i.Varies d e) (shows : i.ShowsInIndex) :
    Apart here d e (.done (m.advanced x)) (.done ((m.withDialect e).advanced x)) := by
  have kept : ∀ n : Machine, n.advanced x = { n with index := (n.advanced x).index } := by
    intro n
    unfold advanced
    split <;> rfl
  refine ⟨rfl, ?_, ?_, fun _ => ⟨rfl, i, mine, varies, shows⟩⟩
  · simp only [Effect.done]
    rw [kept m, kept (m.withDialect e)]
    rfl
  · intro k changed
    simp only [Effect.done] at changed
    rw [kept m, kept (m.withDialect e)] at changed
    exact absurd rfl changed

/-- Two dialects show only where an instruction varies between them. -/
theorem apart_execute (m : Machine) (e : Dialect) (keys : Keys) (chance : UInt8) (mine : here i) :
    Apart here m.dialect e (m.execute keys chance i) ((m.withDialect e).execute keys chance i) := by
  by_cases varies : i.Varies m.dialect e
  · cases i with
    | shiftRight x y | shiftLeft x y => exact apart_setFlagged mine varies (.inl rfl) (.inr rfl) _ _ _ _
    | or x y | and x y | xor x y => exact apart_setLogic mine varies rfl _
    | store x =>
      apply Apart.check
      intro bank
      exact apart_advanced (m := { m with memory := bank }) mine varies trivial
    | load x =>
      apply Apart.check
      intro block
      exact apart_advanced (m := { m with v := m.v.load block }) mine varies trivial
    | _ => exact varies.elim
  · have same : (m.withDialect e).execute keys chance i = (m.execute keys chance i).turned (fun _ => e) id :=
      m.execute_turned (fun _ => e) id keys chance varies
    rw [same]
    exact .of_same rfl rfl

/-! ## Cycles -/

/-- Are two cycles the same in two dialects, but for what an instruction here shows them in, and the way that a
    shift is written? -/
structure ApartCycles (here : Instruction → Prop) (d e : Dialect) (p q : Cycle) : Prop where
  effect : Apart here d e p.effect q.effect
  drew : q.drew = p.drew
  line : q.line ≠ p.line → ∃ i, here i ∧ i.IsShift ∧ d.shiftInPlace ≠ e.shiftInPlace

/-- Only the line of a shift tells a dialect. -/
theorem shift_of_traceLine (m : Machine) (changed : (m.withDialect e).traceLine? i ≠ m.traceLine? i) :
    i.IsShift ∧ m.dialect.shiftInPlace ≠ e.shiftInPlace := by
  by_cases shift : i.IsShift
  · refine ⟨shift, ?_⟩
    intro agree
    apply changed
    show (if m.traced then some (m.stateLine (i.mnemonic e.shiftInPlace)) else none) = _
    rw [← agree]
    rfl
  · have text : i.mnemonic e.shiftInPlace = i.mnemonic m.dialect.shiftInPlace :=
      Instruction.mnemonic_of_not_shift shift _ _
    refine absurd ?_ changed
    show (if m.traced then some (m.stateLine (i.mnemonic e.shiftInPlace)) else none) = _
    rw [text]
    rfl

/-- Two dialects show in a cycle only if its instruction varies between them and is carried out. -/
theorem apart_cycle (m : Machine) (e : Dialect) (keys : Keys) (chance : UInt8) :
    ApartCycles m.At m.dialect e (m.cycle keys chance) ((m.withDialect e).cycle keys chance) := by
  by_cases held : m.memory.Holds m.pc 2
  · cases decoded : Instruction.decode? m.here with
    | none =>
      have other : (m.withDialect e).cycle keys chance =
          ⟨(m.withDialect e).fetched m.here, some (.notInstruction m.here m.pc), false, none⟩ :=
        cycle_of_none held decoded
      rw [cycle_of_none held decoded, other]
      exact ⟨.of_same rfl rfl, rfl, fun changed => absurd rfl changed⟩
    | some i =>
      have other : (m.withDialect e).cycle keys chance = ((m.fetched m.here).withDialect e).perform keys chance i :=
        cycle_of_some held decoded
      have mine : m.At i := at_of_decode? held decoded
      rw [cycle_of_some held decoded, other]
      refine ⟨apart_execute (m.fetched m.here) e keys chance mine, rfl, ?_⟩
      intro changed
      exact ⟨i, mine, (m.fetched m.here).shift_of_traceLine changed⟩
  · have other : (m.withDialect e).cycle keys chance =
        ⟨{ m.withDialect e with origin := m.pc, opcode := 0 }, some (.outOfRange (m.memory.outside m.pc 2)), false,
          none⟩ :=
      cycle_of_outside held
    rw [cycle_of_outside held, other]
    exact ⟨.of_same rfl rfl, rfl, fun changed => absurd rfl changed⟩

theorem ApartCycles.report {p q : Cycle} (apart : ApartCycles here d e p q) {f : Fault} (failed : p.fault = some f) :
    q.machine.faultReport f = p.machine.faultReport f := by
  have same : q.machine = p.machine.withDialect e := by
    apply apart.effect.same
    intro done
    cases done.symm.trans failed
  rw [same]
  rfl

end

/-! ## Runs -/

/-- Does an observation show an instruction that varies between two dialects, and was carried out? -/
def Observation.Varies (d e : Dialect) (o : Observation) : Prop :=
  (∃ keys chance, o.action = .tick keys chance) ∧ o.halt = none ∧ ∃ i, o.before.At i ∧ i.Varies d e

/-- Does an observation in another dialect show the same? Only a shift may be written in another way. -/
structure Coincides (e : Dialect) (o p : Observation) : Prop where
  action : p.action = o.action
  before : p.before = o.before.withDialect e
  after : p.after = o.after.withDialect e
  halt : p.halt = o.halt
  message : p.message = o.message
  drew : p.drew = o.drew
  line : p.line ≠ o.line → ∃ i, o.before.At i ∧ i.IsShift ∧ o.before.dialect.shiftInPlace ≠ e.shiftInPlace

section

variable (m : Machine) (e : Dialect) (rom : List UInt8)

theorem coincides_observe (a : Action) (quiet : ¬(m.observe rom a).Varies m.dialect e) :
    Coincides e (m.observe rom a) ((m.withDialect e).observe rom a) := by
  -- the message follows from the machine afterwards and from the halt
  suffices shown : (m.withDialect e).act rom a = (m.act rom a).withDialect e ∧
      ((m.withDialect e).observe rom a).halt = (m.observe rom a).halt ∧
      ((m.withDialect e).observe rom a).drew = (m.observe rom a).drew ∧
      (((m.withDialect e).observe rom a).line ≠ (m.observe rom a).line →
        ∃ i, m.At i ∧ i.IsShift ∧ m.dialect.shiftInPlace ≠ e.shiftInPlace) by
    obtain ⟨after, halt, drew, line⟩ := shown
    refine ⟨rfl, rfl, after, halt, ?_, drew, line⟩
    unfold Observation.message
    rw [halt, show ((m.withDialect e).observe rom a).after = (m.act rom a).withDialect e from after]
    have messages : Halt.message ((m.act rom a).withDialect e) = Halt.message (m.act rom a) :=
      funext (message_turned (m.act rom a) (fun _ => e) id)
    rw [messages]
    rfl
  cases a with
  | tick keys chance =>
    have apart := m.apart_cycle e keys chance
    refine ⟨?_, ?_, apart.drew, apart.line⟩
    · apply apart.effect.same
      intro done i mine varies
      refine quiet ⟨⟨keys, chance, rfl⟩, ?_, i, mine, varies⟩
      show (m.cycle keys chance).fault.map Halt.crash = none
      rw [show (m.cycle keys chance).fault = none from done]
      rfl
    · exact congrArg (Option.map Halt.crash) apart.effect.fault
  | boot =>
    have booted : Emulator.bootMachine (m.withDialect e) rom = _ := m.bootMachine_turned (fun _ => e) id rom
    refine ⟨?_, ?_, rfl, fun changed => absurd rfl changed⟩
    · exact congrArg Prod.fst booted
    · exact congrArg (fun result => result.2.map Halt.boot) booted
  | countDown | reset | frame => exact ⟨rfl, rfl, rfl, fun changed => absurd rfl changed⟩

theorem dialect_act (a : Action) : (m.act rom a).dialect = m.dialect := by
  cases a with
  | tick keys chance => exact (m.kept_cycle keys chance).dialect
  | boot => exact (m.kept_boot rom).dialect
  | countDown | reset | frame => rfl

/-- The runs in two dialects are one run, up to the first instruction that varies between them. -/
theorem coincide_observations (actions : List Action) (n : Nat)
    (quiet : ∀ o ∈ (m.observations rom actions).take n, ¬o.Varies m.dialect e) :
    List.Forall₂ (Coincides e) ((m.observations rom actions).take n)
      (((m.withDialect e).observations rom actions).take n) := by
  induction actions generalizing m n with
  | nil => simp only [observations, List.take_nil, List.Forall₂.nil]
  | cons a rest ih =>
    cases n with
    | zero => exact .nil
    | succ n =>
      simp only [observations, List.take_succ_cons] at quiet ⊢
      obtain ⟨first, others⟩ := List.forall_mem_cons.mp quiet
      have now := m.coincides_observe e rom a first
      refine .cons now ?_
      rw [show (m.withDialect e).act rom a = (m.act rom a).withDialect e from now.after]
      apply ih
      rw [m.dialect_act]
      exact others

end

/-- Dialects are confined. Of a cycle they have no say but in the registers of a shift whose registers are two, in
    the flag of a logical operation, and in the index behind a store or load that succeeds, and there only where
    the two dialects differ in this very point. A fault, its report included, is the same in every dialect. So
    two runs from a state, whatever is done to it, are the same up to the first such instruction. -/
theorem dialects_confined (rom : List UInt8) (m : Machine) (d e : Dialect) :
    (∀ keys chance,
      let p := (m.withDialect d).cycle keys chance
      let q := (m.withDialect e).cycle keys chance
      ApartCycles m.At d e p q ∧ ∀ f, p.fault = some f → q.machine.faultReport f = p.machine.faultReport f) ∧
    ∀ actions n,
      let first := ((m.withDialect d).observations rom actions).take n
      (∀ o ∈ first, ¬o.Varies d e) →
        List.Forall₂ (Coincides e) first (((m.withDialect e).observations rom actions).take n) := by
  constructor
  · intro keys chance p q
    have apart : ApartCycles m.At d e p q := (m.withDialect d).apart_cycle e keys chance
    exact ⟨apart, fun f failed => apart.report failed⟩
  · intro actions n first quiet
    exact (m.withDialect d).coincide_observations e rom actions n quiet

/-- A shift of V0 into V1: one dialect shifts V1, which is zero. The runs are the same up to there. -/
theorem dialects_confined_to_a_shift :
    let m := holding [0x60, 0x05, 0x81, 0x06]
    let d : Dialect := {}
    let e : Dialect := { shiftInPlace := false }
    let actions : List Action := [.tick Keys.none 0, .tick Keys.none 0]
    List.Forall₂ (Coincides e) (((m.withDialect d).observations [] actions).take 1)
        (((m.withDialect e).observations [] actions).take 1) ∧
      (((m.withDialect d).acts [] actions).v.get 1 = 0 ∧ ((m.withDialect e).acts [] actions).v.get 1 = 2) := by
  intro m d e actions
  refine ⟨(dialects_confined [] m d e).2 actions 1 ?_, by decide +kernel⟩
  rintro o mem ⟨-, -, i, here, varies⟩
  cases List.mem_singleton.mp mem
  have decoded := Instruction.decode?_encode i
  rw [← here.2, show Machine.here _ = 0x6005 by decide +kernel] at decoded
  cases decoded
  exact varies

end Machine

end Chip8
