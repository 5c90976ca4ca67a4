/-
  Chip8.Proofs.Stops — when a cycle stops at a fault, and what it has changed by then.

  A cycle of a program stops in just three ways: its counter is not at a word of memory, the word is
  no instruction, or the machine refuses the instruction (`Stops`). A refusal names one fault
  (`Refuses.unique`), so the fault of a cycle is known from the state before it (`InRange.stops_iff`).
  By then only the counter, the word in progress and its address are changed.
-/
import Chip8.Proofs.Reachable

namespace Chip8.Machine

/-- Does the next cycle stop, and at which fault? -/
inductive Stops (m : Machine) : Fault → Prop
  | fetch : m.pc < 0 ∨ m.memory.size ≤ m.pc + 1 → Stops m (.outOfRange (m.memory.outside m.pc 2))
  | decode : m.memory.Holds m.pc 2 → (∀ form ∈ Instruction.forms, ¬Form.Matches form m.here) →
      Stops m (.notInstruction m.here m.pc)
  | execute {i : Instruction} {f : Fault} : m.At i → m.Refuses i f → Stops m f

section

variable {m : Machine} {keys : Keys} {chance : UInt8} {i : Instruction} {f g : Fault}

/-- What is refused depends on the stack, memory and the index alone. -/
theorem Refuses.transfer {n : Machine} (stack : m.stack = n.stack) (memory : m.memory = n.memory)
    (index : m.index = n.index) (refused : m.Refuses i f) : n.Refuses i f := by
  cases refused with
  | ret empty => exact .ret (stack ▸ empty)
  | call full =>
    rw [stack] at full ⊢
    exact .call full
  | draw some beyond =>
    rw [memory, index] at beyond ⊢
    exact .draw some beyond
  | storeDecimal beyond | store beyond | load beyond =>
    rw [memory, index] at beyond ⊢
    constructor
    exact beyond

theorem refuses_fetched (word : Nat) : (m.fetched word).Refuses i f ↔ m.Refuses i f :=
  ⟨.transfer rfl rfl rfl, .transfer rfl rfl rfl⟩

theorem Refuses.unique (hf : m.Refuses i f) (hg : m.Refuses i g) : f = g := by
  cases hf <;> cases hg <;> rfl

theorem At.decoded (here : m.At i) : Instruction.decode? m.here = some i :=
  here.2 ▸ Instruction.decode?_encode i

theorem stops_outside (lost : ¬m.memory.Holds m.pc 2) : m.Stops f ↔ f = .outOfRange (m.memory.outside m.pc 2) := by
  constructor
  · rintro (_ | ⟨held, _⟩ | ⟨here, _⟩)
    · rfl
    · exact absurd held lost
    · exact absurd here.1 lost
  · rintro rfl
    exact .fetch (by simp only [Memory.Holds] at lost; omega)

theorem stops_undecoded (held : m.memory.Holds m.pc 2) (undecoded : Instruction.decode? m.here = none) :
    m.Stops f ↔ f = .notInstruction m.here m.pc := by
  constructor
  · rintro (away | _ | ⟨here, _⟩)
    · have := held.1
      have := held.2
      omega
    · rfl
    · cases undecoded.symm.trans here.decoded
  · rintro rfl
    refine .decode held fun form mem matched => ?_
    obtain ⟨j, decoded, -⟩ := Instruction.decode?_of_matches m.here_lt mem matched
    cases undecoded.symm.trans decoded

theorem stops_at (here : m.At i) : m.Stops f ↔ m.Refuses i f := by
  constructor
  · rintro (away | ⟨_, formless⟩ | ⟨again, refused⟩)
    · have := here.1.1
      have := here.1.2
      omega
    · have matched := i.encode_matches
      rw [← here.2] at matched
      exact absurd matched (formless i.form i.form_mem)
    · cases here.decoded.symm.trans again.decoded
      exact refused
  · exact .execute here

theorem InRange.stops_iff (r : m.InRange) : (m.cycle keys chance).fault = some f ↔ m.Stops f := by
  by_cases held : m.memory.Holds m.pc 2
  · cases decoded : Instruction.decode? m.here with
    | none =>
      rw [stops_undecoded held decoded, cycle_of_none held decoded, Option.some.injEq, eq_comm]
    | some i =>
      -- The bounds hold behind the fetch too, so there the instruction settles.
      obtain ⟨taken, -⟩ := r.fetched held m.here
      rw [stops_at (at_of_decode? held decoded), cycle_of_some held decoded, ← refuses_fetched m.here]
      rcases taken.settles keys chance i with ⟨g, refused, effect⟩ | ⟨accepted, done⟩
      · simp only [perform, effect, Effect.failed, Option.some.injEq]
        exact ⟨fun same => same ▸ refused, refused.unique⟩
      · simp only [perform, done, reduceCtorEq, false_iff]
        exact accepted f
  · rw [stops_outside held, cycle_of_outside held, Option.some.injEq, eq_comm]

/-- A cycle that stops behind the fetch leaves the machine as the fetch left it. -/
theorem InRange.machine_of_stops (r : m.InRange) (held : m.memory.Holds m.pc 2) (stops : m.Stops f) :
    (m.cycle keys chance).machine = m.fetched m.here := by
  cases decoded : Instruction.decode? m.here with
  | none => rw [cycle_of_none held decoded]
  | some i =>
    obtain ⟨taken, -⟩ := r.fetched held m.here
    rw [cycle_of_some held decoded]
    rcases taken.settles keys chance i with ⟨g, -, effect⟩ | ⟨accepted, -⟩
    · simp only [perform, effect, Effect.failed]
    · have refused := (stops_at (at_of_decode? held decoded)).mp stops
      exact absurd ((refuses_fetched m.here).mpr refused) (accepted f)

end

/-- A cycle of a program stops just for the reasons of `Stops`, with the fault that they name. A stop in
    the fetch leaves the counter, a later one finds it behind the word, and no stop changes a
    register, the index, a timer, the stack, memory or the screen. -/
theorem cycle_stops_iff {rom : List UInt8} {m : Machine} (reached : Reachable rom m) (keys : Keys) (chance : UInt8) :
    let c := m.cycle keys chance
    (∀ f, c.fault = some f ↔ m.Stops f) ∧
    (m.pc < 0 ∨ m.memory.size ≤ m.pc + 1 → c.machine = { m with origin := m.pc, opcode := 0 }) ∧
    (0 ≤ m.pc → m.pc + 1 < m.memory.size → c.fault ≠ none →
      c.machine = { m with origin := m.pc, opcode := m.here, pc := m.pc + 2 }) := by
  intro c
  have r := reached.inRange
  refine ⟨fun f => r.stops_iff, fun away => ?_, fun low high stopped => ?_⟩
  · have lost : ¬m.memory.Holds m.pc 2 := by
      intro held
      have := held.1
      have := held.2
      omega
    exact congrArg Cycle.machine (cycle_of_outside lost)
  · obtain ⟨f, faults⟩ := Option.ne_none_iff_exists'.mp stopped
    exact r.machine_of_stops ⟨low, by omega⟩ (r.stops_iff.mp faults)

/-- Memory is empty before the first boot, and an empty word is no instruction. -/
theorem cycle_stops_unbooted :
    ((Machine.standard {} false false).cycle Keys.none 0).fault = some (.notInstruction 0 0x200) := by
  have empty : (Machine.standard {} false false).here = 0 := by decide +kernel
  have stops : (Machine.standard {} false false).Stops (.notInstruction (Machine.standard {} false false).here 0x200) :=
    .decode (by decide +kernel) (Instruction.formless_of_low (by rw [empty]; decide))
  have start : Reachable [] (Machine.standard {} false false) := .start {} false false
  rw [empty] at stops
  exact ((cycle_stops_iff start Keys.none 0).1 _).mpr stops

end Chip8.Machine
