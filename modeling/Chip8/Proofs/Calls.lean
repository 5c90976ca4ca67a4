/-
  Chip8.Proofs.Calls — a call ends with a return to the address behind it.

  Only a call and a return touch the stack, each at its top, and one that fails leaves it alone
  (`stackMove_cycle`). So while the stack is deeper than it was before a call, it is still what it was, with
  the address behind the call on it and perhaps more (`Pending`). The first cycle that takes the stack
  back to its old depth is a return, and it goes to this address (`return_ends_call`). Memory has no say in
  it: the program may change itself, and the host may put anything into memory between two cycles.
-/
import Chip8.Proofs.Dispatch

namespace Chip8.Machine

/-! ## What moves the stack -/

inductive StackMove (m : Machine) (c : Cycle) : Prop
  | kept : c.machine.stack = m.stack → StackMove m c
  | called (nnn : Fin 0x1000) : m.At (.call nnn) → c.fault = none →
      c.machine.stack.addresses = (m.pc + 2) :: m.stack.addresses → StackMove m c
  | returned (a : Int) : m.At .ret → c.fault = none → m.stack.addresses = a :: c.machine.stack.addresses →
      c.machine.pc = a → StackMove m c

section

variable {m : Machine} {keys : Keys} {chance : UInt8}

theorem stack_check {α : Type} {result : Except Fault α} {next : α → Effect}
    (keeps : ∀ a, (next a).machine.stack = m.stack) : (Effect.check m result next).machine.stack = m.stack := by
  cases result with
  | error f => rfl
  | ok a => exact keeps a

theorem stack_drawSprite (m : Machine) (x y : Register) (rows : Nat) :
    (m.drawSprite x y rows).machine.stack = m.stack := by
  unfold drawSprite
  split
  · rfl
  · split <;> rfl

theorem stack_advanced (m : Machine) (x : Register) : (m.advanced x).stack = m.stack := by
  unfold advanced
  split <;> rfl

theorem stack_execute {i : Instruction} (noCall : ∀ nnn, i ≠ .call nnn) (noReturn : i ≠ .ret) :
    (m.execute keys chance i).machine.stack = m.stack := by
  cases i with
  | ret => exact absurd rfl noReturn
  | call nnn => exact absurd rfl (noCall nnn)
  | skipEqByte | skipNeByte | skipEq | skipNe | skipHeld | skipFree =>
    simp only [execute, skipIf, Effect.done]
    split <;> rfl
  | or | and | xor =>
    simp only [execute, setLogic, Effect.done]
    split <;> rfl
  | draw x y n => exact m.stack_drawSprite x y n.val
  | readDelay | awaitKey =>
    simp only [execute]
    split <;> rfl
  | storeDecimal x => exact stack_check fun bank => rfl
  | store x => exact stack_check fun bank => stack_advanced { m with memory := bank } x
  | load x => exact stack_check fun block => stack_advanced { m with v := m.v.load block } x
  | _ => rfl

theorem execute_call (m : Machine) (keys : Keys) (chance : UInt8) (nnn : Fin 0x1000) :
    (∃ f, m.execute keys chance (.call nnn) = .failed m f) ∨
      ∃ stack : CallStack, stack.addresses = m.pc :: m.stack.addresses ∧
        m.execute keys chance (.call nnn) = .done { m with pc := nnn.val, stack := stack } := by
  simp only [execute, CallStack.push]
  split
  · exact .inr ⟨_, rfl, rfl⟩
  · exact .inl ⟨_, rfl⟩

theorem execute_ret (m : Machine) (keys : Keys) (chance : UInt8) :
    (∃ f, m.execute keys chance .ret = .failed m f) ∨
      ∃ (a : Int) (stack : CallStack), m.stack.addresses = a :: stack.addresses ∧
        m.execute keys chance .ret = .done { m with pc := a, stack := stack } := by
  simp only [execute, CallStack.pop]
  split
  · exact .inl ⟨_, rfl⟩
  · next a rest held => exact .inr ⟨a, { m.stack with addresses := rest }, held, rfl⟩

theorem stackMove_of_call {nnn : Fin 0x1000} (here : m.At (.call nnn)) : m.StackMove (m.cycle keys chance) := by
  have ran : m.cycle keys chance = (m.fetched (Instruction.call nnn).encode).perform keys chance (.call nnn) :=
    cycle_at here
  rcases (m.fetched (Instruction.call nnn).encode).execute_call keys chance nnn with ⟨f, failed⟩ | ⟨stack, onTop, done⟩
  · rw [ran, perform, failed]
    exact .kept rfl
  · rw [ran, perform, done]
    exact .called nnn here rfl onTop

theorem stackMove_of_ret (here : m.At .ret) : m.StackMove (m.cycle keys chance) := by
  have ran : m.cycle keys chance = (m.fetched Instruction.ret.encode).perform keys chance .ret := cycle_at here
  rcases (m.fetched Instruction.ret.encode).execute_ret keys chance with ⟨f, failed⟩ | ⟨a, stack, held, done⟩
  · rw [ran, perform, failed]
    exact .kept rfl
  · rw [ran, perform, done]
    exact .returned a here rfl held rfl

/-- A call that fails is no call, and a return that fails is no return. -/
theorem stackMove_cycle (m : Machine) (keys : Keys) (chance : UInt8) : m.StackMove (m.cycle keys chance) := by
  by_cases held : m.memory.Holds m.pc 2
  · cases decoded : Instruction.decode? m.here with
    | none =>
      rw [cycle_of_none held decoded]
      exact .kept rfl
    | some i =>
      have here := at_of_decode? held decoded
      by_cases called : ∃ nnn, i = .call nnn
      · obtain ⟨nnn, rfl⟩ := called
        exact stackMove_of_call here
      · by_cases returned : i = .ret
        · subst returned
          exact stackMove_of_ret here
        · rw [cycle_of_some held decoded]
          exact .kept (stack_execute (fun nnn same => called ⟨nnn, same⟩) returned)
  · rw [cycle_of_outside held]
    exact .kept rfl

end

/-! ## Pending calls -/

/-- What may happen while a call is pending: a cycle, failed or not, a count of the timers, a frame, and any
    change to memory from outside. -/
inductive Event where
  | tick (keys : Keys) (chance : UInt8)
  | countDown
  | frame
  | overwrite (bank : Memory)

def meet (m : Machine) : Event → Machine
  | .tick keys chance => (m.cycle keys chance).machine
  | .countDown => m.countDown
  | .frame => { m with screen := m.screen.frame.1 }
  | .overwrite bank => { m with memory := bank }

def meetAll (m : Machine) (events : List Event) : Machine := events.foldl meet m

/-- Does the stack hold an address on top of others, perhaps under more? -/
def Pending (a : Int) (below : List Int) (m : Machine) : Prop := ∃ above, m.stack.addresses = above ++ a :: below

def Ends (a : Int) (below : List Int) (m : Machine) (event : Event) : Prop :=
  ∃ keys chance, event = .tick keys chance ∧ m.At .ret ∧ (m.cycle keys chance).fault = none ∧
    (m.meet event).stack.addresses = below ∧ (m.meet event).pc = a

section

variable {m : Machine} {a : Int} {below : List Int}

theorem Pending.of_stack {n : Machine} (pending : m.Pending a below) (same : n.stack = m.stack) :
    n.Pending a below := by
  rw [Pending, same]
  exact pending

theorem Pending.meet (pending : m.Pending a below) (event : Event) :
    (m.meet event).Pending a below ∨ m.Ends a below event := by
  cases event with
  | countDown | frame | overwrite => exact .inl (pending.of_stack rfl)
  | tick keys chance =>
    obtain ⟨above, held⟩ := pending
    rcases m.stackMove_cycle keys chance with same | ⟨nnn, _, _, onTop⟩ | ⟨b, here, done, popped, back⟩
    · exact .inl (Pending.of_stack ⟨above, held⟩ same)
    · refine .inl ⟨(m.pc + 2) :: above, ?_⟩
      rw [List.cons_append, ← held]
      exact onTop
    · -- a return takes the address of an inner call, or there is none left
      rw [held] at popped
      cases above with
      | nil =>
        cases popped
        exact .inr ⟨keys, chance, rfl, here, done, rfl, back⟩
      | cons c rest =>
        simp only [List.cons_append, List.cons.injEq] at popped
        exact .inl ⟨rest, popped.2.symm⟩

theorem Pending.depth_ne (pending : m.Pending a below) : m.stack.depth ≠ below.length := by
  obtain ⟨above, held⟩ := pending
  simp only [CallStack.depth, held, List.length_append, List.length_cons]
  omega

theorem meetAll_take_succ (m : Machine) (events : List Event) (k : Nat) :
    m.meetAll (events.take (k + 1)) =
      (events[k]?.map (m.meetAll (events.take k)).meet).getD (m.meetAll (events.take k)) := by
  rw [List.take_add_one]
  cases events[k]? with
  | none => simp only [Option.toList_none, List.append_nil, Option.map_none, Option.getD_none]
  | some event =>
    simp only [meetAll, Option.toList_some, List.foldl_append, List.foldl_cons, List.foldl_nil, Option.map_some,
      Option.getD_some]

/-- A call stays pending until the depth is what it was before. -/
theorem Pending.meetAll (pending : m.Pending a below) (events : List Event) {k : Nat}
    (deep : ∀ j ≤ k, (m.meetAll (events.take j)).stack.depth ≠ below.length) :
    (m.meetAll (events.take k)).Pending a below := by
  induction k with
  | zero => exact pending
  | succ k ih =>
    have before := ih fun j le => deep j (by omega)
    have now := deep (k + 1) (Nat.le_refl _)
    rw [meetAll_take_succ] at now ⊢
    cases next : events[k]? with
    | none => exact before
    | some event =>
      rw [next] at now
      rcases before.meet event with still | ⟨_, _, _, _, _, done, _⟩
      · exact still
      · exact absurd (congrArg List.length done) now

end

/-- After a call that was carried out the stack is what it was with the address behind the call on it. While
    it is deeper than it was before, these stay at its bottom. When for the first time it is as deep as
    before, a return was carried out, the stack is what it was, and the program goes on behind the call. -/
theorem return_ends_call {m : Machine} {nnn : Fin 0x1000} {keys : Keys} {chance : UInt8} (here : m.At (.call nnn))
    (done : (m.cycle keys chance).fault = none) (events : List Event) :
    let inside (k : Nat) := (m.cycle keys chance).machine.meetAll (events.take k)
    (inside 0).stack.toList = m.stack.toList ++ [m.pc + 2] ∧
    (∀ k, (∀ j ≤ k, m.stack.depth < (inside j).stack.depth) →
      ∃ more, (inside k).stack.toList = m.stack.toList ++ (m.pc + 2) :: more) ∧
    (∀ k, (∀ j ≤ k, (inside j).stack.depth ≠ m.stack.depth) → (inside (k + 1)).stack.depth = m.stack.depth →
      ∃ keys chance, events[k]? = some (.tick keys chance) ∧ (inside k).At .ret ∧
        ((inside k).cycle keys chance).fault = none ∧
        (inside (k + 1)).stack.toList = m.stack.toList ∧ (inside (k + 1)).pc = m.pc + 2) := by
  intro inside
  have onTop : (m.cycle keys chance).machine.stack.addresses = (m.pc + 2) :: m.stack.addresses := by
    rw [cycle_at here] at done ⊢
    rcases (m.fetched (Instruction.call nnn).encode).execute_call keys chance nnn with ⟨f, failed⟩ | ⟨_, onTop, ran⟩
    · rw [perform, failed] at done
      cases done
    · rw [perform, ran]
      exact onTop
  have pending : (m.cycle keys chance).machine.Pending (m.pc + 2) m.stack.addresses := ⟨[], onTop⟩
  refine ⟨?_, ?_, ?_⟩
  · show (m.cycle keys chance).machine.stack.addresses.reverse = m.stack.addresses.reverse ++ [m.pc + 2]
    rw [onTop, List.reverse_cons]
  · intro k deep
    obtain ⟨above, held⟩ := pending.meetAll events fun j le => Nat.ne_of_gt (deep j le)
    refine ⟨above.reverse, ?_⟩
    show (inside k).stack.addresses.reverse = m.stack.addresses.reverse ++ (m.pc + 2) :: above.reverse
    simp only [inside, held, List.reverse_append, List.reverse_cons, List.append_assoc, List.cons_append,
      List.nil_append]
  · intro k deep back
    have before := pending.meetAll events deep
    have step : inside (k + 1) = (events[k]?.map (inside k).meet).getD (inside k) := meetAll_take_succ _ events k
    cases next : events[k]? with
    | none =>
      rw [step, next] at back
      exact absurd back (deep k (Nat.le_refl k))
    | some event =>
      rw [next] at step
      rcases before.meet event with still | ⟨keys, chance, rfl, atReturn, carriedOut, popped, target⟩
      · rw [step] at back
        exact absurd back still.depth_ne
      · refine ⟨keys, chance, rfl, atReturn, carriedOut, ?_, ?_⟩
        · rw [step]
          exact congrArg List.reverse popped
        · rw [step]
          exact target

/-- Inside the call there is another, the timers are counted, and the host wipes memory but for the two returns. -/
theorem return_ends_call_over_another :
    let m := holding [0x20, 0x04, 0x00, 0x00, 0x20, 0x08, 0x00, 0xEE, 0x00, 0xEE]
    let events := [.tick Keys.none 0, .countDown, .overwrite ⟨#[0, 0, 0, 0, 0, 0, 0x00, 0xEE, 0x00, 0xEE]⟩,
      .tick Keys.none 0, .tick Keys.none 0]
    let inside (k : Nat) := (m.cycle Keys.none 0).machine.meetAll (events.take k)
    m.At (.call 4) ∧ (m.cycle Keys.none 0).fault = none ∧
      (inside 2).stack.toList = [2, 6] ∧ (inside 5).stack.toList = [] ∧ (inside 5).pc = 2 := by
  intro m events inside
  have here : m.At (.call 4) := ⟨by decide, by decide⟩
  have done : (m.cycle Keys.none 0).fault = none := by decide
  obtain ⟨-, -, ends⟩ := return_ends_call here done events
  obtain ⟨_, _, _, _, _, popped, back⟩ := ends 4 (by decide) (by decide)
  exact ⟨here, done, by decide, popped, back⟩

end Chip8.Machine
