/-
  Chip8.Proofs.Effects — which instructions a machine refuses.

  On a screen that has a size, and with timers and an index that a program can give them, an effect
  either fails before it changes anything, for one of the reasons of `Refuses`, or it is carried out
  (`execute_cases`). On any machine whatever, only the decoder says that a word is no instruction.
-/
import Chip8.Machine.Execute
import Chip8.Proofs.Pixels

namespace Chip8

theorem Effect.fault_check {α : Type} {m : Machine} {result : Except Fault α} {next : α → Effect} {f : Fault}
    (faults : (Effect.check m result next).fault = some f) :
    result = .error f ∨ ∃ a, result = .ok a ∧ (next a).fault = some f := by
  cases result with
  | error g =>
    cases faults
    exact .inl rfl
  | ok a => exact .inr ⟨a, rfl, faults⟩

theorem Effect.ok_of_check {α : Type} {m : Machine} {result : Except Fault α} {next : α → Effect}
    (done : (Effect.check m result next).fault = none) :
    ∃ a, result = .ok a ∧ Effect.check m result next = next a := by
  cases result with
  | error f => cases done
  | ok a => exact ⟨a, rfl, rfl⟩

/-! ## Sprites -/

theorem Sprite.points_clean {wrapping : Bool} {left top : Int} (hl : 0 ≤ left) (ht : 0 ≤ top) (rows : List UInt8) :
    ∀ point ∈ Sprite.points left top rows, Screen.Clean wrapping point := by
  intro point mem
  simp only [points, List.mem_flatMap, List.mem_map] at mem
  obtain ⟨⟨row, r⟩, -, c, -, rfl⟩ := mem
  exact .inr ⟨by omega, by omega⟩

namespace Machine

variable {m : Machine} {keys : Keys} {chance : UInt8} {w h : Nat}

def spritePoints (m : Machine) (w h : Nat) (x y : Register) (n : Nat) : List (Int × Int) :=
  Sprite.points (((m.v.get x).toNat % w : Nat) : Int) (((m.v.get y).toNat % h : Nat) : Int) (m.memory.blockAt m.index n)

theorem spritePoints_clean (x y : Register) (n : Nat) :
    ∀ point ∈ m.spritePoints w h x y n, Screen.Clean m.screen.wrapping point :=
  Sprite.points_clean (by omega) (by omega) _

theorem drawSprite_eq (shaped : m.screen.Shaped w h) (wide : 1 ≤ w) (high : 1 ≤ h) (x y : Register) (n : Nat) :
    m.drawSprite x y n =
      if n = 0 ∨ m.memory.Holds m.index n then m.drawPoints (m.spritePoints w h x y n)
      else .failed m (.outOfRange (m.memory.outside m.index n)) := by
  -- Without rows no address is asked for, wherever I points.
  have sized : ¬((w : Int) = 0 ∨ (h : Int) = 0) := by omega
  unfold drawSprite spritePoints
  rw [shaped.width, shaped.height, if_neg sized, Int.fmod_eq_emod_of_nonneg _ (by omega),
    Int.fmod_eq_emod_of_nonneg _ (by omega)]
  rcases Nat.eq_zero_or_pos n with rfl | some
  · rw [if_pos (.inl rfl)]
    rfl
  · rw [Memory.readBlock_eq some]
    by_cases held : m.memory.Holds m.index n
    · rw [if_pos held, if_pos (.inr held)]
      rfl
    · rw [if_neg held, if_neg (by rintro (none | range); omega; exact held range)]

theorem drawPoints_fault (shaped : m.screen.Shaped w h) (wide : 1 ≤ w) (high : 1 ≤ h) (x y : Register) (n : Nat) :
    (m.drawPoints (m.spritePoints w h x y n)).fault = none :=
  Screen.flipAll_fault shaped wide high (spritePoints_clean x y n)

/-! ## Refusals -/

/-- Does the machine refuse an instruction, and with which fault? -/
inductive Refuses (m : Machine) : Instruction → Fault → Prop
  | ret : m.stack.depth = 0 → Refuses m .ret .stackUnderflow
  | call {nnn : Fin 0x1000} : m.stack.limit ≤ m.stack.depth → Refuses m (.call nnn) (.stackOverflow m.stack.limit)
  | draw {x y : Register} {n : Fin 16} : 0 < n.val → m.memory.size < m.index + n.val →
      Refuses m (.draw x y n) (.outOfRange (m.memory.outside m.index n.val))
  | storeDecimal {x : Register} : m.memory.size < m.index + 3 →
      Refuses m (.storeDecimal x) (.outOfRange (m.memory.outside m.index 3))
  | store {x : Register} : m.memory.size < m.index + x.val + 1 →
      Refuses m (.store x) (.outOfRange (m.memory.outside m.index (x.val + 1)))
  | load {x : Register} : m.memory.size < m.index + x.val + 1 →
      Refuses m (.load x) (.outOfRange (m.memory.outside m.index (x.val + 1)))

/-- Is the instruction carried out, or refused with the machine as it was? -/
def Settles (m : Machine) (keys : Keys) (chance : UInt8) (i : Instruction) : Prop :=
  (∃ f, m.Refuses i f ∧ m.execute keys chance i = .failed m f) ∨
    (∀ f, ¬m.Refuses i f) ∧ (m.execute keys chance i).fault = none

/-- An effect that checks one result settles if the result fails just for the reasons of a refusal. -/
theorem settles_check {α : Type} {i : Instruction} {result : Except Fault α} {next : α → Effect}
    (effect : m.execute keys chance i = .check m result next) (goes : ∀ a, (next a).fault = none)
    (reasons : ∀ f, result = .error f ↔ m.Refuses i f) : m.Settles keys chance i := by
  cases result with
  | error f => exact .inl ⟨f, (reasons f).mp rfl, effect⟩
  | ok a =>
    refine .inr ⟨fun f refused => ?_, by rw [effect]; exact goes a⟩
    cases (reasons f).mpr refused

theorem length_upTo (v : Registers) (x : Register) : (v.upTo x).length = x.val + 1 := by
  have : x.val + 1 ≤ 16 := x.isLt
  simp [Registers.upTo, this]

theorem settles_draw (shaped : m.screen.Shaped w h) (wide : 1 ≤ w) (high : 1 ≤ h) (index : 0 ≤ m.index) (x y : Register)
    (n : Fin 16) : m.Settles keys chance (.draw x y n) := by
  have effect : m.execute keys chance (.draw x y n) = m.drawSprite x y n.val := rfl
  rw [Settles, effect, drawSprite_eq shaped wide high]
  by_cases held : n.val = 0 ∨ m.memory.Holds m.index n.val
  · rw [if_pos held]
    refine .inr ⟨?_, drawPoints_fault shaped wide high x y n.val⟩
    rintro _ (_ | _ | ⟨some, beyond⟩)
    rcases held with none | range
    · omega
    · have := range.2
      omega
  · rw [if_neg held]
    have some : 0 < n.val := Nat.pos_of_ne_zero fun none => held (.inl none)
    have beyond : m.memory.size < m.index + n.val := by
      by_cases inside : m.index + n.val ≤ m.memory.size
      · exact absurd (.inr ⟨index, inside⟩) held
      · omega
    exact .inl ⟨_, .draw some beyond, rfl⟩

theorem settles_ret : m.Settles keys chance .ret := by
  refine settles_check rfl (fun _ => rfl) fun f => ⟨fun failed => ?_, fun refused => ?_⟩
  · unfold CallStack.pop at failed
    split at failed <;> cases failed
    next empty => exact .ret (by simp [CallStack.depth, empty])
  · obtain ⟨empty⟩ := refused
    rw [CallStack.pop, List.eq_nil_of_length_eq_zero empty]

theorem settles_call (nnn : Fin 0x1000) : m.Settles keys chance (.call nnn) := by
  refine settles_check rfl (fun _ => rfl) fun f => ⟨fun failed => ?_, fun refused => ?_⟩
  · unfold CallStack.push at failed
    split at failed <;> cases failed
    exact .call (by omega)
  · obtain _ | ⟨full⟩ := refused
    rw [CallStack.push, if_neg (by omega)]

/-- An effect that needs a range of memory at I settles if it is refused just when the range goes beyond
    the end. -/
theorem settles_range {α : Type} {i : Instruction} {n : Int} {value : α} {next : α → Effect} (index : 0 ≤ m.index)
    (effect : m.execute keys chance i =
      .check m (if m.memory.Holds m.index n then .ok value else .error (.outOfRange (m.memory.outside m.index n))) next)
    (goes : ∀ a, (next a).fault = none)
    (reasons : ∀ f, m.Refuses i f ↔ m.memory.size < m.index + n ∧ f = .outOfRange (m.memory.outside m.index n)) :
    m.Settles keys chance i := by
  refine settles_check effect goes fun f => ?_
  rw [reasons]
  by_cases held : m.memory.Holds m.index n
  · have within := held.2
    simp only [if_pos held, reduceCtorEq, false_iff, not_and]
    omega
  · have beyond : m.memory.size < m.index + n := by
      simp only [Memory.Holds] at held
      omega
    simp only [if_neg held, Except.error.injEq, beyond, true_and, eq_comm]

theorem settles_storeDecimal (index : 0 ≤ m.index) (x : Register) : m.Settles keys chance (.storeDecimal x) := by
  have length : ((decimal (m.v.get x)).length : Int) = 3 := rfl
  have some : decimal (m.v.get x) ≠ [] := by simp [decimal]
  have written := Memory.writeBlock_eq (m := m.memory) (a := m.index) some
  rw [length] at written
  refine settles_range index (by rw [← written]; rfl) (fun _ => rfl) fun f => ⟨fun refused => ?_, ?_⟩
  · cases refused with
    | storeDecimal beyond => exact ⟨beyond, rfl⟩
  · rintro ⟨beyond, rfl⟩
    exact .storeDecimal beyond

theorem settles_store (index : 0 ≤ m.index) (x : Register) : m.Settles keys chance (.store x) := by
  have length : ((m.v.upTo x).length : Int) = x.val + 1 := by rw [length_upTo]; rfl
  have some : m.v.upTo x ≠ [] := by
    intro none
    rw [none] at length
    simp only [List.length_nil] at length
    omega
  have written := Memory.writeBlock_eq (m := m.memory) (a := m.index) some
  rw [length] at written
  refine settles_range index (by rw [← written]; rfl) (fun _ => rfl) fun f => ⟨fun refused => ?_, ?_⟩
  · cases refused with
    | store beyond => exact ⟨by omega, rfl⟩
  · rintro ⟨beyond, rfl⟩
    exact .store (by omega)

theorem settles_load (index : 0 ≤ m.index) (x : Register) : m.Settles keys chance (.load x) := by
  have read := Memory.readBlock_eq (m := m.memory) (a := m.index) (n := x.val + 1) (by omega)
  rw [Int.natCast_add, Int.natCast_one] at read
  refine settles_range index (by rw [← read]; rfl) (fun _ => rfl) fun f => ⟨fun refused => ?_, ?_⟩
  · cases refused with
    | load beyond => exact ⟨by omega, rfl⟩
  · rintro ⟨beyond, rfl⟩
    exact .load (by omega)

/-- Every effect either fails before it changes anything, or is carried out. -/
theorem execute_cases (shaped : m.screen.Shaped w h) (wide : 1 ≤ w) (high : 1 ≤ h) (index : 0 ≤ m.index)
    (delay : 0 ≤ m.delay ∧ m.delay < 256) (i : Instruction) : m.Settles keys chance i := by
  cases i with
  | ret => exact settles_ret
  | call nnn => exact settles_call nnn
  | draw x y n => exact settles_draw shaped wide high index x y n
  | storeDecimal x => exact settles_storeDecimal index x
  | store x => exact settles_store index x
  | load x => exact settles_load index x
  | readDelay x =>
    refine .inr ⟨(by rintro _ ⟨⟩), ?_⟩
    simp only [execute, if_pos delay]
    rfl
  | awaitKey x =>
    refine .inr ⟨(by rintro _ ⟨⟩), ?_⟩
    simp only [execute]
    split <;> rfl
  | _ => exact .inr ⟨(by rintro _ ⟨⟩), rfl⟩

/-! ## On any machine -/

theorem fault_of_drawSprite {x y : Register} {rows : Nat} {f : Fault}
    (faults : (m.drawSprite x y rows).fault = some f) : f = .divisionByZero ∨ ∃ a, f = .outOfRange a := by
  unfold drawSprite at faults
  split at faults
  · cases faults
    exact .inl rfl
  · split at faults
    · next g read =>
      cases faults
      exact .inr (Memory.fault_of_readBlock read)
    · exact Screen.fault_of_flipAll faults

/-- Only the decoder says that a word is no instruction. -/
theorem execute_ne_notInstruction {i : Instruction} {word a : Int} :
    (m.execute keys chance i).fault ≠ some (.notInstruction word a) := by
  intro faults
  cases i with
  | ret =>
    rcases Effect.fault_check faults with h | ⟨_, _, h⟩
    · unfold CallStack.pop at h
      split at h <;> cases h
    · cases h
  | call nnn =>
    rcases Effect.fault_check faults with h | ⟨_, _, h⟩
    · unfold CallStack.push at h
      split at h <;> cases h
    · cases h
  | draw x y n => rcases fault_of_drawSprite faults with h | ⟨_, h⟩ <;> cases h
  | readDelay x =>
    simp only [execute] at faults
    split at faults <;> cases faults
  | awaitKey x =>
    simp only [execute] at faults
    split at faults <;> cases faults
  | storeDecimal x | store x =>
    rcases Effect.fault_check faults with h | ⟨_, _, h⟩
    · obtain ⟨_, h⟩ := Memory.fault_of_writeBlock h
      cases h
    · cases h
  | load x =>
    rcases Effect.fault_check faults with h | ⟨_, _, h⟩
    · obtain ⟨_, h⟩ := Memory.fault_of_readBlock (n := x.val + 1) h
      cases h
    · cases h
  | _ => cases faults

end Machine

end Chip8
