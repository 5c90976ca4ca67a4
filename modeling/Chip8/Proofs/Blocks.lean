/-
  Chip8.Proofs.Blocks — what stores leave in memory, and what loads bring back.

  A store and a load of the registers up to `Vx` move one block between the registers and the addresses from
  I on (`Stored`, `Loaded`), and in the dialect that does so they leave I behind the block. So transfers that
  follow each other work on adjacent blocks. A series of them (`Series`) lets anything happen between two
  transfers that leaves memory, the index and the dialect alone. A series of stores is one long store of the
  blocks in a row (`Series.stores`), a series of loads is one long read (`Series.loads`), and where both start at
  one address the blocks come back as they were.
-/
import Chip8.Proofs.Footprints

namespace Chip8

/-! ## Blocks of memory -/

namespace Memory

variable {m : Memory} {a : Int}

theorem splice_append (bytes : Array UInt8) (start : Nat) (block rest : List UInt8) :
    splice bytes start (block ++ rest) = splice (splice bytes start block) (start + block.length) rest := by
  induction block generalizing bytes start with
  | nil => rfl
  | cons b block ih =>
    have place : start + (b :: block).length = start + 1 + block.length := by simp only [List.length_cons]; omega
    rw [List.cons_append, splice, splice, ih, place]

/-- Two blocks in a row are stored one after the other. -/
theorem withBlock_append (low : 0 ≤ a) (block rest : List UInt8) :
    m.withBlock a (block ++ rest) = (m.withBlock a block).withBlock (a + block.length) rest := by
  have place : (a + block.length).toNat = a.toNat + block.length := by omega
  simp only [withBlock, splice_append, place]

theorem blockAt_append (m : Memory) (a : Int) (p q : Nat) :
    m.blockAt a (p + q) = m.blockAt a p ++ m.blockAt (a + p) q := by
  simp only [blockAt, List.range_add, List.map_append, List.map_map]
  congr 1
  apply List.map_congr_left
  intro k _
  simp only [Function.comp, Int.natCast_add, Int.add_assoc]

theorem getD_blockAt (m : Memory) (a : Int) (n k : Nat) (other : UInt8) :
    (m.blockAt a n).getD k other = if k < n then m.byteAt (a + k) else other := by
  rw [blockAt, List.getD_eq_getElem?_getD, List.getElem?_map]
  by_cases inside : k < n
  · rw [if_pos inside, List.getElem?_range inside]
    rfl
  · have beyond : (List.range n).length ≤ k := by rw [List.length_range]; exact Nat.le_of_not_lt inside
    rw [if_neg inside, List.getElem?_eq_none beyond]
    rfl

/-- A block that was stored is read again. -/
theorem blockAt_withBlock {block : List UInt8} (held : m.Holds a block.length) :
    (m.withBlock a block).blockAt a block.length = block := by
  apply List.ext_getElem
  · simp [blockAt]
  · intro k _ inside
    have reached : a ≤ a + k ∧ a + (k : Int) < a + block.length := by omega
    have place : (a + (k : Int) - a).toNat = k := by omega
    simp only [blockAt, List.getElem_map, List.getElem_range]
    rw [byteAt_withBlock held, if_pos reached, place]
    simp [inside]

end Memory

/-! ## Blocks of registers -/

namespace Registers

theorem getD_upTo (v : Registers) {x k : Register} (reached : k ≤ x) : (v.upTo x).getD k.val 0 = v.get k := by
  have inside : k.val < x.val + 1 := Nat.lt_succ_of_le reached
  simp [upTo, get, inside]

theorem upTo_load (v : Registers) {x : Register} {block : List UInt8} (length : block.length = x.val + 1) :
    (v.load block).upTo x = block := by
  apply List.ext_getElem
  · rw [Machine.length_upTo, length]
  · intro k _ inside
    simp [upTo, load, inside]

end Registers

namespace Machine

/-! ## One transfer -/

section

variable {m : Machine} {x : Register}

def behind (m : Machine) (x : Register) : Int :=
  if m.dialect.advanceIndex then (m.index + x.val + 1) % 0x10000 else m.index

theorem advanced_eq (m : Machine) (x : Register) : m.advanced x = { m with index := m.behind x } := by
  unfold advanced behind
  split <;> rfl

theorem holds_upTo (low : 0 ≤ m.index) (inside : m.memory.InBank (m.index + x.val)) :
    m.memory.Holds m.index (m.v.upTo x).length := by
  rw [length_upTo]
  exact ⟨low, by have := inside.2; omega⟩

theorem cycle_store (keys : Keys) (chance : UInt8) (here : m.At (.store x)) (low : 0 ≤ m.index)
    (inside : m.memory.InBank (m.index + x.val)) :
    (m.cycle keys chance).fault = none ∧
      (m.cycle keys chance).machine =
        { m.fetched (Instruction.store x).encode with
          memory := m.memory.withBlock m.index (m.v.upTo x), index := m.behind x } := by
  have written := Memory.writeBlock_of_holds (holds_upTo low inside)
  have effect : (m.fetched (Instruction.store x).encode).execute keys chance (.store x) =
      .done ({ m.fetched (Instruction.store x).encode with
        memory := m.memory.withBlock m.index (m.v.upTo x) }.advanced x) := by
    show Effect.check _ (m.memory.writeBlock m.index (m.v.upTo x)) _ = _
    rw [written]
    rfl
  rw [cycle_at here, perform, effect, advanced_eq]
  exact ⟨rfl, rfl⟩

theorem cycle_load (keys : Keys) (chance : UInt8) (here : m.At (.load x)) (low : 0 ≤ m.index)
    (inside : m.memory.InBank (m.index + x.val)) :
    (m.cycle keys chance).fault = none ∧
      (m.cycle keys chance).machine =
        { m.fetched (Instruction.load x).encode with
          v := m.v.load (m.memory.blockAt m.index (x.val + 1)), index := m.behind x } := by
  have held : m.memory.Holds m.index (x.val + 1 : Nat) := ⟨low, by have := inside.2; omega⟩
  have read : m.memory.readBlock m.index (x.val + 1 : Nat) = .ok (m.memory.blockAt m.index (x.val + 1)) := by
    rw [Memory.readBlock_eq (by omega), if_pos held]
  have effect : (m.fetched (Instruction.load x).encode).execute keys chance (.load x) =
      .done ({ m.fetched (Instruction.load x).encode with
        v := m.v.load (m.memory.blockAt m.index (x.val + 1)) }.advanced x) := by
    show Effect.check _ (m.memory.readBlock m.index (x.val + 1 : Nat)) _ = _
    rw [read]
    rfl
  rw [cycle_at here, perform, effect, advanced_eq]
  exact ⟨rfl, rfl⟩

theorem cycle_storeDecimal (keys : Keys) (chance : UInt8) (here : m.At (.storeDecimal x)) (low : 0 ≤ m.index)
    (inside : m.memory.InBank (m.index + 2)) :
    (m.cycle keys chance).fault = none ∧
      (m.cycle keys chance).machine =
        { m.fetched (Instruction.storeDecimal x).encode with
          memory := m.memory.withBlock m.index (decimal (m.v.get x)) } := by
  have length : (decimal (m.v.get x)).length = 3 := rfl
  have held : m.memory.Holds m.index (decimal (m.v.get x)).length := by
    rw [length]
    exact ⟨low, by have := inside.2; omega⟩
  have effect : (m.fetched (Instruction.storeDecimal x).encode).execute keys chance (.storeDecimal x) =
      .done { m.fetched (Instruction.storeDecimal x).encode with
        memory := m.memory.withBlock m.index (decimal (m.v.get x)) } := by
    show Effect.check _ (m.memory.writeBlock m.index (decimal (m.v.get x))) _ = _
    rw [Memory.writeBlock_of_holds held]
    rfl
  rw [cycle_at here, perform, effect]
  exact ⟨rfl, rfl⟩

/-- Did a cycle store the registers up to `x` at I and do nothing else? -/
structure Stored (m : Machine) (x : Register) (c : Cycle) : Prop where
  done : c.fault = none
  block : ∀ k ≤ x, c.machine.memory.byteAt (m.index + k.val) = m.v.get k
  others : ∀ a, a < m.index ∨ m.index + x.val < a → c.machine.memory.byteAt a = m.memory.byteAt a
  size : c.machine.memory.size = m.memory.size
  rest : c.machine =
    { m.fetched (Instruction.store x).encode with memory := c.machine.memory, index := m.behind x }

structure Loaded (m : Machine) (x : Register) (c : Cycle) : Prop where
  done : c.fault = none
  block : ∀ k ≤ x, c.machine.v.get k = m.memory.byteAt (m.index + k.val)
  others : ∀ k, x < k → c.machine.v.get k = m.v.get k
  rest : c.machine = { m.fetched (Instruction.load x).encode with v := c.machine.v, index := m.behind x }

structure StoredDecimal (m : Machine) (x : Register) (c : Cycle) : Prop where
  done : c.fault = none
  digits : ∃ hundreds tens ones : Fin 10,
    (c.machine.memory.byteAt m.index).toNat = hundreds ∧
    (c.machine.memory.byteAt (m.index + 1)).toNat = tens ∧
    (c.machine.memory.byteAt (m.index + 2)).toNat = ones ∧
    100 * hundreds.val + 10 * tens.val + ones.val = (m.v.get x).toNat
  others : ∀ a, a < m.index ∨ m.index + 2 < a → c.machine.memory.byteAt a = m.memory.byteAt a
  size : c.machine.memory.size = m.memory.size
  rest : c.machine = { m.fetched (Instruction.storeDecimal x).encode with memory := c.machine.memory }

theorem stored_cycle (keys : Keys) (chance : UInt8) (here : m.At (.store x)) (low : 0 ≤ m.index)
    (inside : m.memory.InBank (m.index + x.val)) :
    m.Stored x (m.cycle keys chance) := by
  obtain ⟨done, ran⟩ := cycle_store keys chance here low inside
  have held := holds_upTo low inside
  have length : ((m.v.upTo x).length : Int) = x.val + 1 := by rw [length_upTo]; rfl
  refine ⟨done, ?_, ?_, ?_, ?_⟩
  · intro k reached
    have order : k.val ≤ x.val := reached
    have place : (m.index + (k.val : Int) - m.index).toNat = k.val := by omega
    rw [ran]
    simp only [Memory.byteAt_withBlock held]
    rw [if_pos (by omega), place, Registers.getD_upTo m.v reached]
  · intro a outside
    rw [ran]
    simp only [Memory.byteAt_withBlock held]
    rw [if_neg (by omega)]
  · rw [ran]
    exact Memory.size_withBlock _ _ _
  · rw [ran]

theorem loaded_cycle (keys : Keys) (chance : UInt8) (here : m.At (.load x)) (low : 0 ≤ m.index)
    (inside : m.memory.InBank (m.index + x.val)) :
    m.Loaded x (m.cycle keys chance) := by
  obtain ⟨done, ran⟩ := cycle_load keys chance here low inside
  refine ⟨done, ?_, ?_, ?_⟩
  · intro k reached
    have order : k.val < x.val + 1 := Nat.lt_succ_of_le reached
    rw [ran]
    simp only [Registers.get_load, Memory.getD_blockAt]
    rw [if_pos order]
  · intro k beyond
    have order : ¬k.val < x.val + 1 := Nat.not_lt.mpr beyond
    rw [ran]
    simp only [Registers.get_load, Memory.getD_blockAt]
    rw [if_neg order]
  · rw [ran]

theorem digits_of_byte (b : UInt8) :
    (b / 100).toNat = b.toNat / 100 ∧ (b / 10 % 10).toNat = b.toNat / 10 % 10 ∧ (b % 10).toNat = b.toNat % 10 :=
  ⟨UInt8.toNat_div _ _, by rw [UInt8.toNat_mod, UInt8.toNat_div]; rfl, UInt8.toNat_mod _ _⟩

theorem storedDecimal_cycle (keys : Keys) (chance : UInt8) (here : m.At (.storeDecimal x)) (low : 0 ≤ m.index)
    (inside : m.memory.InBank (m.index + 2)) : m.StoredDecimal x (m.cycle keys chance) := by
  obtain ⟨done, ran⟩ := cycle_storeDecimal keys chance here low inside
  obtain ⟨hundreds, tens, ones⟩ := digits_of_byte (m.v.get x)
  have bound := (m.v.get x).toNat_lt
  have length : (decimal (m.v.get x)).length = 3 := rfl
  have held : m.memory.Holds m.index (decimal (m.v.get x)).length := by
    rw [length]
    exact ⟨low, by have := inside.2; omega⟩
  have stored : ∀ k : Nat, k < 3 →
      (m.cycle keys chance).machine.memory.byteAt (m.index + k) = (decimal (m.v.get x)).getD k 0 := by
    intro k reached
    have place : (m.index + (k : Int) - m.index).toNat = k := by omega
    rw [ran]
    simp only [Memory.byteAt_withBlock held]
    rw [if_pos (by omega), place]
  refine ⟨done, ?_, ?_, ?_, ?_⟩
  · have first := stored 0 (by decide)
    rw [Int.natCast_zero, Int.add_zero] at first
    refine ⟨⟨(m.v.get x).toNat / 100, by omega⟩, ⟨(m.v.get x).toNat / 10 % 10, by omega⟩,
      ⟨(m.v.get x).toNat % 10, by omega⟩, ?_, ?_, ?_, ?_⟩
    · rw [first]
      exact hundreds
    · exact (congrArg UInt8.toNat (stored 1 (by decide))).trans tens
    · exact (congrArg UInt8.toNat (stored 2 (by decide))).trans ones
    · show 100 * ((m.v.get x).toNat / 100) + 10 * ((m.v.get x).toNat / 10 % 10) + (m.v.get x).toNat % 10 = _
      omega
  · intro a outside
    rw [ran]
    simp only [Memory.byteAt_withBlock held]
    rw [if_neg (by omega)]
  · rw [ran]
    exact Memory.size_withBlock _ _ _
  · rw [ran]

/-- A load from where a block was stored brings it back. -/
theorem restored_cycle {n : Machine} {c : Cycle} (keys : Keys) (chance : UInt8) (stored : m.Stored x c)
    (low : 0 ≤ m.index) (inside : m.memory.InBank (m.index + x.val)) (memory : n.memory = c.machine.memory)
    (index : n.index = m.index) (here : n.At (.load x)) :
    (n.cycle keys chance).fault = none ∧ ∀ k ≤ x, (n.cycle keys chance).machine.v.get k = m.v.get k := by
  have reaches : n.memory.InBank (n.index + x.val) := by
    rw [index, memory]
    exact ⟨inside.1, stored.size ▸ inside.2⟩
  have loaded : n.Loaded x (n.cycle keys chance) := loaded_cycle keys chance here (index ▸ low) reaches
  refine ⟨loaded.done, ?_⟩
  intro k reached
  rw [loaded.block k reached, memory, index, stored.block k reached]

end

/-! ## Transfers in a row -/

/-- A transfer of the registers up to `last`: the machine that it found, and what the cycle did. -/
structure Transfer where
  last : Register
  before : Machine
  cycle : Cycle

namespace Transfer

def stored (t : Transfer) : List UInt8 := t.before.v.upTo t.last

def loaded (t : Transfer) : List UInt8 := t.cycle.machine.v.upTo t.last

def span : List Transfer → Nat
  | [] => 0
  | t :: ts => t.last.val + 1 + span ts

theorem length_stored (ts : List Transfer) : (ts.flatMap stored).length = span ts := by
  induction ts with
  | nil => rfl
  | cons t ts ih => rw [List.flatMap_cons, List.length_append, ih, span, stored, length_upTo]

theorem span_append (earlier later : List Transfer) : span (earlier ++ later) = span earlier + span later := by
  simp only [← length_stored, List.flatMap_append, List.length_append]

/-- How much is moved is a matter of the registers that the transfers go up to. -/
theorem span_of_last {us ts : List Transfer} (same : us.map last = ts.map last) : span us = span ts := by
  induction us generalizing ts with
  | nil =>
    cases List.map_eq_nil_iff.mp same.symm
    rfl
  | cons u us ih =>
    cases ts with
    | nil => cases same
    | cons t ts =>
      obtain ⟨first, rest⟩ := List.cons_eq_cons.mp same
      rw [span, span, first, ih rest]

/-- A block of many is at its place among them. -/
theorem getD_stored (earlier later : List Transfer) (t : Transfer) {k : Register} (reached : k ≤ t.last) :
    ((earlier ++ t :: later).flatMap stored).getD (span earlier + k.val) 0 = t.before.v.get k := by
  have order : k.val ≤ t.last.val := reached
  have inside : k.val < t.stored.length := by
    rw [stored, length_upTo]
    omega
  have place : span earlier + k.val - (earlier.flatMap stored).length = k.val := by
    rw [length_stored]
    omega
  rw [List.flatMap_append, List.flatMap_cons, List.getD_eq_getElem?_getD,
    List.getElem?_append_right (by rw [length_stored]; omega), place, List.getElem?_append_left inside,
    ← List.getD_eq_getElem?_getD]
  exact Registers.getD_upTo _ reached

end Transfer

open Transfer (span)

/-- Transfers of one kind, one after the other. Before each of them anything may happen that leaves memory, the
    index and the dialect alone. -/
inductive Series (kind : Register → Instruction) : Machine → List Transfer → Machine → Prop
  | stop (m : Machine) : Series kind m [] m
  | next {m before n : Machine} {ts : List Transfer} (x : Register) (keys : Keys) (chance : UInt8)
      (memory : before.memory = m.memory) (index : before.index = m.index) (dialect : before.dialect = m.dialect)
      (here : before.At (kind x)) (rest : Series kind (before.cycle keys chance).machine ts n) :
      Series kind m (⟨x, before, before.cycle keys chance⟩ :: ts) n

section

variable {m n : Machine} {x : Register} {ts : List Transfer} {i : Int}

/-- The first of some transfers that have room is carried out, and it leaves I where the others start. The index
    does not come round while there are others. -/
theorem room_of_span {c : Cycle} (advances : m.dialect.advanceIndex = true) (index : m.index = i) (low : 0 ≤ i)
    (fits : i + span (⟨x, m, c⟩ :: ts) ≤ m.memory.size) (short : i + span (⟨x, m, c⟩ :: ts) ≤ 0x10000) :
    m.memory.InBank (m.index + x.val) ∧ (ts ≠ [] → m.behind x = i + (x.val + 1 : Nat)) ∧
      i + (x.val + 1 : Nat) + span ts ≤ m.memory.size ∧ i + (x.val + 1 : Nat) + span ts ≤ 0x10000 := by
  have length : span (⟨x, m, c⟩ :: ts) = x.val + 1 + span ts := rfl
  rw [length] at fits short
  refine ⟨⟨by omega, by omega⟩, ?_, by omega, by omega⟩
  intro more
  obtain ⟨t, later, rfl⟩ := List.exists_cons_of_ne_nil more
  rw [span] at short
  rw [behind, if_pos advances, index]
  omega

/-- A series of stores is one store of its blocks in a row. -/
theorem Series.stores (run : Series .store m ts n) (advances : m.dialect.advanceIndex = true)
    (start : ts ≠ [] → m.index = i) (low : 0 ≤ i) (fits : i + span ts ≤ m.memory.size)
    (short : i + span ts ≤ 0x10000) :
    (∀ t ∈ ts, t.cycle.fault = none) ∧ n.memory = m.memory.withBlock i (ts.flatMap Transfer.stored) := by
  induction run generalizing i with
  | stop m => exact ⟨fun _ mem => absurd mem List.not_mem_nil, rfl⟩
  | @next m before n ts x keys chance memory index dialect here rest ih =>
    have first : before.index = i := index.trans (start (List.cons_ne_nil _ _))
    rw [← dialect] at advances
    rw [← memory] at fits ⊢
    obtain ⟨room, moved, fits, short⟩ := room_of_span advances first low fits short
    obtain ⟨done, ran⟩ := cycle_store keys chance here (first ▸ low) room
    rw [ran] at ih
    obtain ⟨others, stored⟩ := ih advances moved (by omega) (by simpa using fits) short
    have length : (before.v.upTo x).length = x.val + 1 := length_upTo _ _
    refine ⟨List.forall_mem_cons.mpr ⟨done, others⟩, ?_⟩
    rw [stored, List.flatMap_cons, Memory.withBlock_append low]
    simp only [Transfer.stored, first, length]

/-- A series of loads is one read of its blocks in a row. -/
theorem Series.loads (run : Series .load m ts n) (advances : m.dialect.advanceIndex = true)
    (start : ts ≠ [] → m.index = i) (low : 0 ≤ i) (fits : i + span ts ≤ m.memory.size)
    (short : i + span ts ≤ 0x10000) :
    (∀ t ∈ ts, t.cycle.fault = none) ∧ ts.flatMap Transfer.loaded = m.memory.blockAt i (span ts) := by
  induction run generalizing i with
  | stop m => exact ⟨fun _ mem => absurd mem List.not_mem_nil, rfl⟩
  | @next m before n ts x keys chance memory index dialect here rest ih =>
    have first : before.index = i := index.trans (start (List.cons_ne_nil _ _))
    rw [← dialect] at advances
    rw [← memory] at fits ⊢
    obtain ⟨room, moved, fits, short⟩ := room_of_span advances first low fits short
    obtain ⟨done, ran⟩ := cycle_load keys chance here (first ▸ low) room
    rw [ran] at ih
    obtain ⟨others, loaded⟩ := ih advances moved (by omega) fits short
    have length : (before.memory.blockAt i (x.val + 1)).length = x.val + 1 := by simp [Memory.blockAt]
    refine ⟨List.forall_mem_cons.mpr ⟨done, others⟩, ?_⟩
    rw [List.flatMap_cons, loaded, span, Memory.blockAt_append _ i (x.val + 1), Transfer.loaded, ran]
    simp only [first, fetched, Registers.upTo_load _ length]

end

/-- A series of stores leaves its blocks side by side, each where the one before it ends. -/
theorem byteAt_stored_blocks {ts earlier later : List Transfer} {t : Transfer} {bank : Memory} {i : Int}
    (held : bank.Holds i (ts.flatMap Transfer.stored).length) (split : ts = earlier ++ t :: later) {k : Register}
    (reached : k ≤ t.last) :
    (bank.withBlock i (ts.flatMap Transfer.stored)).byteAt (i + span earlier + k.val) = t.before.v.get k := by
  have order : k.val ≤ t.last.val := reached
  have length : span ts = span earlier + (t.last.val + 1 + span later) := by
    rw [split, Transfer.span_append, span]
  have place : (i + span earlier + k.val - i).toNat = span earlier + k.val := by omega
  rw [Memory.byteAt_withBlock held, if_pos (by rw [Transfer.length_stored]; omega), place, split]
  exact Transfer.getD_stored earlier later t reached

/-- Loads over the blocks of a series of stores bring the blocks back in their order. -/
theorem Series.restores {m l n' : Machine} {ts us : List Transfer} (reads : Series .load l us n')
    (held : m.memory.Holds m.index (ts.flatMap Transfer.stored).length)
    (memory : l.memory = m.memory.withBlock m.index (ts.flatMap Transfer.stored)) (index : l.index = m.index)
    (advances : l.dialect.advanceIndex = true) (short : m.index + span ts ≤ 0x10000)
    (same : us.map Transfer.last = ts.map Transfer.last) :
    (∀ u ∈ us, u.cycle.fault = none) ∧ us.map Transfer.loaded = ts.map Transfer.stored := by
  have spans : span us = span ts := Transfer.span_of_last same
  have length := Transfer.length_stored ts
  have fits : m.index + span us ≤ l.memory.size := by
    have within := held.2
    rw [memory, Memory.size_withBlock]
    omega
  obtain ⟨done, loaded⟩ := reads.loads advances (fun _ => index) held.1 fits (spans ▸ short)
  refine ⟨done, ?_⟩
  have flat : us.flatMap Transfer.loaded = ts.flatMap Transfer.stored := by
    rw [loaded, spans, memory, ← length, Memory.blockAt_withBlock held]
  have lengths : (us.map Transfer.loaded).map List.length = (ts.map Transfer.stored).map List.length := by
    have blocks := congrArg (List.map fun x : Register => x.val + 1) same
    simpa only [List.map_map, Function.comp_def, Transfer.loaded, Transfer.stored, length_upTo] using blocks
  exact List.eq_iff_flatten_eq.mpr ⟨flat, lengths⟩

/-- A store of the registers up to `Vx` writes them from I on and a load reads them from there, both do nothing
    else but move I in the dialect that does so, and so a load from where they were stored brings them back,
    whatever became of the machine in between. Stores one after the other leave their blocks side by side, and as
    many loads from the first address on bring them back in their order. A byte is stored as its three decimal
    digits. -/
theorem transfers_keep_blocks (m : Machine) (x : Register) (keys : Keys) (chance : UInt8) (low : 0 ≤ m.index) :
    let c := m.cycle keys chance
    (m.At (.store x) → m.memory.InBank (m.index + x.val) →
      m.Stored x c ∧
      ∀ (n : Machine) (keys : Keys) (chance : UInt8),
        n.memory = c.machine.memory → n.index = m.index → n.At (.load x) →
          (n.cycle keys chance).fault = none ∧ ∀ k ≤ x, (n.cycle keys chance).machine.v.get k = m.v.get k) ∧
    (m.At (.load x) → m.memory.InBank (m.index + x.val) → m.Loaded x c) ∧
    (m.At (.storeDecimal x) → m.memory.InBank (m.index + 2) → m.StoredDecimal x c) ∧
    ∀ (ts : List Transfer) (n : Machine), Series .store m ts n → m.dialect.advanceIndex = true →
      m.index + span ts ≤ m.memory.size → m.index + span ts ≤ 0x10000 →
        (∀ t ∈ ts, t.cycle.fault = none) ∧
        (∀ earlier t later, ts = earlier ++ t :: later →
          ∀ k ≤ t.last, n.memory.byteAt (m.index + span earlier + k.val) = t.before.v.get k) ∧
        (∀ a, a < m.index ∨ m.index + span ts ≤ a → n.memory.byteAt a = m.memory.byteAt a) ∧
        ∀ (l : Machine) (us : List Transfer) (n' : Machine), l.memory = n.memory → l.index = m.index →
          l.dialect.advanceIndex = true → Series .load l us n' → us.map Transfer.last = ts.map Transfer.last →
            (∀ u ∈ us, u.cycle.fault = none) ∧ us.map Transfer.loaded = ts.map Transfer.stored := by
  intro c
  refine ⟨?_, ?_, ?_, ?_⟩
  · intro here inside
    have stored : m.Stored x c := stored_cycle keys chance here low inside
    refine ⟨stored, ?_⟩
    intro n keys chance memory index again
    exact restored_cycle keys chance stored low inside memory index again
  · intro here inside
    exact loaded_cycle keys chance here low inside
  · intro here inside
    exact storedDecimal_cycle keys chance here low inside
  · intro ts n run advances fits short
    have held : m.memory.Holds m.index (ts.flatMap Transfer.stored).length :=
      ⟨low, by rw [Transfer.length_stored]; exact fits⟩
    obtain ⟨done, written⟩ := run.stores advances (fun _ => rfl) low fits short
    refine ⟨done, ?_, ?_, ?_⟩
    · intro earlier t later split k reached
      rw [written]
      exact byteAt_stored_blocks held split reached
    · intro a outside
      rw [written, Memory.byteAt_withBlock held, if_neg (by rw [Transfer.length_stored]; omega)]
    · intro l us n' memory index advances' reads same
      exact reads.restores held (memory.trans written) index advances' short same

/-- Stores of one register and of two, up to the end of memory, and loads of them over cleared registers. Then the
    digits of 254. -/
theorem transfers_keep_blocks_up_to_the_end :
    let m := { holding [0xF0, 0x55, 0xF1, 0x55, 0xF0, 0x65, 0xF1, 0x65, 0xF0, 0x33, 0, 0, 0] with
      v := (Registers.zero.set 0 254).set 1 7, index := 10, dialect := { advanceIndex := true } }
    let second := { (m.cycle Keys.none 0).machine with v := (Registers.zero.set 0 5).set 1 6 }
    let n := (second.cycle Keys.none 0).machine
    let l := { n with v := .zero, index := 10 }
    let after := (l.cycle Keys.none 0).machine
    let d := { m with pc := 8 }
    m.Stored 0 (m.cycle Keys.none 0) ∧ l.Loaded 0 (l.cycle Keys.none 0) ∧ d.StoredDecimal 0 (d.cycle Keys.none 0) ∧
      n.memory.byteAt 11 = 5 ∧
      [(l.cycle Keys.none 0).machine.v.upTo 0, (after.cycle Keys.none 0).machine.v.upTo 1] = [[254], [5, 6]] := by
  intro m second n l after d
  have stores : Series .store m [⟨0, m, _⟩, ⟨1, second, _⟩] n :=
    .next 0 Keys.none 0 rfl rfl rfl ⟨by decide, by decide⟩
      (.next 1 Keys.none 0 rfl rfl rfl ⟨by decide, by decide⟩ (.stop n))
  have loads : Series .load l [⟨0, l, _⟩, ⟨1, after, _⟩] _ :=
    .next 0 Keys.none 0 rfl rfl rfl ⟨by decide, by decide⟩
      (.next 1 Keys.none 0 rfl rfl rfl ⟨by decide, by decide⟩ (.stop _))
  obtain ⟨store, -, -, series⟩ := transfers_keep_blocks m 0 Keys.none 0 (by decide)
  obtain ⟨-, load, -⟩ := transfers_keep_blocks l 0 Keys.none 0 (by decide)
  obtain ⟨-, -, digits, -⟩ := transfers_keep_blocks d 0 Keys.none 0 (by decide)
  obtain ⟨-, side, -, back⟩ := series _ n stores rfl (by decide) (by decide)
  obtain ⟨-, blocks⟩ := back l _ _ rfl rfl (by decide) loads rfl
  refine ⟨(store ⟨by decide, by decide⟩ (by decide)).1, load ⟨by decide, by decide⟩ (by decide),
    digits ⟨by decide, by decide⟩ (by decide), side [_] ⟨1, second, _⟩ [] rfl 0 (by decide), blocks.trans (by decide)⟩

end Machine

end Chip8
