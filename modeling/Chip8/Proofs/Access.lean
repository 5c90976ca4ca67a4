/-
  Chip8.Proofs.Access — what a checked access to memory answers.

  A bank is only ever checked at the two ends of a range. For a range that is not empty this is the
  same as asking whether the bank holds all of it, and a fault names the first end that is outside.
-/
import Chip8.Memory

namespace Chip8.Memory

/-! ## Ranges -/

/-- Does the bank hold the `n` addresses from `a`? -/
def Holds (m : Memory) (a n : Int) : Prop := 0 ≤ a ∧ a + n ≤ m.size

instance (m : Memory) (a n : Int) : Decidable (m.Holds a n) := inferInstanceAs (Decidable (_ ∧ _))

/-- The address that is named when the bank does not hold a range: its lower end, if this is outside,
    else its upper one. -/
def outside (m : Memory) (a n : Int) : Int := if m.InBank a then a + n - 1 else a

theorem check_eq_ok {m : Memory} {a : Int} (h : m.InBank a) : m.check a = .ok () := if_pos h

theorem check_eq_error {m : Memory} {a : Int} (h : ¬m.InBank a) : m.check a = .error (.outOfRange a) := if_neg h

/-- Two checks in a row are a check of the range between them. -/
theorem check_ends {m : Memory} {a n : Int} (some : 1 ≤ n) :
    (do m.check a; m.check (a + n - 1)) =
      if m.Holds a n then .ok () else (.error (.outOfRange (m.outside a n)) : Except Fault Unit) := by
  by_cases low : m.InBank a
  · rw [check_eq_ok low, outside, if_pos low]
    by_cases high : m.InBank (a + n - 1)
    · have held : m.Holds a n := ⟨low.1, by have := high.2; omega⟩
      rw [if_pos held]
      exact check_eq_ok high
    · have lost : ¬m.Holds a n := fun held => high ⟨by have := low.1; omega, by have := held.2; omega⟩
      rw [if_neg lost]
      exact check_eq_error high
  · have lost : ¬m.Holds a n := fun held => low ⟨held.1, by have := held.2; omega⟩
    rw [check_eq_error low, outside, if_neg low, if_neg lost]
    rfl

theorem checkRange_eq {m : Memory} {a n : Int} (some : 1 ≤ n) :
    m.checkRange a n = if m.Holds a n then .ok () else .error (.outOfRange (m.outside a n)) :=
  check_ends some

/-! ## Reading -/

def wordAt (m : Memory) (a : Int) : Nat := (m.byteAt a).toNat * 256 + (m.byteAt (a + 1)).toNat

def blockAt (m : Memory) (a : Int) (n : Nat) : List UInt8 := (List.range n).map fun (k : Nat) => m.byteAt (a + k)

theorem wordAt_lt (m : Memory) (a : Int) : m.wordAt a < 0x10000 := by
  have high := (m.byteAt a).toNat_lt
  have low := (m.byteAt (a + 1)).toNat_lt
  simp only [wordAt]
  omega

theorem read_eq (m : Memory) (a : Int) :
    m.read a = if m.InBank a then .ok (m.byteAt a) else .error (.outOfRange a) := by
  unfold read check
  split <;> rfl

theorem readWord_eq (m : Memory) (a : Int) :
    m.readWord a = if m.Holds a 2 then .ok (m.wordAt a) else .error (.outOfRange (m.outside a 2)) := by
  have ends : m.readWord a = ((do m.check a; m.check (a + 2 - 1)) >>= fun _ => .ok (m.wordAt a)) := by
    rw [show a + 2 - 1 = a + 1 by omega, bind_assoc]
    rfl
  rw [ends, check_ends (by decide)]
  split <;> rfl

theorem readBlock_eq {m : Memory} {a : Int} {n : Nat} (some : 1 ≤ n) :
    m.readBlock a n = if m.Holds a n then .ok (m.blockAt a n) else .error (.outOfRange (m.outside a n)) := by
  have nonzero : (n : Int) ≠ 0 := by omega
  have range : m.readBlock a n = (m.checkRange a n >>= fun _ => .ok (m.blockAt a n)) := by
    simp only [readBlock, ne_eq, nonzero, not_false_eq_true, if_true]
    rfl
  rw [range, checkRange_eq (by omega)]
  split <;> rfl

theorem length_of_readBlock {m : Memory} {a : Int} {n : Nat} {block : List UInt8}
    (read : m.readBlock a n = .ok block) : block.length = n := by
  rcases Nat.eq_zero_or_pos n with rfl | some
  · cases read
    rfl
  · rw [readBlock_eq some] at read
    split at read <;> cases read
    simp [blockAt]

theorem fault_of_readBlock {m : Memory} {a : Int} {n : Nat} {f : Fault} (faults : m.readBlock a n = .error f) :
    ∃ b, f = .outOfRange b := by
  rcases Nat.eq_zero_or_pos n with rfl | some
  · cases faults
  · rw [readBlock_eq some] at faults
    split at faults <;> cases faults
    exact ⟨_, rfl⟩

/-! ## Writing -/

def withBlock (m : Memory) (a : Int) (block : List UInt8) : Memory := { m with bytes := splice m.bytes a.toNat block }

@[simp] theorem size_withBlock (m : Memory) (a : Int) (block : List UInt8) : (m.withBlock a block).size = m.size := by
  simp [size, withBlock]

theorem writeBlock_eq {m : Memory} {a : Int} {block : List UInt8} (some : block ≠ []) :
    m.writeBlock a block =
      if m.Holds a block.length then .ok (m.withBlock a block)
      else .error (.outOfRange (m.outside a block.length)) := by
  cases block with
  | nil => exact absurd rfl some
  | cons b rest =>
    have range : m.writeBlock a (b :: rest) =
        (m.checkRange a (b :: rest).length >>= fun _ => .ok (m.withBlock a (b :: rest))) := rfl
    rw [range, checkRange_eq (by simp only [List.length_cons]; omega)]
    split <;> rfl

theorem size_of_writeBlock {m bank : Memory} {a : Int} {block : List UInt8}
    (written : m.writeBlock a block = .ok bank) : bank.size = m.size := by
  by_cases some : block = []
  · subst some
    cases written
    rfl
  · rw [writeBlock_eq some] at written
    split at written <;> cases written
    exact size_withBlock m a block

theorem fault_of_writeBlock {m : Memory} {a : Int} {block : List UInt8} {f : Fault}
    (faults : m.writeBlock a block = .error f) : ∃ b, f = .outOfRange b := by
  by_cases some : block = []
  · subst some
    cases faults
  · rw [writeBlock_eq some] at faults
    split at faults <;> cases faults
    exact ⟨_, rfl⟩

theorem byteAt_stored {m : Memory} {a : Int} (inside : m.InBank a) (b : UInt8) (c : Int) :
    (m.stored a b).byteAt c = if c = a then b else m.byteAt c := by
  obtain ⟨low, high⟩ := inside
  have place : a.toNat < m.bytes.size := by simp only [size] at high; omega
  unfold byteAt stored
  by_cases same : c = a
  · simp [same, low, place]
  · rw [if_neg same]
    split
    · have apart : a.toNat ≠ c.toNat := by omega
      simp [apart]
    · rfl

theorem getD_splice {bytes : Array UInt8} {start : Nat} {block : List UInt8}
    (fits : start + block.length ≤ bytes.size) (k : Nat) :
    (splice bytes start block).getD k 0 =
      if start ≤ k ∧ k < start + block.length then block.getD (k - start) 0 else bytes.getD k 0 := by
  induction block generalizing bytes start with
  | nil =>
    have none : ¬(start ≤ k ∧ k < start + ([] : List UInt8).length) := by simp only [List.length_nil]; omega
    rw [splice, if_neg none]
  | cons b rest ih =>
    simp only [List.length_cons] at fits ⊢
    rw [splice, ih (by simp only [Array.size_setIfInBounds]; omega)]
    by_cases here : k = start
    · subst here
      have room : k < bytes.size := by omega
      rw [if_neg (by omega), if_pos (by omega), Nat.sub_self]
      simp [room]
    · have apart : start ≠ k := fun same => here same.symm
      by_cases inside : start ≤ k ∧ k < start + (rest.length + 1)
      · have place : k - start = k - (start + 1) + 1 := by omega
        rw [if_pos (by omega), if_pos inside, place, List.getD_cons_succ]
      · rw [if_neg (by omega), if_neg inside]
        simp [apart]

/-- A block is where it was stored, and the rest of the bank is as it was. -/
theorem byteAt_withBlock {m : Memory} {a : Int} {block : List UInt8} (held : m.Holds a block.length) (c : Int) :
    (m.withBlock a block).byteAt c =
      if a ≤ c ∧ c < a + block.length then block.getD (c - a).toNat 0 else m.byteAt c := by
  obtain ⟨low, high⟩ := held
  have fits : a.toNat + block.length ≤ m.bytes.size := by simp only [size] at high; omega
  unfold byteAt withBlock
  by_cases known : 0 ≤ c
  · have same : (a ≤ c ∧ c < a + block.length) ↔ a.toNat ≤ c.toNat ∧ c.toNat < a.toNat + block.length := by omega
    rw [if_pos known, if_pos known, getD_splice fits]
    simp only [same, show (c - a).toNat = c.toNat - a.toNat by omega]
  · rw [if_neg known, if_neg known, if_neg (by omega)]

theorem writeBlock_of_holds {m : Memory} {a : Int} {block : List UInt8} (held : m.Holds a block.length) :
    m.writeBlock a block = .ok (m.withBlock a block) := by
  by_cases some : block = []
  · subst some
    rfl
  · rw [writeBlock_eq some, if_pos held]

theorem byteAt_of_writeBlock {m bank : Memory} {a : Int} {block : List UInt8}
    (written : m.writeBlock a block = .ok bank) (c : Int) :
    bank.byteAt c = if a ≤ c ∧ c < a + block.length then block.getD (c - a).toNat 0 else m.byteAt c := by
  by_cases some : block = []
  · subst some
    cases written
    rw [if_neg (by simp only [List.length_nil]; omega)]
  · rw [writeBlock_eq some] at written
    split at written <;> cases written
    next held => exact byteAt_withBlock held c

theorem getElem?_bytes {m : Memory} {n : Nat} (inside : n < m.bytes.size) : m.bytes.toList[n]? = some (m.byteAt n) := by
  simp [byteAt, Array.getD_eq_getD_getElem?, inside]

/-- A bank is known by its size and its bytes. -/
theorem eq_of_byteAt {m n : Memory} (size : m.bytes.size = n.bytes.size)
    (same : ∀ k : Nat, k < m.bytes.size → m.byteAt k = n.byteAt k) : m = n := by
  have lists : m.bytes.toList = n.bytes.toList := by
    refine List.ext_getElem? fun k => ?_
    by_cases inside : k < m.bytes.size
    · rw [getElem?_bytes inside, getElem?_bytes (size ▸ inside), same k inside]
    · rw [List.getElem?_eq_none (by simp; omega), List.getElem?_eq_none (by simp; omega)]
  exact congrArg Memory.mk (Array.toList_inj.mp lists)

theorem byteAt_zeros (n : Nat) (a : Int) : (zeros n).byteAt a = 0 := by
  unfold byteAt zeros Array.getD
  split
  · split
    · simp
    · rfl
  · rfl

@[simp] theorem size_cleared (m : Memory) : m.cleared.size = m.size := by
  simp [size, cleared]

@[simp] theorem size_zeros (n : Nat) : (zeros n).size = n := by
  simp [size, zeros]

end Chip8.Memory
