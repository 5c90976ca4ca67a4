/-
  Chip8.Size — sizes that a block of bytes can have.

  A size is any whole number as it is asked for. The host counts in signed words of 64 bits, so a
  number beyond them is refused before anything else is asked about it; then one below zero; then
  one beyond the host's room, which is the most bytes that it has for one block.
-/

namespace Chip8

inductive SizeError where
  | uncountable
  | negative
  | noRoom
  deriving DecidableEq, Repr

namespace SizeError

def message : SizeError → String
  | uncountable => "Size cannot be counted"
  | negative => "Size is below zero"
  | noRoom => "No room for so many bytes"

end SizeError

namespace Size

/-- Does the number fit a signed word of 64 bits? -/
def Countable (n : Int) : Prop := -0x8000000000000000 ≤ n ∧ n < 0x8000000000000000

instance (n : Int) : Decidable (Countable n) := inferInstanceAs (Decidable (_ ∧ _))

/-- Does the number fit a signed word of 32 bits? -/
def Short (n : Int) : Prop := -0x80000000 ≤ n ∧ n < 0x80000000

instance (n : Int) : Decidable (Short n) := inferInstanceAs (Decidable (_ ∧ _))

def Fits (room : Nat) (n : Int) : Prop := Countable n ∧ 0 ≤ n ∧ n ≤ room

instance (room : Nat) (n : Int) : Decidable (Fits room n) := inferInstanceAs (Decidable (_ ∧ _))

def ofBytes (room : Nat) (n : Int) : Except SizeError Nat :=
  if ¬Countable n then .error .uncountable
  else if n < 0 then .error .negative
  else if room < n then .error .noRoom
  else .ok n.toNat

/-- A block of so many copies of another one; fewer than none are none. -/
def ofCopies (room : Nat) (n : Int) (block : Nat) : Except SizeError Nat :=
  if ¬Countable n then .error .uncountable else ofBytes room (max n 0 * block)

variable {room : Nat} {n : Int}

theorem ofBytes_of_fits (fits : Fits room n) : ofBytes room n = .ok n.toNat := by
  obtain ⟨countable, low, high⟩ := fits
  simp [ofBytes, countable, show ¬n < 0 by omega, show ¬(room : Int) < n by omega]

theorem ofBytes_of_not_fits (unfit : ¬Fits room n) : ∃ e, ofBytes room n = .error e := by
  unfold ofBytes
  by_cases countable : Countable n
  · rw [if_neg (not_not_intro countable)]
    split
    · exact ⟨_, rfl⟩
    · next low =>
      have high : (room : Int) < n := Int.not_le.mp fun high => unfit ⟨countable, Int.not_lt.mp low, high⟩
      exact ⟨_, if_pos high⟩
  · exact ⟨_, if_pos countable⟩

end Size

end Chip8
