/-
  Chip8.Tape — an endless sequence that is read one item at a time.

  Time samples, random bytes and host input reach the emulator as tapes: whatever the host does, a
  run sees nothing of it but the items it reads.
-/

namespace Chip8

structure Tape (α : Type) where
  cell : Nat → α
  position : Nat

namespace Tape

variable {α : Type}

def ofFn (cell : Nat → α) : Tape α := ⟨cell, 0⟩

/-- The items of a list, and then one item for ever. -/
def ofList (items : List α) (after : α) : Tape α :=
  let stored := items.toArray
  ofFn fun k => stored.getD k after

def head (t : Tape α) : α := t.cell t.position

def tail (t : Tape α) : Tape α := { t with position := t.position + 1 }

def drop (t : Tape α) (n : Nat) : Tape α := { t with position := t.position + n }

@[simp] theorem head_drop (t : Tape α) (n : Nat) : (t.drop n).head = t.cell (t.position + n) := rfl

end Tape

end Chip8
