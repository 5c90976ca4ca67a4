/-
  Chip8.Memory — a bank of bytes in which every access is checked.

  An address is any whole number. An access to a range that is not empty and not wholly inside the
  bank is a fault, and a fault changes nothing. A range is checked at its two ends, the lower
  address first.
-/
import Chip8.Fault

namespace Chip8

structure Memory where
  bytes : Array UInt8
  deriving DecidableEq, Repr

namespace Memory

/-! ## Size and bounds -/

def size (m : Memory) : Int := m.bytes.size

def zeros (n : Nat) : Memory := ⟨Array.replicate n 0⟩

def ofSize (room : Nat) (n : Int) : Except Fault Memory := ((Size.ofBytes room n).mapError .badSize).map zeros

theorem ofSize_of_fits {room : Nat} {n : Int} (fits : Size.Fits room n) : ofSize room n = .ok (zeros n.toNat) := by
  rw [ofSize, Size.ofBytes_of_fits fits]
  rfl

theorem ofSize_of_not_fits {room : Nat} {n : Int} (unfit : ¬Size.Fits room n) :
    ∃ e, ofSize room n = .error (.badSize e) := by
  obtain ⟨e, refused⟩ := Size.ofBytes_of_not_fits unfit
  exact ⟨e, by rw [ofSize, refused]; rfl⟩

def InBank (m : Memory) (a : Int) : Prop := 0 ≤ a ∧ a < m.size

instance (m : Memory) (a : Int) : Decidable (m.InBank a) := inferInstanceAs (Decidable (_ ∧ _))

def check (m : Memory) (a : Int) : Except Fault Unit :=
  if m.InBank a then .ok () else .error (.outOfRange a)

/-- Checks the ends of the range of `n` addresses from `a`. -/
def checkRange (m : Memory) (a n : Int) : Except Fault Unit := do
  m.check a
  m.check (a + n - 1)

/-! ## Reading -/

/-- The byte at an address; zero outside the bank. -/
def byteAt (m : Memory) (a : Int) : UInt8 := if 0 ≤ a then m.bytes.getD a.toNat 0 else 0

def read (m : Memory) (a : Int) : Except Fault UInt8 := do
  m.check a
  return m.byteAt a

def readWord (m : Memory) (a : Int) : Except Fault Nat := do
  m.check a
  m.check (a + 1)
  return (m.byteAt a).toNat * 256 + (m.byteAt (a + 1)).toNat

/-- The `n` bytes from an address; no address is touched for none, and a range that ends before it
    starts is empty. -/
def readBlock (m : Memory) (a n : Int) : Except Fault (List UInt8) := do
  if n ≠ 0 then m.checkRange a n
  return (List.range n.toNat).map fun (k : Nat) => m.byteAt (a + k)

/-! ## Writing -/

def splice (bytes : Array UInt8) (start : Nat) : List UInt8 → Array UInt8
  | [] => bytes
  | b :: rest => splice (bytes.setIfInBounds start b) (start + 1) rest

@[simp] theorem size_splice (bytes : Array UInt8) (start : Nat) (block : List UInt8) :
    (splice bytes start block).size = bytes.size := by
  induction block generalizing bytes start with
  | nil => rfl
  | cons b rest ih => simp [splice, ih]

def stored (m : Memory) (a : Int) (b : UInt8) : Memory := { m with bytes := m.bytes.setIfInBounds a.toNat b }

/-- Stores a value; the address is checked before the value. -/
def write (m : Memory) (a b : Int) : Except Fault Memory := do
  m.check a
  if 0 ≤ b ∧ b < 256 then return m.stored a (UInt8.ofNat b.toNat)
  else .error .notByte

def writeBlock (m : Memory) (a : Int) (block : List UInt8) : Except Fault Memory :=
  match block with
  | [] => .ok m
  | _ => do
    m.checkRange a block.length
    return { m with bytes := splice m.bytes a.toNat block }

/-- Stores `n` zeros. The bounds are checked before the size. -/
def zeroBlock (m : Memory) (a n : Int) : Except Fault Memory :=
  if n = 0 then .ok m
  else do
    m.checkRange a n
    if n < 0 then .error (.badSize .negative)
    else return { m with bytes := splice m.bytes a.toNat (List.replicate n.toNat 0) }

def cleared (m : Memory) : Memory := ⟨Array.replicate m.bytes.size 0⟩

end Memory

end Chip8
