/-
  Chip8.CallStack — the return addresses of the calls in progress.

  The stack is apart from memory, so no store can reach a return address. A push onto a full stack
  and a pop from an empty one are faults, and a fault changes nothing.
-/
import Chip8.Fault

namespace Chip8

/-- The return addresses, the latest first, and how many there may be. -/
structure CallStack where
  addresses : List Int
  limit : Int
  deriving DecidableEq, Repr

namespace CallStack

def empty (limit : Int) : CallStack := ⟨[], limit⟩

def depth (s : CallStack) : Nat := s.addresses.length

/-- The return addresses, the earliest first. -/
def toList (s : CallStack) : List Int := s.addresses.reverse

def ofList (limit : Int) (items : List Int) : CallStack := ⟨items.reverse, limit⟩

def push (s : CallStack) (address : Int) : Except Fault CallStack :=
  if (s.depth : Int) < s.limit then .ok { s with addresses := address :: s.addresses }
  else .error (.stackOverflow s.limit)

def pop (s : CallStack) : Except Fault (Int × CallStack) :=
  match s.addresses with
  | [] => .error .stackUnderflow
  | a :: rest => .ok (a, { s with addresses := rest })

def clear (s : CallStack) : CallStack := { s with addresses := [] }

end CallStack

end Chip8
