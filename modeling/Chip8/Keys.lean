/-
  Chip8.Keys — which of the sixteen keys are held.
-/

namespace Chip8

abbrev Keys := Vector Bool 16

namespace Keys

def none : Keys := Vector.replicate 16 false

def ofPred (p : Fin 16 → Bool) : Keys := Vector.ofFn p

/-- The keys of a list; numbers that name no key are left out. -/
def ofList (held : List Int) : Keys := ofPred fun k => held.contains (k.val : Int)

def held (keys : Keys) (k : Fin 16) : Bool := keys[k]

/-- The key that the low half of a byte names. -/
def ofByte (b : UInt8) : Fin 16 := ⟨b.toNat % 16, Nat.mod_lt b.toNat (by decide)⟩

def highest? (keys : Keys) : Option (Fin 16) := (List.finRange 16).reverse.find? keys.held

@[simp] theorem held_ofPred (p : Fin 16 → Bool) (k : Fin 16) : (ofPred p).held k = p k := by
  simp [held, ofPred]

end Keys

end Chip8
