/-
  Chip8.Scheduler — several clocks of their own rates.

  A clock fires at a poll when at least one period has passed since it last fired, was registered or
  was rebased, whichever came last. Firing moves its reference to the moment of the poll, so a clock
  that is late fires once and not in a burst. Time is in whole microseconds; the comparison with the
  period is exact. It is made with the least whole number that is not below the period, which a
  clock works out once.
-/
import Chip8.Number

namespace Chip8

structure Clock (α : Type) where
  activity : α
  frequency : Number
  /-- Microseconds between two firings. -/
  period : Double
  /-- The least whole number of microseconds that is not below the period, of a finite period. -/
  wait : Option Int
  wait_eq : wait = period.ceil?
  /-- The moment from which the period counts. -/
  since : Int
  deriving DecidableEq, Repr

namespace Clock

variable {α : Type}

def microsecondsPerSecond : Nat := 1000000

/-- A second divided by a frequency above zero. -/
def periodOf : Number → Double
  | .whole n => Double.ofRatio microsecondsPerSecond n.toNat
  | .real x => (Double.ofInt microsecondsPerSecond).div x

/-- A clock that is registered now; only a frequency above zero makes one. -/
def create? (frequency : Number) (activity : α) (now : Int) : Option (Clock α) :=
  if frequency.isPositive then some ⟨activity, frequency, periodOf frequency, _, rfl, now⟩ else none

def refusal (activity : String) : String := "Clock frequency for '" ++ activity ++ "' must be above 0Hz"

def isDue (c : Clock α) (now : Int) : Bool :=
  match c.wait with
  | some wait => wait ≤ now - c.since
  | none => c.period.le (.finite (now - c.since) 0)

/-- A clock is due just if the time since its reference is at least its period. -/
theorem isDue_eq (c : Clock α) (now : Int) : c.isDue now = c.period.le (.finite (now - c.since) 0) := by
  unfold isDue
  split
  next wait h => rw [Double.le_whole (c.wait_eq.symm.trans h)]
  next => rfl

def rebase (c : Clock α) (now : Int) : Clock α := { c with since := now }

def polled (c : Clock α) (now : Int) : Clock α := if c.isDue now then c.rebase now else c

end Clock

abbrev Scheduler (α : Type) := List (Clock α)

namespace Scheduler

variable {α : Type}

def add? (s : Scheduler α) (frequency : Number) (activity : α) (now : Int) : Option (Scheduler α) :=
  (Clock.create? frequency activity now).map fun c => s ++ [c]

/-- The activities that are due, in the order of registration; all clocks see one moment. -/
def due (s : Scheduler α) (now : Int) : List α := (s.filter fun c => c.isDue now).map Clock.activity

def polled (s : Scheduler α) (now : Int) : Scheduler α := s.map fun c => c.polled now

def rebase (s : Scheduler α) (now : Int) : Scheduler α := s.map fun c => c.rebase now

end Scheduler

end Chip8
