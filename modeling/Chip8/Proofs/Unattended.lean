/-
  Chip8.Proofs.Unattended — runs in which nobody touches the keypad.

  Such a run is a sequence of turns that depends on nothing but its start (`Run.idle`). It is never
  paused, so it ends in two ways only: with as many instructions completed as were asked for, or at the
  first instruction that fails before that (`Quiet.go_of_sound`). What the sequence does behind the end of
  the loop plays no part: a failure there, still below the limit, means that the loop met one too, at
  this turn or before (`Quiet.halts`).
-/
import Chip8.Proofs.Moves
import Chip8.Proofs.Reachable

namespace Chip8

/-! ## Limits -/

def Limit.ofMost : Option Int → Limit
  | none => .never
  | some n => .after (.whole n)

theorem Limit.isReached_ofMost (most : Option Int) (cycles : Nat) :
    (Limit.ofMost most).isReached cycles = .ok (decide (∃ n ∈ most, n ≤ cycles)) := by
  cases most <;> simp [ofMost, isReached, Number.isAtMost]

namespace Emulator

/-! ## What lasts -/

theorem Move.steady {e f : Emulator} {calls : List HostCall} (move : Move e f calls) :
    f.limit = e.limit ∧ e.cycles ≤ f.cycles := by
  cases move with
  | complete keys chance _ => exact ⟨rfl, Nat.le_succ e.cycles⟩
  | _ => exact ⟨rfl, Nat.le_refl e.cycles⟩

/-- Moves keep the limit, and take no instruction back. -/
theorem Moves.steady {e f : Emulator} {calls : List HostCall} (moves : Moves e f calls) :
    f.limit = e.limit ∧ e.cycles ≤ f.cycles := by
  induction moves with
  | none => exact ⟨rfl, Nat.le_refl e.cycles⟩
  | snoc _ move ih => exact ⟨move.steady.1.trans ih.1, Nat.le_trans ih.2 move.steady.2⟩

/-- More fuel does not change a run that ended. -/
theorem go_more {fuel : Nat} {inputs : Tape Input} {r : Run} (ended : (Run.go fuel inputs r).2 ≠ .unfinished)
    (more : Nat) : Run.go (fuel + more) inputs r = Run.go fuel inputs r := by
  induction fuel generalizing inputs r with
  | zero => exact absurd rfl ended
  | succ fuel ih =>
    rw [Nat.add_right_comm]
    unfold Run.go at ended ⊢
    simp only at ended ⊢
    split at ended
    · rfl
    · split at ended
      · next final => rw [if_pos final, if_pos final]
      · next going => rw [if_neg going, if_neg going]; exact ih ended

/-! ## One turn -/

theorem fault_runMachine {e : Emulator} (running : e.paused = false) (due : List Activity) (keys : Keys)
    (random : Tape UInt8) :
    (e.runMachine due keys random).fault = if .cpu ∈ due then (e.machine.cycle keys random.head).fault else none := by
  have worked : (e.runCpu due keys random).fault =
      if .cpu ∈ due then (e.machine.cycle keys random.head).fault else none := by
    unfold runCpu
    split
    · simp only
      split
      · next faults => exact faults.symm
      · next done => exact done.symm
    · rfl
  unfold runMachine
  rw [running, if_neg Bool.false_ne_true, ← worked]
  simp only
  split
  · rfl
  · rfl

/-- What a turn comes to once its instruction, if any, is done. -/
theorem turnOn_unasked (e : Emulator) {input : Input} (unasked : input.event = none) (due : List Activity)
    (time : Tape Int) (random : Tape UInt8) {work : Work}
    (worked : work = runMachine { e with clocks := e.clocks.polled time.head } due input.keys random) :
    let t := e.turnOn due input time random
    let last := ((work.emulator.runDisplay due).1.runPerformance due).1
    (∀ f, work.fault = some f → t.halt = some (.crash f)) ∧
    (work.fault = none → t.emulator = last ∧ ∀ final, last.limit.isReached last.cycles = .ok final →
      t.halt = none ∧ t.final = final) := by
  simp only [turnOn, unasked, respond, reduceCtorEq, if_false, ← worked]
  constructor
  · intro f fails
    rw [fails]
  · intro done
    simp only [done]
    split
    · next final reached =>
      refine ⟨rfl, ?_⟩
      intro _ again
      rw [reached] at again
      cases again
      exact ⟨rfl, rfl⟩
    · next f refused =>
      refine ⟨rfl, ?_⟩
      intro _ again
      rw [refused] at again
      cases again

namespace Run

variable {r : Run} {most : Option Int}

def idleTurn (r : Run) : Turn := r.emulator.turn .idle r.time r.random

def idleStep (r : Run) : Run := r.after r.idleTurn

/-- The run after so many turns without a touch, even if it should have ended before. -/
def idle (r : Run) : Nat → Run
  | 0 => r
  | n + 1 => idle r.idleStep n

/-- The fault that the instruction of the next turn runs into, if one is due and fails. -/
def failure? (r : Run) : Option Fault :=
  if .cpu ∈ r.emulator.clocks.due r.time.head then (r.emulator.machine.cycle Keys.none r.random.head).fault else none

def Below (most : Option Int) (r : Run) : Prop := ∀ n ∈ most, (r.emulator.cycles : Int) < n

/-- Is the run not paused, with a readable limit, and the machine one that its program can reach? -/
structure Quiet (most : Option Int) (r : Run) : Prop where
  running : r.emulator.paused = false
  limit : r.emulator.limit = .ofMost most
  sound : r.emulator.Sound

theorem Quiet.step (q : r.Quiet most) : r.idleStep.Quiet most where
  running := (paused_turnOn r.emulator _ rfl r.time r.random).trans q.running
  limit := (r.emulator.turn_moves .idle r.time r.random).steady.1.trans q.limit
  sound := sound_turn q.sound .idle r.time r.random

/-- A turn halts just at the failure of its instruction, and is the last one just at the limit. -/
theorem Quiet.turn_cases (q : r.Quiet most) :
    (∃ f, r.failure? = some f ∧ r.idleTurn.halt = some (.crash f)) ∨
      (r.failure? = none ∧ r.idleTurn.halt = none ∧
        r.idleTurn.final = decide (∃ n ∈ most, n ≤ (r.idleStep.emulator.cycles : Int))) := by
  have limit := q.step.limit
  have unasked : Input.idle.event = none := rfl
  obtain ⟨fails, done⟩ := r.emulator.turnOn_unasked unasked (r.emulator.clocks.due r.time.head) r.time r.random rfl
  have polled := fault_runMachine (e := { r.emulator with clocks := r.emulator.clocks.polled r.time.head }) q.running
  rw [polled] at fails done
  change ∀ f, r.failure? = some f → r.idleTurn.halt = some (.crash f) at fails
  rcases failing : r.failure? with _ | f
  · obtain ⟨last, goes⟩ := done failing
    change r.idleStep.emulator = _ at last
    rw [← last, limit, Limit.isReached_ofMost] at goes
    exact .inr ⟨rfl, goes _ rfl⟩
  · exact .inl ⟨f, rfl, fails f failing⟩

/-! ## Runs -/

section

variable {inputs : Tape Input} {f : Fault}

theorem Quiet.go_of_failure (q : r.Quiet most) (untouched : inputs.head = .idle) (fails : r.failure? = some f)
    (fuel : Nat) : Run.go (fuel + 1) inputs r = (r.idleStep, .halted (.crash f)) := by
  rcases q.turn_cases with ⟨g, failing, halted⟩ | ⟨sound, -⟩
  · cases fails.symm.trans failing
    have halts : (r.emulator.turn .idle r.time r.random).halt = some (.crash f) := halted
    rw [Run.go, untouched]
    simp only [halts]
    rfl
  · cases fails.symm.trans sound

theorem Quiet.go_of_sound (q : r.Quiet most) (untouched : inputs.head = .idle) (sound : r.failure? = none)
    (fuel : Nat) : Run.go (fuel + 1) inputs r =
      if ∃ n ∈ most, n ≤ (r.idleStep.emulator.cycles : Int) then (r.idleStep.close, .finished)
      else Run.go fuel inputs.tail r.idleStep := by
  rcases q.turn_cases with ⟨f, failing, -⟩ | ⟨-, on, final⟩
  · cases sound.symm.trans failing
  · have goes : (r.emulator.turn .idle r.time r.random).halt = none := on
    have last : (r.emulator.turn .idle r.time r.random).final = true ↔
        ∃ n ∈ most, n ≤ (r.idleStep.emulator.cycles : Int) := by
      change r.idleTurn.final = true ↔ _
      rw [final, decide_eq_true_iff]
    rw [Run.go, untouched]
    simp only [goes, last]
    rfl

theorem Quiet.idle (q : r.Quiet most) (n : Nat) : (r.idle n).Quiet most := by
  induction n generalizing r with
  | zero => exact q
  | succ n ih => exact ih q.step

theorem cycles_le_idle (r : Run) (n : Nat) : r.emulator.cycles ≤ (r.idle n).emulator.cycles := by
  induction n generalizing r with
  | zero => exact Nat.le_refl _
  | succ n ih => exact Nat.le_trans (r.emulator.turn_moves .idle r.time r.random).steady.2 (ih r.idleStep)

/-- Below the limit later is below the limit now. -/
theorem Below.earlier {n : Nat} (below : (r.idle n).Below most) : r.Below most := by
  intro k mem
  have later := below k mem
  have sooner := r.cycles_le_idle n
  omega

theorem not_reached {s : Run} : (¬∃ n ∈ most, n ≤ (s.emulator.cycles : Int)) ↔ s.Below most := by
  simp only [Below, not_exists, not_and, Int.not_le]

/-- A failure below the limit halts the loop, at the latest when the loop gets there. -/
theorem Quiet.halts (q : r.Quiet most) (untouched : ∀ k, inputs.cell k = .idle) {n : Nat}
    (fails : (r.idle n).failure? = some f) (below : (r.idle n).Below most) :
    ∃ fuel g, (Run.go fuel inputs r).2 = .halted (.crash g) := by
  -- along the turns: one that fails earlier halts the loop, and any other leaves it below the limit
  induction n generalizing r inputs with
  | zero =>
    change r.failure? = some f at fails
    exact ⟨1, f, by rw [q.go_of_failure (untouched inputs.position) fails]⟩
  | succ n ih =>
    rcases failing : r.failure? with _ | g
    · have on : ¬∃ n ∈ most, n ≤ (r.idleStep.emulator.cycles : Int) := not_reached.mpr (Below.earlier (n := n) below)
      have rest : ∀ k, inputs.tail.cell k = .idle := untouched
      obtain ⟨fuel, g, halted⟩ := ih q.step rest fails below
      refine ⟨fuel + 1, g, ?_⟩
      rw [q.go_of_sound (untouched inputs.position) failing, if_neg on, halted]
    · exact ⟨1, g, by rw [q.go_of_failure (untouched inputs.position) failing]⟩

/-- The loop halts only at the failure of an instruction, and below the limit. -/
theorem Quiet.failure_of_halted (q : r.Quiet most) (untouched : ∀ k, inputs.cell k = .idle)
    (below : r.Below most) {fuel : Nat} {h : Halt} (halted : (Run.go fuel inputs r).2 = .halted h) :
    ∃ n f, h = .crash f ∧ (r.idle n).failure? = some f ∧ (r.idle n).Below most := by
  induction fuel generalizing r inputs with
  | zero => cases halted
  | succ fuel ih =>
    rcases failing : r.failure? with _ | f
    · rw [q.go_of_sound (untouched inputs.position) failing] at halted
      split at halted
      · cases halted
      · next on =>
        have rest : ∀ k, inputs.tail.cell k = .idle := untouched
        obtain ⟨n, f, crashed, fails, later⟩ := ih q.step rest (not_reached.mp on) halted
        exact ⟨n + 1, f, crashed, fails, later⟩
    · rw [q.go_of_failure (untouched inputs.position) failing] at halted
      cases halted
      exact ⟨0, f, rfl, failing, below⟩

end

/-- Whatever fails is a fault of the program, of which the user is told. -/
theorem Quiet.reported_of_failure {f : Fault} (q : r.Quiet most) (fails : r.failure? = some f) :
    f.isReported = true := by
  unfold failure? at fails
  split at fails
  · exact (q.sound.inRange.fault_of_cycle fails).reported
  · cases fails

end Run

def started (e : Emulator) (time : Tape Int) (random : Tape UInt8) : Run :=
  ⟨e.boot.1, time, random, e.boot.2.1.toArray, #[]⟩

theorem run_of_boots {e : Emulator} (boots : e.boot.2.2 = none) (fuel : Nat) (inputs : Tape Input) (time : Tape Int)
    (random : Tape UInt8) : e.run fuel inputs time random = Run.go fuel inputs (e.started time random) := by
  unfold run started
  rcases start : e.boot with ⟨after, calls, _ | f⟩
  · rfl
  · rw [start] at boots
    cases boots

end Emulator

end Chip8
