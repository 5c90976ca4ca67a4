/-
  Chip8.Machine.Cycle — fetch, decode, execute.

  One cycle runs one instruction. The program counter moves on after the fetch, so a fault in the
  fetch leaves it and any later fault finds it behind the instruction. A traced machine describes
  every word that is an instruction, in the state before its effect.
-/
import Chip8.Instruction.Decode
import Chip8.Instruction.Mnemonic
import Chip8.Machine.Execute
import Chip8.Machine.Report

namespace Chip8

structure Cycle where
  machine : Machine
  fault : Option Fault
  /-- Was the random byte used? -/
  drew : Bool
  /-- The trace line, of a traced machine. -/
  line : Option String
  deriving DecidableEq, Repr

namespace Machine

def fetched (m : Machine) (word : Nat) : Machine :=
  { m with origin := m.pc, opcode := word, pc := m.pc + 2 }

def traceLine? (m : Machine) (i : Instruction) : Option String :=
  if m.traced then some (m.stateLine (i.mnemonic m.dialect.shiftInPlace)) else none

def perform (m : Machine) (keys : Keys) (chance : UInt8) (i : Instruction) : Cycle :=
  let line := m.traceLine? i
  let effect := m.execute keys chance i
  ⟨effect.machine, effect.fault, i.drawsChance, line⟩

/-- Runs one instruction with the keys that are held and the random byte that it may use. -/
def cycle (m : Machine) (keys : Keys) (chance : UInt8) : Cycle :=
  match m.fetch with
  | .error f => ⟨{ m with origin := m.pc, opcode := 0 }, some f, false, none⟩
  | .ok word =>
    match Instruction.decode? word with
    | none => ⟨m.fetched word, some (.notInstruction word m.pc), false, none⟩
    | some i => (m.fetched word).perform keys chance i

end Machine

end Chip8
