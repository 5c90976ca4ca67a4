/-
  Chip8.Machine.Report — the machine in words.

  A state line shows the registers from VF down to V0, the index, the timers, the address and word
  of the instruction in progress, and that instruction. A crash report adds the call stack, the
  earliest address first, and the reason.
-/
import Chip8.About
import Chip8.Machine

namespace Chip8.Machine

open Text

def stateLine (m : Machine) (instruction : String) : String :=
  "V: 0x" ++ Hex.bytes m.v.toList.reverse ++ " I: 0x" ++ Hex.padded 4 m.index
    ++ " DT: 0x" ++ Hex.padded 2 m.delay ++ " ST: 0x" ++ Hex.padded 2 m.sound
    ++ " PC: 0x" ++ Hex.padded 3 m.origin ++ " OP: 0x" ++ Hex.padded 4 m.opcode
    ++ " IN: " ++ instruction

def stackLine (m : Machine) : String :=
  match m.stack.toList with
  | [] => "Stack: (Empty)"
  | addresses => "Stack:" ++ String.join (addresses.map fun a => " 0x" ++ Hex.padded 3 a)

def fullState (m : Machine) (instruction : String) : String :=
  m.stateLine instruction ++ "\n" ++ m.stackLine

def crashReport (m : Machine) (instruction reason : String) : String :=
  "Emulation halted.\n\n" ++ About.intro ++ "Debug info:\n" ++ m.fullState instruction ++ "\n\n" ++ reason

def faultReport (m : Machine) (f : Fault) : String := m.crashReport "???" f.message

end Chip8.Machine
