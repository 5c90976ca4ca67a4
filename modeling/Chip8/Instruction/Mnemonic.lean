/-
  Chip8.Instruction.Mnemonic — instructions in words.

  The text of an instruction in a trace line. In the dialect that shifts a register in place the
  second register of a shift has no effect and is not shown.
-/
import Chip8.Instruction
import Chip8.Text.Hex

namespace Chip8.Instruction

def registerName (x : Register) : String := "V" ++ Text.Hex.padded 1 x.val

def byteText (kk : UInt8) : String := "0x" ++ Text.Hex.padded 2 kk.toNat

def addressText (nnn : Address) : String := "0x" ++ Text.Hex.padded 3 nnn.val

def operation (name : String) (operands : List String) : String :=
  name ++ " " ++ String.intercalate ", " operands

/-- The text of an instruction; `inPlace` tells whether shifts leave out their second register. -/
def mnemonic (inPlace : Bool) : Instruction → String
  | clearScreen => "CLS"
  | ret => "RET"
  | jump nnn => operation "JP" [addressText nnn]
  | call nnn => operation "CALL" [addressText nnn]
  | skipEqByte x kk => operation "SE" [registerName x, byteText kk]
  | skipNeByte x kk => operation "SNE" [registerName x, byteText kk]
  | skipEq x y => operation "SE" [registerName x, registerName y]
  | setByte x kk => operation "LD" [registerName x, byteText kk]
  | addByte x kk => operation "ADD" [registerName x, byteText kk]
  | copy x y => operation "LD" [registerName x, registerName y]
  | or x y => operation "OR" [registerName x, registerName y]
  | and x y => operation "AND" [registerName x, registerName y]
  | xor x y => operation "XOR" [registerName x, registerName y]
  | add x y => operation "ADD" [registerName x, registerName y]
  | sub x y => operation "SUB" [registerName x, registerName y]
  | shiftRight x y => operation "SHR" (if inPlace then [registerName x] else [registerName x, registerName y])
  | subFrom x y => operation "SUBN" [registerName x, registerName y]
  | shiftLeft x y => operation "SHL" (if inPlace then [registerName x] else [registerName x, registerName y])
  | skipNe x y => operation "SNE" [registerName x, registerName y]
  | setIndex nnn => operation "LD" ["I", addressText nnn]
  | jumpOffset nnn => operation "JP" ["V0", addressText nnn]
  | random x kk => operation "RND" [registerName x, byteText kk]
  | draw x y n => operation "DRW" [registerName x, registerName y, "0x" ++ Text.Hex.padded 1 n.val]
  | skipHeld x => operation "SKP" [registerName x]
  | skipFree x => operation "SKNP" [registerName x]
  | readDelay x => operation "LD" [registerName x, "DT"]
  | awaitKey x => operation "LD" [registerName x, "K"]
  | setDelay x => operation "LD" ["DT", registerName x]
  | setSound x => operation "LD" ["ST", registerName x]
  | addIndex x => operation "ADD" ["I", registerName x]
  | setGlyph x => operation "LD" ["F", registerName x]
  | storeDecimal x => operation "LD" ["B", registerName x]
  | store x => operation "LD" ["[I]", registerName x]
  | load x => operation "LD" [registerName x, "[I]"]

end Chip8.Instruction
