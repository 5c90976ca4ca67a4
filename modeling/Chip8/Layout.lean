/-
  Chip8.Layout — the fixed places and sizes of the machine.

  Memory holds the glyphs of the sixteen hexadecimal digits from 0x050 and the program from 0x200.
-/

namespace Chip8.Layout

def memorySize : Nat := 0x1000

def fontStart : Nat := 0x50

def programStart : Nat := 0x200

def programRoom : Nat := memorySize - programStart

def stackDepth : Nat := 16

def screenWidth : Nat := 64

def screenHeight : Nat := 32

def glyphSize : Nat := 5

/-- The glyphs of the digits 0 to F, four pixels wide and five high. -/
def font : List UInt8 :=
  [0xF0, 0x90, 0x90, 0x90, 0xF0,  -- 0
   0x20, 0x60, 0x20, 0x20, 0x70,  -- 1
   0xF0, 0x10, 0xF0, 0x80, 0xF0,  -- 2
   0xF0, 0x10, 0xF0, 0x10, 0xF0,  -- 3
   0x90, 0x90, 0xF0, 0x10, 0x10,  -- 4
   0xF0, 0x80, 0xF0, 0x10, 0xF0,  -- 5
   0xF0, 0x80, 0xF0, 0x90, 0xF0,  -- 6
   0xF0, 0x10, 0x20, 0x40, 0x40,  -- 7
   0xF0, 0x90, 0xF0, 0x90, 0xF0,  -- 8
   0xF0, 0x90, 0xF0, 0x10, 0xF0,  -- 9
   0xF0, 0x90, 0xF0, 0x90, 0x90,  -- A
   0xE0, 0x90, 0xE0, 0x90, 0xE0,  -- B
   0xF0, 0x80, 0x80, 0x80, 0xF0,  -- C
   0xE0, 0x90, 0x90, 0x90, 0xE0,  -- D
   0xF0, 0x80, 0xF0, 0x80, 0xF0,  -- E
   0xF0, 0x80, 0xF0, 0x80, 0x80]  -- F

theorem font_length : font.length = 16 * glyphSize := rfl

end Chip8.Layout
