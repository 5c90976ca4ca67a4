/-
  Chip8.About — how the program names itself.
-/

namespace Chip8.About

def name : String := "ChocChip-8 Emulator"

def version : String := "1.0.0"

def notice : String :=
  "Copyright (C) 2024 Gregory Maynard-Hoare, licensed under GNU Affero General Public License v3.0"

def intro : String := name ++ " V" ++ version ++ " -- "

def banner : String := intro ++ notice

def title (fps ops : Int) : String :=
  name ++ " - " ++ toString fps ++ " FPS, " ++ toString ops ++ " OPS"

end Chip8.About
