/-
  Chip8.Options.Help — the options in words.
-/
import Chip8.Options.Name

namespace Chip8.Options

def purpose : OptionName → String
  | .help => "show this help and exit"
  | .clockSpeed => "instructions per second (default 1000)"
  | .renderer => "display, keypad and sound: pygame, curses or null"
  | .scale => "width of a window, or columns of a pixel in a terminal"
  | .mute => "0 = heard, 1 = silent"
  | .keymap => "sixteen key codes, separated by commas"
  | .cursorMode => "visibility of a terminal's cursor: 0, 1 or 2"
  | .palette => "background and foreground of a window, such as 000000,33FF66"
  | .shift => "1 = shifts work on one register, 0 = on two"
  | .load => "1 = loads and stores move the index, 0 = they leave it"
  | .logic => "1 = logic clears the flag register, 0 = it leaves it"
  | .wrap => "1 = sprites wrap around the edges, 0 = they are cut off"
  | .maxCycles => "quit after so many instructions"
  | .debug => "trace every instruction"

def spellings (n : OptionName) : String :=
  match n.letter? with
  | some c => "-" ++ c.toString ++ ", --" ++ n.long
  | none => "--" ++ n.long

def usage : String := "usage: chip8 [options] filename"

def helpLines : List String :=
  usage :: OptionName.all.map fun n => "  " ++ spellings n ++ ": " ++ purpose n

end Chip8.Options
