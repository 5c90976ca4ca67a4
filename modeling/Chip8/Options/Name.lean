/-
  Chip8.Options.Name — the options of the command line.

  Every option has a long name, and some have a letter. An option takes one value, but for help and
  debug, which take none.
-/

namespace Chip8

inductive OptionName where
  | help
  | clockSpeed
  | renderer
  | scale
  | mute
  | keymap
  | cursorMode
  | palette
  | shift
  | load
  | logic
  | wrap
  | maxCycles
  | debug
  deriving DecidableEq, Repr

namespace OptionName

def all : List OptionName :=
  [help, clockSpeed, renderer, scale, mute, keymap, cursorMode, palette, shift, load, logic, wrap, maxCycles, debug]

theorem mem_all (n : OptionName) : n ∈ all := by cases n <;> decide

def long : OptionName → String
  | help => "help"
  | clockSpeed => "clock_speed"
  | renderer => "renderer"
  | scale => "scale"
  | mute => "mute"
  | keymap => "keymap"
  | cursorMode => "curses_cursor_mode"
  | palette => "pygame_palette"
  | shift => "shift_quirks"
  | load => "load_quirks"
  | logic => "logic_quirks"
  | wrap => "screen_wrap_quirks"
  | maxCycles => "max_cycles"
  | debug => "debug"

def letter? : OptionName → Option Char
  | help => some 'h'
  | clockSpeed => some 'c'
  | renderer => some 'r'
  | scale => some 's'
  | mute => some 'm'
  | keymap => some 'k'
  | debug => some 'd'
  | cursorMode | palette | shift | load | logic | wrap | maxCycles => none

def takesValue : OptionName → Bool
  | help | debug => false
  | _ => true

def ofLong? (name : List Char) : Option OptionName := all.find? fun n => n.long.toList == name

def ofLetter? (c : Char) : Option OptionName := all.find? fun n => n.letter? == some c

def beginning (text : List Char) : List OptionName := all.filter fun n => text.isPrefixOf n.long.toList

end OptionName

end Chip8
