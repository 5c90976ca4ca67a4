/-
  Chip8.Options — what the command line asks for.

  Words are read from left to right. An option that takes a value finds it in the rest of its word,
  or else in the next word, which has to be an operand. The letter of an option without a value can
  be followed by the letter of another option in the same word. The last value of an option counts;
  the mark in the place of a value stands for none at all, whatever the option allows. The first
  operand, with the mark before it or behind it, is the file name; a further one, or a word that is
  no option, is refused, but only once every word has been read, so that a request for help is heard
  first.
-/
import Chip8.Emulator
import Chip8.Frontend
import Chip8.Keypad.Keymap
import Chip8.Options.Word
import Chip8.Text.Numeral

namespace Chip8

/-- The value of an option: one that the option allows, or the mark in its place. -/
inductive OptionValue (α : Type) where
  | given (value : α)
  | mark
  deriving DecidableEq, Repr

/-- The settings of a session. A setting that is not given and has no default is `none`. -/
structure Options where
  filename : String
  clockSpeed : OptionValue Int := .given Activity.defaultClockSpeed
  renderer : Option (OptionValue String) := none
  scale : Option (OptionValue Int) := none
  mute : Option (OptionValue Int) := none
  keymap : OptionValue String := .given Keypad.Keymap.standard
  cursorMode : OptionValue Int := .given 0
  palette : Option (OptionValue String) := none
  shift : Option (OptionValue Int) := none
  load : Option (OptionValue Int) := none
  logic : Option (OptionValue Int) := none
  wrap : Option (OptionValue Int) := none
  maxCycles : Option (OptionValue Int) := none
  debug : Bool := false
  deriving DecidableEq, Repr

namespace Options

/-! ## Values -/

def number? (value : List Char) : Option Int := Text.Numeral.int? .ten value

def oneOf? (choices : List Int) (value : List Char) : Option Int :=
  (number? value).filter fun n => choices.contains n

def positive? (value : List Char) : Option Int := (number? value).filter fun n => 0 < n

def renderers : List String := [Frontend.windowChoice, Frontend.terminalChoice, Frontend.headlessChoice]

def text? (value : List Char) : Option String := some (String.ofList value)

def renderer? (value : List Char) : Option String := (text? value).filter fun r => renderers.contains r

def value? {α : Type} (read : List Char → Option α) (text : List Char) : Option (OptionValue α) :=
  if text = ['-', '-'] then some .mark else (read text).map .given

def set? (o : Options) (name : OptionName) (text : List Char) : Option Options :=
  match name with
  | .help | .debug => none
  | .clockSpeed => (value? positive? text).map fun v => { o with clockSpeed := v }
  | .renderer => (value? renderer? text).map fun v => { o with renderer := some v }
  | .scale => (value? number? text).map fun v => { o with scale := some v }
  | .mute => (value? (oneOf? [0, 1]) text).map fun v => { o with mute := some v }
  | .keymap => (value? text? text).map fun v => { o with keymap := v }
  | .cursorMode => (value? (oneOf? [0, 1, 2]) text).map fun v => { o with cursorMode := v }
  | .palette => (value? text? text).map fun v => { o with palette := some v }
  | .shift => (value? (oneOf? [0, 1]) text).map fun v => { o with shift := some v }
  | .load => (value? (oneOf? [0, 1]) text).map fun v => { o with load := some v }
  | .logic => (value? (oneOf? [0, 1]) text).map fun v => { o with logic := some v }
  | .wrap => (value? (oneOf? [0, 1]) text).map fun v => { o with wrap := some v }
  | .maxCycles => (value? positive? text).map fun v => { o with maxCycles := some v }

/-! ## Words of several options -/

inductive Tail where
  | plain
  /-- A value in the same word. -/
  | value (name : OptionName) (text : List Char)
  /-- The value is the next word. -/
  | pending (name : OptionName)
  deriving DecidableEq, Repr

/-- The options without a value that a word holds, in order, and how it ends. -/
structure Cluster where
  flags : List OptionName
  tail : Tail
  deriving DecidableEq, Repr

namespace Cluster

def alone (name : OptionName) : Cluster := if name.takesValue then ⟨[], .pending name⟩ else ⟨[name], .plain⟩

def valued? (name : OptionName) (text : List Char) : Option Cluster :=
  if name.takesValue then some ⟨[], .value name text⟩ else none

/-- A letter's option and the letters behind it; `none` where one of them is no option. -/
def expand? (name : OptionName) : List Char → Option Cluster
  | [] => some (alone name)
  | c :: more =>
    if name.takesValue then some ⟨[], .value name (c :: more)⟩
    else match OptionName.ofLetter? c with
      | none => none
      | some next => (expand? next more).map fun k => { k with flags := name :: k.flags }

def ofLetter? (name : OptionName) : Option (List Char) → Option Cluster
  | none => some (alone name)
  | some [] => valued? name []
  | some text => expand? name text

def ofLong? (name : OptionName) : Option (List Char) → Option Cluster
  | none => some (alone name)
  | some text => valued? name text

/-- Takes a word apart; `none` if it is no word of options, or one that cannot be used so. -/
def ofWord? : Word → Option Cluster
  | .letter name rest => ofLetter? name rest
  | .long name rest => ofLong? name rest
  | _ => none

end Cluster

/-! ## Reading -/

inductive Stop where
  | help
  | usage
  deriving DecidableEq, Repr

def Stop.status : Stop → Nat
  | help => 0
  | usage => 2

/-- The settings so far, whether the file name is among them, and whether a word was refused. -/
structure Progress where
  options : Options
  named : Bool
  refused : Bool
  deriving DecidableEq, Repr

namespace Progress

def start : Progress := ⟨{ filename := "" }, false, false⟩

def refuse (p : Progress) : Progress := { p with refused := true }

def name (p : Progress) (text : List Char) : Progress :=
  if p.named then p.refuse
  else { p with options := { p.options with filename := String.ofList text }, named := true }

def raise (p : Progress) : List OptionName → Except Stop Progress
  | [] => .ok p
  | .help :: _ => .error .help
  | _ :: rest => raise { p with options := { p.options with debug := true } } rest

def set (p : Progress) (name : OptionName) (value : List Char) : Except Stop Progress :=
  match p.options.set? name value with
  | some o => .ok { p with options := o }
  | none => .error .usage

/-- Reads words to the end or to the first stop. -/
def read (p : Progress) : List Word → Except Stop Progress
  | [] => .ok p
  | .operand text :: .mark :: rest => read (p.name text) rest
  | .operand text :: rest => read (p.name text) rest
  | .mark :: rest => read (if p.named then p.refuse else p) rest
  | .unknown :: rest => read p.refuse rest
  | word :: rest =>
    match Cluster.ofWord? word with
    | none => .error .usage
    | some cluster =>
      match cluster.tail, rest with
      | .plain, rest => do read (← p.raise cluster.flags) rest
      | .value name text, rest => do read (← (← p.raise cluster.flags).set name text) rest
      | .pending name, .operand text :: rest => do read (← (← p.raise cluster.flags).set name text) rest
      | .pending _, _ => .error .usage

end Progress

/-- Reads a command line, less the name of the program. -/
def parse (words : List String) : Except Stop Options :=
  match Word.classifyAll? (words.map String.toList) with
  | none => .error .usage
  | some sorted => do
    let p ← Progress.start.read sorted
    if p.named && !p.refused then .ok p.options else .error .usage

end Options

end Chip8
