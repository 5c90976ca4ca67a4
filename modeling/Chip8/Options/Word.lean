/-
  Chip8.Options.Word — the words of a command line, sorted.

  A word that begins with a dash is an option where one matches: the long name after two dashes, or
  as much of its beginning as no other option shares, or a letter after one dash. An equals sign
  parts the name from the rest of the word; behind a letter it can be missing. Where no option
  matches, a negative number and a word with a space in it are operands, and so are the single dash
  and every word that does not begin with one. The word of two dashes is a mark: all words after it
  are operands.
-/
import Chip8.Options.Name
import Chip8.Text.DecimalDigit

namespace Chip8.Options

inductive Word where
  | operand (text : List Char)
  /-- The word of two dashes. -/
  | mark
  /-- An option by its long name, and what its word holds besides. -/
  | long (name : OptionName) (rest : Option (List Char))
  /-- An option by its letter, and what its word holds besides. -/
  | letter (name : OptionName) (rest : Option (List Char))
  /-- A word that looks like an option and is none. -/
  | unknown
  deriving DecidableEq, Repr

namespace Word

def chomped (cs : List Char) : List Char := if cs.getLast? = some '\n' then cs.dropLast else cs

/-- Do these characters spell a number without a sign, with a point at most? -/
def isMagnitude (cs : List Char) : Bool :=
  let isDigit := Text.DecimalDigit.isDigit
  match cs.dropWhile isDigit with
  | [] => !cs.isEmpty
  | '.' :: fraction => !fraction.isEmpty && fraction.all isDigit
  | _ => false

/-- A word that no option matches, given what follows its first dash. -/
def unmatched (body : List Char) : Word :=
  if isMagnitude (chomped body) || body.contains ' ' then operand ('-' :: body) else unknown

def assigned : List Char → Option (List Char)
  | '=' :: value => some value
  | _ => none

/-- A word that begins with two dashes, given what follows them; `none` where several options match
    it. The name ends before the first equals sign. -/
def ofLong? (body : List Char) : Option Word :=
  let name := body.takeWhile (· != '=')
  let rest := assigned (body.dropWhile (· != '='))
  match OptionName.ofLong? name with
  | some n => some (long n rest)
  | none =>
    match OptionName.beginning name with
    | [] => some (unmatched ('-' :: body))
    | [n] => some (long n rest)
    | _ => none

def ofShort : List Char → Word
  | [] => operand ['-']
  | c :: rest =>
    match OptionName.ofLetter? c with
    | some n => letter n (if rest.isEmpty then none else some ((assigned rest).getD rest))
    | none => unmatched (c :: rest)

/-- Sorts one word; `none` where several options match it. -/
def classify? : List Char → Option Word
  | '-' :: '-' :: body => ofLong? body
  | '-' :: body => some (ofShort body)
  | text => some (operand text)

def classifyAll? : List (List Char) → Option (List Word)
  | [] => some []
  | ['-', '-'] :: rest => some (mark :: rest.map operand)
  | text :: rest => do
    let word ← classify? text
    let words ← classifyAll? rest
    return word :: words

end Word

end Chip8.Options
