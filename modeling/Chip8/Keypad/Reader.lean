/-
  Chip8.Keypad.Reader — the reader of a terminal's characters.

  Beside the main loop a reader waits for characters and puts them into a queue of limited length.
  A character that finds the queue full is lost, except one that asks to quit: that one waits for
  its place, and the reader ends with it. The reader also ends before its next character once it is
  told to.
-/
import Chip8.Keypad.Keymap

namespace Chip8.Keypad

/-- A queue of limited length, the earliest item first. -/
structure Mailbox (α : Type) where
  items : Array α
  capacity : Nat
  deriving DecidableEq, Repr

namespace Mailbox

variable {α : Type}

def empty (capacity : Nat) : Mailbox α := ⟨#[], capacity⟩

def isFull (b : Mailbox α) : Bool := b.capacity ≤ b.items.size

def push (b : Mailbox α) (a : α) : Mailbox α := { b with items := b.items.push a }

def offer (b : Mailbox α) (a : α) : Mailbox α × Bool := if b.isFull then (b, false) else (b.push a, true)

end Mailbox

/-- How long the queues of a terminal are: of characters, and of the request to end. -/
def queueLength : Nat := 16

def endingLength : Nat := 1

namespace Reader

/-- A code on its way into the queue; a waiting one is never dropped. -/
structure Put where
  code : Int
  waits : Bool
  deriving DecidableEq, Repr

/-- What a character becomes. Negative results are no characters. -/
def put? (character : Int) : Option Put :=
  if character < 0 then none
  else
    let code := Text.Latin.lower character
    some ⟨code, Controls.characters.event? code == some .quit⟩

def read (queue : Mailbox Put) : List Int → Mailbox Put × List Int
  | [] => (queue, [])
  | c :: rest =>
    match put? c with
    | none => read queue rest
    | some p => if p.waits then (queue.push p, rest) else read (queue.offer p).1 rest

def run (ending : Bool) (queue : Mailbox Put) (characters : List Int) : Mailbox Put × List Int :=
  if ending then (queue, characters) else read queue characters

end Reader

end Chip8.Keypad
