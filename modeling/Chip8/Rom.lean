/-
  Chip8.Rom — programs as files.

  A program is the bytes of its file. One that is longer than the room for it is refused before any
  machine is built.
-/
import Chip8.Folder
import Chip8.Layout

namespace Chip8

inductive RomError where
  | unreadable (error : FileError)
  /-- No open file has the number that was given in place of a name. -/
  | notOpen
  | tooLong (length : Nat) (room : Int)
  deriving DecidableEq, Repr

namespace RomError

def message (name : Text.Wide) : RomError → String
  | unreadable e => "Unable to read ROM: " ++ e.message name
  | notOpen => "Unable to read ROM: [Errno 9] Bad file descriptor"
  | tooLong length room =>
    "ROM '" ++ Text.Quoted.plain name ++ "' is " ++ toString length ++ " bytes long, but only " ++ toString room
      ++ " bytes are available."

end RomError

inductive LoadError where
  | name (error : NameError)
  | rom (error : RomError)
  deriving DecidableEq, Repr

namespace Rom

def load (read : Text.Wide → Except ReadError (List UInt8)) (room : Int) (name : Text.Wide) :
    Except LoadError (List UInt8) :=
  match read name with
  | .error (.name e) => .error (.name e)
  | .error (.file e) => .error (.rom (.unreadable e))
  | .ok bytes => if room < bytes.length then .error (.rom (.tooLong bytes.length room)) else .ok bytes

end Rom

end Chip8
