/-
  Chip8.Folder — files in one folder, and what a path finds there.

  A path is walked name by name from the folder. The empty name and `.` stay where they are, `..`
  leaves the folder, and a path that begins with a slash starts outside it. Nothing is known by name
  outside the folder, the folder holds no other folder, and every name in it is a text. Nothing lies
  below a file, so even a slash after a file's name is refused when the file is read. A file is
  written under the last name of a path; where a slash follows, the path is taken for one of a folder.
-/
import Chip8.Text.Fields
import Chip8.Text.Quoted

namespace Chip8

/-- Why the system cannot open or read a file: the number of the cause, and what it is called. -/
structure FileError where
  number : Nat
  text : String
  deriving DecidableEq, Repr

namespace FileError

def notFound : FileError := ⟨2, "No such file or directory"⟩

def denied : FileError := ⟨13, "Permission denied"⟩

def notDirectory : FileError := ⟨20, "Not a directory"⟩

def isDirectory : FileError := ⟨21, "Is a directory"⟩

def nameTooLong : FileError := ⟨36, "File name too long"⟩

def message (path : Text.Wide) (e : FileError) : String :=
  "[Errno " ++ toString e.number ++ "] " ++ e.text ++ ": " ++ Text.Quoted.quote path

end FileError

/-- Why a name stands for no path. The system is not asked for the file then. -/
inductive NameError where
  /-- A path cannot hold the character NUL. -/
  | nul
  /-- A point of the name has no bytes. -/
  | unencodable
  deriving DecidableEq, Repr

inductive ReadError where
  | file (error : FileError)
  | name (error : NameError)
  deriving DecidableEq, Repr

structure Folder where
  files : List (String × List UInt8)
  deriving DecidableEq, Repr

namespace Folder

def empty : Folder := ⟨[]⟩

def file? (f : Folder) (name : String) : Option (List UInt8) := (f.files.find? fun p => p.1 == name).map (·.2)

def put (f : Folder) (name : String) (bytes : List UInt8) : Folder :=
  ⟨(name, bytes) :: f.files.filter fun p => p.1 != name⟩

/-! ## Paths -/

inductive Place where
  | here
  | outside
  | file (bytes : List UInt8)
  deriving DecidableEq, Repr

def maxName : Nat := 255

def maxPath : Nat := 4096

def step (f : Folder) (place : Place) (name : String) : Except FileError Place :=
  match place with
  | .file _ => .error .notDirectory
  | _ =>
    if name = "" ∨ name = "." then .ok place
    else if name = ".." then .ok .outside
    else if maxName < name.utf8ByteSize then .error .nameTooLong
    else match place, f.file? name with
      | .here, some bytes => .ok (.file bytes)
      | _, _ => .error .notFound

def names (path : String) : List String := (Text.fields '/' path.toList).map String.ofList

/-- The path that a name stands for. The bytes of a name may spell a text where its points do not. -/
def path? (name : Text.Wide) : Except ReadError String := do
  let path ← match name.text? with
    | some path => .ok path
    | none =>
      match name.bytes? with
      | none => .error (.name .unencodable)
      | some bytes =>
        match String.fromUTF8? (ByteArray.mk bytes.toArray) with
        | some path => .ok path
        | none => .error (.file .notFound)
  if path.toList.contains (Char.ofNat 0) then .error (.name .nul) else .ok path

def check (path : String) : Except FileError Unit :=
  if path = "" then .error .notFound
  else if maxPath ≤ path.utf8ByteSize then .error .nameTooLong
  else .ok ()

def start (path : String) : Place := if path.startsWith "/" then .outside else .here

def find (f : Folder) (path : String) : Except FileError (List UInt8) := do
  check path
  match ← (names path).foldlM f.step (start path) with
  | .file bytes => return bytes
  | _ => .error .isDirectory

def read (f : Folder) (name : Text.Wide) : Except ReadError (List UInt8) := do
  (f.find (← path? name)).mapError .file

/-- The folder with a file written at a path. A file outside the folder leaves it as it is. -/
def write (f : Folder) (path : String) (bytes : List UInt8) : Except FileError Folder := do
  check path
  let steps := (names path).filter (· != "")
  match steps.getLast? with
  | none => .error .isDirectory
  | some name =>
    match ← steps.dropLast.foldlM f.step (start path) with
    | .file _ => .error .notDirectory
    | place =>
      if name = "." ∨ name = ".." ∨ path.endsWith "/" then .error .isDirectory
      else if maxName < name.utf8ByteSize then .error .nameTooLong
      else return if place = .here then f.put name bytes else f

end Folder

end Chip8
