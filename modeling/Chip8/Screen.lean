/-
  Chip8.Screen — the pixels of the machine.

  The plane holds one byte per pixel, row by row, 0 or 1. Programs draw by flipping single pixels;
  a flip tells whether the pixel was set. `dirty` is raised by whatever may change the picture and
  lowered when a frame is handed to the display.

  With wrapping, a pixel beyond an edge lands on the opposite side. Without it, a pixel right of or
  below the screen is dropped; a negative coordinate is not, and its place in the plane is worked out
  like any other.
-/
import Chip8.Memory
import Chip8.Display.Command
import Chip8.About

namespace Chip8

structure Screen where
  plane : Memory
  width : Int
  height : Int
  wrapping : Bool
  dirty : Bool
  deriving DecidableEq, Repr

namespace Screen

/-! ## Size -/

def unsized (wrapping : Bool) : Screen := ⟨⟨#[]⟩, 0, 0, wrapping, false⟩

/-- Gives the screen a new size with all pixels off, at a host with this room for a plane. A number of
    pixels that no plane can have is refused, but the width and height are the new ones even then. -/
def resize (s : Screen) (room : Nat) (width height : Int) : Screen × Except Fault Display.Command :=
  let sized := { s with width := width, height := height }
  match Memory.ofSize room (width * height) with
  | .error f => (sized, .error f)
  | .ok plane => ({ sized with plane := plane, dirty := true }, .ok (.resolution width height))

section

variable {room : Nat} {width height : Int}

theorem resize_of_fits (s : Screen) (fits : Size.Fits room (width * height)) :
    s.resize room width height =
      ({ s with width := width, height := height, plane := .zeros (width * height).toNat, dirty := true },
        .ok (.resolution width height)) := by
  rw [resize, Memory.ofSize_of_fits fits]

theorem resize_of_not_fits (s : Screen) (unfit : ¬Size.Fits room (width * height)) :
    ∃ e, s.resize room width height = ({ s with width := width, height := height }, .error (.badSize e)) := by
  obtain ⟨e, refused⟩ := Memory.ofSize_of_not_fits unfit
  exact ⟨e, by rw [resize, refused]⟩

end

def create (room : Nat) (width height : Int) (wrapping : Bool) : Except Fault (Screen × List Display.Command) :=
  match (unsized wrapping).resize room width height with
  | (_, .error f) => .error f
  | (s, .ok command) => .ok (s, [command, .title (About.title 0 0)])

def blank (width height : Nat) (wrapping : Bool) : Screen := ⟨.zeros (width * height), width, height, wrapping, true⟩

def greeting (width height : Nat) : List Display.Command := [.resolution width height, .title (About.title 0 0)]

theorem create_natCast {room : Nat} (width height : Nat) (wrapping : Bool)
    (fits : Size.Fits room ((width : Int) * height)) :
    create room width height wrapping = .ok (blank width height wrapping, greeting width height) := by
  rw [create, resize_of_fits _ fits, ← Int.natCast_mul, Int.toNat_natCast]
  rfl

def clear (s : Screen) : Screen := { s with plane := s.plane.cleared, dirty := true }

/-! ## Pixels -/

def position (s : Screen) (x y : Int) : Except Fault (Option Int) :=
  if s.wrapping then
    if s.width = 0 ∨ s.height = 0 then .error .divisionByZero
    else .ok (some (y.fmod s.height * s.width + x.fmod s.width))
  else if s.width ≤ x ∨ s.height ≤ y then .ok none
  else .ok (some (y * s.width + x))

/-- The position of a point and the pixel there, or `none` where the point is dropped. -/
def pixel? (s : Screen) (x y : Int) : Except Fault (Option (Int × UInt8)) := do
  match ← s.position x y with
  | none => return none
  | some p =>
    let pixel ← s.plane.read p
    return some (p, pixel)

def toggle (s : Screen) (p : Int) (pixel : UInt8) : Screen :=
  { s with plane := s.plane.stored p (pixel ^^^ 1), dirty := true }

/-- Flips the pixel at a point. The result is the pixel as it was, or `none` for a dropped point. -/
def flip (s : Screen) (x y : Int) : Except Fault (Screen × Option Bool) := do
  match ← s.pixel? x y with
  | none => return (s, none)
  | some (p, pixel) => return (s.toggle p pixel, some (pixel != 0))

def isSet (s : Screen) (x y : Int) : Except Fault Bool := do
  let pixel ← s.plane.read (y * s.width + x)
  return pixel != 0

/-- Flips points in order up to the first fault, and tells whether a set pixel was hit. -/
def flipAll (s : Screen) : List (Int × Int) → Screen × Bool × Option Fault
  | [] => (s, false, none)
  | (x, y) :: rest =>
    match s.pixel? x y with
    | .error f => (s, false, some f)
    | .ok none => flipAll s rest
    | .ok (some (p, pixel)) =>
      let (t, hit, fault) := flipAll (s.toggle p pixel) rest
      (t, hit || pixel != 0, fault)

/-! ## Frames -/

def frame (s : Screen) : Screen × Display.Command :=
  ({ s with dirty := false }, .frame s.plane.bytes s.dirty)

/-! ## Displays -/

inductive Failure (ε : Type) where
  | fault (f : Fault)
  | display (e : ε)
  deriving DecidableEq, Repr

structure Attached (δ : Type) where
  screen : Screen
  display : δ

/-- Tells the display, which may refuse. The screen is the new one, but if the display refuses, its mark
    is as it was. -/
def Attached.tell {δ ε : Type} (apply : δ → Display.Command → δ × Option ε) (v : Attached δ) (s : Screen)
    (command : Display.Command) : Attached δ × Option (Failure ε) :=
  match apply v.display command with
  | (d, none) => (⟨s, d⟩, none)
  | (d, some e) => (⟨{ s with dirty := v.screen.dirty }, d⟩, some (.display e))

end Screen

/-! ## Sprites -/

namespace Sprite

/-- The columns of a sprite row that are set: the highest bit is the leftmost column. -/
def columns (row : UInt8) : List Nat := (List.range 8).filter fun c => row.toNat.testBit (7 - c)

def points (x y : Int) (rows : List UInt8) : List (Int × Int) :=
  rows.zipIdx.flatMap fun (row, r) => (columns row).map fun (c : Nat) => (x + c, y + r)

end Sprite

end Chip8
