/-
  Chip8.Display.Window — the screen in a graphical window.

  The picture is a row-major list of colours, three bytes each, rebuilt for each frame in which
  something changed and stretched over the window. The window is to be twice as wide as it is high;
  which columns and rows it gets is up to the host. The sides of a picture have to fit signed words
  of 32 bits.
-/
import Chip8.About
import Chip8.Display.Command
import Chip8.Display.Host
import Chip8.Display.Palette

namespace Chip8.Display

structure Picture where
  width : Nat
  height : Nat
  rgb : Array UInt8
  deriving DecidableEq, Repr

structure Window where
  /-- The width that was asked for. -/
  scale : Int
  /-- The columns and rows of the window. -/
  surface : Int × Int
  palette : Palette
  width : Int
  height : Int
  frames : Nat
  caption : String
  rgb : Array UInt8
  shown : Option Picture
  deriving DecidableEq, Repr

inductive WindowError where
  | palette (error : PaletteError)
  /-- The host does not open a window of the size. -/
  | mode (error : ModeError)
  /-- A side of a picture of more than 32 bits. -/
  | outOfRange
  /-- A picture that the host cannot hold. -/
  | badPicture (error : SizeError)
  /-- A title cannot hold the character NUL. -/
  | nulInTitle
  /-- A pixel that is neither off nor on. -/
  | noColour
  /-- The number of pixels does not make up the screen. -/
  | sizeMismatch
  deriving DecidableEq, Repr

namespace Window

def defaultScale : Int := 640

def firstCaption : String := About.name

/-- The columns and rows that a window is to have. Pictures are stretched to these. -/
def size (scale : Int) : Int × Int := (scale, scale.fdiv 2)

/-- Opens a window. Its size is settled before its colours. -/
def create (host : Host) (scale : Option Int) (palette : Option String) : Except WindowError Window := do
  let scale := scale.getD defaultScale
  let surface ← (host.mode (size scale)).mapError .mode
  let colours ← match palette with
    | none => .ok Palette.default
    | some text => (Palette.parse text.toList).mapError .palette
  return ⟨scale, surface, colours, 0, 0, 0, firstCaption, #[], none⟩

def resized (host : Host) (w : Window) (width height : Int) : Except WindowError Window := do
  let background := w.palette.background.toList
  let bytes ← (Size.ofCopies host.room (width * height) background.length).mapError .badPicture
  return { w with
    width := width, height := height
    rgb := ((List.replicate (bytes / background.length) background).flatten).toArray }

def colours? (w : Window) (pixels : List UInt8) : Option (Array UInt8) :=
  (pixels.mapM w.palette.colourOf?).map fun cs => (cs.flatMap Colour.toList).toArray

def draw (w : Window) (pixels : List UInt8) : Window × Option WindowError :=
  match w.colours? pixels with
  | none => (w, some .noColour)
  | some rgb =>
    let w := { w with rgb := rgb }
    if ¬(Size.Short w.width ∧ Size.Short w.height) then (w, some .outOfRange)
    else if 0 < w.width ∧ 0 < w.height ∧ (rgb.size : Int) = 3 * w.width * w.height then
      ({ w with shown := some ⟨w.width.toNat, w.height.toNat, rgb⟩ }, none)
    else (w, some .sizeMismatch)

/-- Carries out a command; a frame that fails is not counted. -/
def apply (host : Host) (w : Window) : Command → Window × Option WindowError
  | .resolution width height =>
    match w.resized host width height with
    | .ok w => (w, none)
    | .error e => (w, some e)
  | .title text =>
    if text.toList.contains (Char.ofNat 0) then (w, some .nulInTitle) else ({ w with caption := text }, none)
  | .frame pixels dirty =>
    let (w, error) := if dirty && w.width != 0 && w.height != 0 then w.draw pixels.toList else (w, none)
    match error with
    | some e => (w, some e)
    | none => ({ w with frames := w.frames + 1 }, none)

end Window

end Chip8.Display
