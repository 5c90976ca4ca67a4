/-
  Chip8.Buzzer — what makes the sound.

  A terminal beeps when the buzzer goes on. A mixer plays a sample in a loop from the moment the
  buzzer goes on until it goes off. Switching it to what it is already does nothing.
-/
import Chip8.Buzzer.Wave

namespace Chip8

inductive SoundCall where
  | beep
  /-- Settles rate, bits, channels and buffer; the last number says what the device may change. -/
  | configure (rate bits channels buffer changes : Nat)
  | start
  /-- Loads a wave that is repeated so many times. -/
  | sample (wave : Buzzer.Wave) (times : Nat)
  /-- The volume, in percent. -/
  | volume (percent : Nat)
  /-- Plays the sample; -1 repeats it for ever. -/
  | play (loops : Int)
  | stop
  | quit
  deriving DecidableEq, Repr

inductive BuzzerKind where
  | silent
  | bell
  | mixer
  deriving DecidableEq, Repr

structure Buzzer where
  kind : BuzzerKind
  on : Bool
  deriving DecidableEq, Repr

namespace Buzzer

def rate : Nat := 44100

def defaultTone : Number := .whole 440

def repeats : Nat := 100

def prepared (wave : Wave) : List SoundCall :=
  [.configure rate 8 1 512 0, .start, .sample wave repeats, .volume 10]

/-- A buzzer that is off. Only a mixer's tone can be refused. -/
def create (room : Nat) (kind : BuzzerKind) (tone : Number) : Except WaveError (Buzzer × List SoundCall) :=
  match kind with
  | .mixer => (Wave.ofTone room tone (.whole rate)).map fun wave => (⟨kind, false⟩, prepared wave)
  | _ => .ok (⟨kind, false⟩, [])

def waveBytes : Nat := 400

def standard : BuzzerKind → Buzzer × List SoundCall
  | .mixer => (⟨.mixer, false⟩, prepared (.ofLength 100))
  | kind => (⟨kind, false⟩, [])

/-- With room for its wave, the default tone is not refused. -/
theorem create_default {room : Nat} (ample : waveBytes ≤ room) (kind : BuzzerKind) :
    create room kind defaultTone = .ok (standard kind) := by
  have cycle : Number.quotient (.whole rate) defaultTone = .ok 100 := by with_unfolding_all rfl
  have enough : ¬(room : Int) < (Wave.sampleBytes : Int) * (max 2 100 / 2) := by
    have needed : 400 ≤ room := ample
    have bytes : (Wave.sampleBytes : Int) * (max 2 100 / 2) = 400 := by decide
    omega
  cases kind with
  | mixer =>
    have counted : Size.Countable (max 2 100 / 2) := by decide
    have checked : Wave.checkLength room (max 2 100) = .ok () := by
      rw [Wave.checkLength, if_neg (not_not_intro counted), if_neg enough]
    rw [create, Wave.ofTone_of_checkLength cycle checked]
    rfl
  | silent | bell => rfl

def enable (b : Buzzer) (on : Bool) : Buzzer × List SoundCall :=
  let calls : List SoundCall :=
    if b.on = on then []
    else match b.kind, on with
      | .silent, _ => []
      | .bell, true => [.beep]
      | .bell, false => []
      | .mixer, true => [.play (-1)]
      | .mixer, false => [.stop]
  ({ b with on := on }, calls)

def shutdown (b : Buzzer) : List SoundCall :=
  match b.kind with
  | .mixer => [.stop, .quit]
  | _ => []

end Buzzer

end Chip8
