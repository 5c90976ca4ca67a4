/-
  Chip8.Proofs.Frames — the display has the pixels of the screen, unless the screen is marked as changed.

  A display may refuse what it is told, and then the turn or the action breaks off there (`Stage.perform`). A
  size is taken in steps, and a display that refuses it is told after the plane is replaced and before the screen
  is marked. So the mark is down over pixels that no frame had, just if a size was refused.

  Whatever else may change a pixel marks the screen (`Screen.Kept`), and only a frame that is taken takes the mark
  away. So while the mark is down, the plane is what is left of the last frame: its pixels, or the blank plane of
  the size that was refused last (`Display.left`), and nothing but titles and refused sizes followed it. The same
  holds of the last frame that was marked, which is what is to be seen on a display that redraws only marked
  frames. Both hold after every thing that an emulator does and after every action on the screen from outside,
  faults and refusals included (`History.faithful`). On a display that refuses nothing, a turn and a run are those
  of the emulator (`Stage.run_of_willing`).
-/
import Chip8.Display.Terminal
import Chip8.Proofs.Changes
import Chip8.Proofs.Journal

namespace Chip8

/-! ## What a display hears -/

namespace Display

/-- What a display is told, and what it is not told of. -/
inductive Event where
  | taken (command : Command)
  | refused (command : Command)
  /-- The screen has no room for a size. -/
  | noRoom (width height : Int)
  deriving DecidableEq

namespace Event

def frame? : Event → Option (Array UInt8)
  | taken (.frame pixels _) | refused (.frame pixels _) => some pixels
  | _ => none

def drawn? : Event → Option (Array UInt8)
  | taken (.frame pixels true) => some pixels
  | _ => none

def IsResize (e : Event) : Prop := ∃ width height, e = taken (.resolution width height)

end Event

/-- What is on a display that draws a frame only if it is marked as changed. What a new size does to the
    picture is up to the display. -/
def seen (resized : Array UInt8 → Int → Int → Array UInt8) (first : Array UInt8) (log : List Event) : Array UInt8 :=
  log.foldl (fun shown event => match event with
    | .taken (.resolution width height) => resized shown width height
    | .taken (.frame pixels true) => pixels
    | _ => shown) first

/-- What a screen still has of its pixels: a size that the display refuses has blanked them. -/
def left (pixels : Array UInt8) (log : List Event) : Array UInt8 :=
  log.foldl (fun pixels event => match event with
    | .refused (.resolution width height) => (Memory.zeros (width * height).toNat).bytes
    | _ => pixels) pixels

def obeyed {δ ε : Type} (apply : δ → Command → δ × Option ε) (d : δ) : List Command → Option δ
  | [] => some d
  | command :: rest => match apply d command with
    | (d, none) => obeyed apply d rest
    | (_, some _) => none

/-- Are these the pixels that are left of the last event that gives some, with no new size taken since? -/
def Since (gives : Event → Option (Array UInt8)) (pixels : Array UInt8) (log : List Event) : Prop :=
  ∃ before event given after, log = before ++ event :: after ∧ gives event = some given ∧
    (∀ e ∈ after, gives e = none ∧ ¬e.IsResize) ∧ pixels = left given after

section

variable {gives : Event → Option (Array UInt8)} {pixels : Array UInt8} {log : List Event} {event : Event}

theorem left_of_willing (willing : ∀ w h, .refused (.resolution w h) ∉ log) : left pixels log = pixels := by
  induction log with
  | nil => rfl
  | cons event rest ih =>
    rw [left, List.foldl_cons]
    split
    · exact absurd List.mem_cons_self (willing _ _)
    · exact ih fun w h mem => willing w h (List.mem_cons_of_mem _ mem)

theorem Since.last (log : List Event) (given : gives event = some pixels) : Since gives pixels (log ++ [event]) :=
  ⟨log, event, pixels, [], rfl, given, nofun, rfl⟩

theorem Since.snoc (since : Since gives pixels log) (other : gives event = none) (same : ¬event.IsResize) :
    Since gives (left pixels [event]) (log ++ [event]) := by
  obtain ⟨before, first, given, after, rfl, gave, others, rfl⟩ := since
  refine ⟨before, first, given, after ++ [event], by simp, gave, ?_, ?_⟩
  · intro e mem
    rcases List.mem_append.mp mem with old | new
    · exact others e old
    · rw [List.mem_singleton.mp new]
      exact ⟨other, same⟩
  · simp [left]

/-- A display that draws only marked frames has the pixels of the last one. -/
theorem seen_of_drawn {before after : List Event} {given : Array UInt8} (drawn : event.drawn? = some given)
    (others : ∀ e ∈ after, e.drawn? = none ∧ ¬e.IsResize) (resized : Array UInt8 → Int → Int → Array UInt8)
    (first : Array UInt8) : seen resized first (before ++ event :: after) = given := by
  rw [seen, List.foldl_append, List.foldl_cons]
  unfold Event.drawn? at drawn
  split at drawn
  · cases drawn
    simp only
    induction after with
    | nil => rfl
    | cons e rest ih =>
      obtain ⟨⟨none, same⟩, later⟩ := List.forall_mem_cons.mp others
      rw [List.foldl_cons]
      split
      · exact absurd ⟨_, _, rfl⟩ same
      · cases none
      · exact ih later
  · cases drawn

end

end Display

namespace Screen

open Display (Event Since)

variable {s t : Screen} {log : List Event}

/-- Unless a screen is marked, is it what is left of the last frame, and of the last one that was drawn? -/
structure Faithful (s : Screen) (log : List Event) : Prop where
  last : s.dirty = false → Since Event.frame? s.plane.bytes log
  drawn : s.dirty = false → Since Event.drawn? s.plane.bytes log

namespace Faithful

theorem of_dirty (dirty : s.dirty = true) (log : List Event) : s.Faithful log where
  last clean := by rw [dirty] at clean; cases clean
  drawn clean := by rw [dirty] at clean; cases clean

theorem kept (f : s.Faithful log) (kept : Kept s t) : t.Faithful log := by
  rcases kept with dirty | ⟨plane, mark⟩
  · exact of_dirty dirty log
  · constructor
    · rw [plane, mark]; exact f.last
    · rw [plane, mark]; exact f.drawn

/-- An event that is no frame and no new size. -/
theorem snoc (f : s.Faithful log) {event : Event} (mark : t.dirty = s.dirty)
    (plane : t.plane.bytes = Display.left s.plane.bytes [event]) (other : event.frame? = none)
    (undrawn : event.drawn? = none) (same : ¬event.IsResize) : t.Faithful (log ++ [event]) where
  last clean := plane ▸ (f.last (mark ▸ clean)).snoc other same
  drawn clean := plane ▸ (f.drawn (mark ▸ clean)).snoc undrawn same

/-- A frame that is taken takes the mark away. -/
theorem framed (f : s.Faithful log) : s.frame.1.Faithful (log ++ [.taken s.frame.2]) where
  last _ := .last log rfl
  drawn _ := by
    by_cases dirty : s.dirty = true
    · exact .last log (by rw [frame, dirty]; rfl)
    · rw [Bool.not_eq_true] at dirty
      exact (f.drawn dirty).snoc (by rw [frame, dirty]; rfl) nofun

/-- A frame that is refused leaves it. -/
theorem unframed (f : s.Faithful log) : s.Faithful (log ++ [.refused s.frame.2]) where
  last _ := .last log rfl
  drawn clean := (f.drawn clean).snoc rfl nofun

end Faithful

theorem kept_flip {x y : Int} {hit : Option Bool} (flipped : s.flip x y = .ok (t, hit)) : Kept s t := by
  unfold flip at flipped
  rcases read : s.pixel? x y with f | _ | ⟨p, old⟩
  · rw [read] at flipped; cases flipped
  · rw [read] at flipped
    cases flipped
    exact .refl s
  · rw [read] at flipped
    cases flipped
    exact .inl rfl

end Screen

namespace Emulator

open Display (Command Event)

def withMachine (e : Emulator) (m : Machine) : Emulator := { e with machine := m }

def withScreen (e : Emulator) (s : Screen) : Emulator := e.withMachine { e.machine with screen := s }

/-- An emulator and its display, with what the display heard so far. -/
structure Stage (δ : Type) where
  emulator : Emulator
  display : δ
  log : List Event

namespace Stage

variable {δ ε : Type} (room : Nat) (apply : δ → Command → δ × Option ε)

/-- Tells the display something of a new screen. Does it take it? -/
def tell (s : Stage δ) (screen : Screen) (command : Command) : Stage δ × Bool :=
  match Screen.Attached.tell apply ⟨s.emulator.machine.screen, s.display⟩ screen command with
  | (v, none) => (⟨s.emulator.withScreen v.screen, v.display, s.log ++ [.taken command]⟩, true)
  | (v, some _) => (⟨s.emulator.withScreen v.screen, v.display, s.log ++ [.refused command]⟩, false)

def withEmulator (s : Stage δ) (e : Emulator) : Stage δ := { s with emulator := e }

/-- An entry of a journal, with a display that may refuse. Is it done to the end? -/
def perform (s : Stage δ) : Entry → Stage δ × Bool
  | .render =>
    let (screen, command) := s.emulator.machine.screen.frame
    s.tell apply screen command
  | .report =>
    let title := About.title s.emulator.frames s.emulator.instructions
    match s.tell apply s.emulator.machine.screen (.title title) with
    | (s, true) => (s.withEmulator { s.emulator with frames := 0, instructions := 0 }, true)
    | (s, false) => (s, false)
  | entry => (s.withEmulator (entry.redo s.emulator).1, true)

def performAll (s : Stage δ) : List Entry → Stage δ × Bool
  | [] => (s, true)
  | entry :: rest =>
    match s.perform apply entry with
    | (s, true) => performAll s rest
    | (s, false) => (s, false)

def turn (s : Stage δ) (input : Input) (time : Tape Int) (random : Tape UInt8) : Stage δ × Bool :=
  s.performAll apply (s.emulator.turnEntries (s.emulator.dueIn input time) input time random)

/-- Takes turns until one is the last, but at most `fuel` of them. Is it the last, and the last frame taken? -/
def go : Nat → Tape Input → Tape Int → Tape UInt8 → Stage δ → Stage δ × Bool
  | 0, _, _, _, s => (s, false)
  | fuel + 1, inputs, time, random, s =>
    let t := s.emulator.turn inputs.head time random
    match s.turn apply inputs.head time random with
    | (s, false) => (s, false)
    | (s, true) =>
      if t.halt.isSome then (s, false)
      else if t.final then s.performAll apply Run.closing
      else go fuel inputs.tail t.time t.random s

def run (fuel : Nat) (s : Stage δ) (inputs : Tape Input) (time : Tape Int) (random : Tape UInt8) : Stage δ × Bool :=
  let booted := s.withEmulator s.emulator.boot.1
  if s.emulator.boot.2.2.isSome then (booted, false) else go apply fuel inputs time random booted

def resize (s : Stage δ) (width height : Int) : Stage δ :=
  match s.emulator.machine.screen.resize room width height with
  | (screen, .error _) => ⟨s.emulator.withScreen screen, s.display, s.log ++ [.noRoom width height]⟩
  | (screen, .ok command) => (s.tell apply screen command).1

end Stage

/-! ## Displays that refuse nothing -/

def told (calls : List HostCall) : List Command := calls.filterMap fun call => match call with
  | .display command => some command
  | _ => none

theorem told_append (calls more : List HostCall) : told (calls ++ more) = told calls ++ told more :=
  List.filterMap_append

theorem told_setBuzzer (e : Emulator) (on : Bool) : told (e.setBuzzer on).2 = [] := by
  unfold setBuzzer
  split <;> rfl

theorem told_boot (e : Emulator) : told e.boot.2.1 = [] := by
  unfold boot
  rcases bootMachine e.machine e.rom with ⟨m, _ | f⟩
  · exact told_setBuzzer { e with machine := m } false
  · rfl

/-- An entry that is no frame and no report says nothing to the display. -/
theorem told_redo (e : Emulator) {entry : Entry} (frame : entry ≠ .render) (report : entry ≠ .report) :
    told (entry.redo e).2 = [] := by
  cases entry with
  | render => exact absurd rfl frame
  | report => exact absurd rfl report
  | boot => exact e.told_boot
  | toggle now =>
    simp only [Entry.redo]
    split
    · rfl
    · exact told_setBuzzer _ _
  | tick keys chance =>
    simp only [Entry.redo]
    split <;> rfl
  | sound | silence => exact told_setBuzzer _ _
  | _ => rfl

namespace Stage

variable {δ ε : Type} {apply : δ → Command → δ × Option ε}

theorem perform_of_other (s : Stage δ) {entry : Entry} (frame : entry ≠ .render) (report : entry ≠ .report) :
    s.perform apply entry = (s.withEmulator (entry.redo s.emulator).1, true) := by
  cases entry with
  | render => exact absurd rfl frame
  | report => exact absurd rfl report
  | _ => rfl

section

variable (willing : ∀ d command, (apply d command).2 = none)
include willing

theorem tell_of_willing (s : Stage δ) (screen : Screen) (command : Command) :
    ∃ d, s.tell apply screen command = (⟨s.emulator.withScreen screen, d, s.log ++ [.taken command]⟩, true) := by
  have takes := willing s.display command
  refine ⟨(apply s.display command).1, ?_⟩
  unfold tell Screen.Attached.tell
  rcases told : apply s.display command with ⟨d, _ | e⟩
  · rfl
  · rw [told] at takes
    cases takes

theorem perform_of_willing (s : Stage δ) (entry : Entry) :
    ∃ d, s.perform apply entry =
      (⟨(entry.redo s.emulator).1, d, s.log ++ (told (entry.redo s.emulator).2).map .taken⟩, true) := by
  by_cases frame : entry = .render
  · subst frame
    exact tell_of_willing willing s _ _
  by_cases report : entry = .report
  · subst report
    obtain ⟨d, taken⟩ := tell_of_willing willing s s.emulator.machine.screen
      (.title (About.title s.emulator.frames s.emulator.instructions))
    refine ⟨d, ?_⟩
    simp only [perform, taken]
    rfl
  · refine ⟨s.display, ?_⟩
    rw [perform_of_other s frame report, told_redo s.emulator frame report, List.map_nil, List.append_nil]
    rfl

theorem performAll_of_willing (s : Stage δ) (entries : List Entry) :
    ∃ d, s.performAll apply entries =
      (⟨(s.emulator.replay entries).1, d, s.log ++ (told (s.emulator.replay entries).2).map .taken⟩, true) := by
  induction entries generalizing s with
  | nil => exact ⟨s.display, by simp [performAll, replay, told]⟩
  | cons entry rest ih =>
    obtain ⟨d, first⟩ := perform_of_willing willing s entry
    obtain ⟨d', later⟩ := ih ⟨(entry.redo s.emulator).1, d, s.log ++ (told (entry.redo s.emulator).2).map .taken⟩
    refine ⟨d', ?_⟩
    simp only [performAll, first, later, replay, told_append, List.map_append, List.append_assoc]

def Follows (s : Stage δ) (before : List Event) (r : Run) : Prop :=
  s.emulator = r.emulator ∧ s.log = before ++ (told r.calls.toList).map .taken

theorem follows_performAll {s : Stage δ} {before : List Event} {r : Run} (follows : s.Follows before r) (r' : Run)
    {entries : List Entry} {calls : List HostCall} (redone : r.emulator.replay entries = (r'.emulator, calls))
    (logged : r'.calls.toList = r.calls.toList ++ calls) :
    (s.performAll apply entries).2 = true ∧ (s.performAll apply entries).1.Follows before r' := by
  obtain ⟨d, all⟩ := performAll_of_willing willing s entries
  rw [all, follows.1, redone, follows.2]
  refine ⟨rfl, rfl, ?_⟩
  rw [logged, told_append, List.map_append, List.append_assoc]

theorem follows_go (fuel : Nat) (inputs : Tape Input) {s : Stage δ} {before : List Event} {r : Run}
    (follows : s.Follows before r) :
    (go apply fuel inputs r.time r.random s).1.Follows before (Run.go fuel inputs r).1 ∧
      ((go apply fuel inputs r.time r.random s).2 = true ↔ (Run.go fuel inputs r).2 = .finished) := by
  induction fuel generalizing inputs s r with
  | zero => exact ⟨follows, (fun last => by cases last), fun last => by cases last⟩
  | succ fuel ih =>
    have redone := r.emulator.replay_turn (r.emulator.dueIn inputs.head r.time) inputs.head r.time r.random
    rw [← turn_eq] at redone
    have turned := follows_performAll willing follows (r.after (r.emulator.turn inputs.head r.time r.random))
      redone (by simp [Run.after])
    unfold go Run.go turn
    rw [follows.1]
    rcases all : s.performAll apply
        (r.emulator.turnEntries (r.emulator.dueIn inputs.head r.time) inputs.head r.time r.random) with ⟨later, _ | _⟩
    all_goals rw [all] at turned
    · cases turned.1
    · have same : later.Follows before _ := turned.2
      simp only
      cases r.emulator.turn inputs.head r.time r.random |>.halt with
      | some h => exact ⟨same, (fun last => by cases last), fun last => by cases last⟩
      | none =>
        cases (r.emulator.turn inputs.head r.time r.random).final with
        | true =>
          have closed := Run.replay_closing (r.after (r.emulator.turn inputs.head r.time r.random))
          have ended := follows_performAll willing same _ (Prod.ext closed.1 rfl) closed.2
          exact ⟨ended.2, fun _ => rfl, fun _ => ended.1⟩
        | false => exact ih inputs.tail same

/-- On a display that refuses nothing, a run is that of the emulator. -/
theorem run_of_willing (fuel : Nat) (s : Stage δ) (inputs : Tape Input) (time : Tape Int) (random : Tape UInt8) :
    let staged := s.run apply fuel inputs time random
    let ran := s.emulator.run fuel inputs time random
    staged.1.emulator = ran.1.emulator ∧ staged.1.log = s.log ++ (told ran.1.calls.toList).map .taken ∧
      (staged.2 = true ↔ ran.2 = .finished) := by
  have silent := s.emulator.told_boot
  intro staged ran
  simp only [staged, ran]
  unfold run Emulator.run
  rcases booted : s.emulator.boot with ⟨e, calls, _ | f⟩
  all_goals rw [booted] at silent
  · have start : (s.withEmulator e).Follows s.log ⟨e, time, random, calls.toArray, #[]⟩ := by
      refine ⟨rfl, ?_⟩
      rw [show told calls = [] from silent, List.map_nil, List.append_nil]
      rfl
    obtain ⟨same, finished⟩ := follows_go willing fuel inputs start
    exact ⟨same.1, same.2, finished⟩
  · refine ⟨rfl, ?_, nofun, nofun⟩
    rw [show told calls = [] from silent, List.map_nil, List.append_nil]
    rfl

end

end Stage

/-! ## Histories -/

inductive Action where
  | resize (width height : Int)
  | clear
  | flip (x y : Int)
  | tick (keys : Keys) (chance : UInt8)
  | countDown
  | reset
  | boot
  | turn (input : Input) (time : Tape Int) (random : Tape UInt8)
  | run (fuel : Nat) (inputs : Tape Input) (time : Tape Int) (random : Tape UInt8)
  | refresh

section

variable {δ ε : Type} (room : Nat) (apply : δ → Command → δ × Option ε)

/-- The stage after an action. A fault and a refusal leave what they left. -/
def Stage.act (s : Stage δ) : Action → Stage δ
  | .resize width height => s.resize room apply width height
  | .clear => s.withEmulator (s.emulator.withScreen s.emulator.machine.screen.clear)
  | .flip x y =>
    match s.emulator.machine.screen.flip x y with
    | .ok (screen, _) => s.withEmulator (s.emulator.withScreen screen)
    | .error _ => s
  | .tick keys chance => s.withEmulator (s.emulator.withMachine (s.emulator.machine.cycle keys chance).machine)
  | .countDown => s.withEmulator (s.emulator.withMachine s.emulator.machine.countDown)
  | .reset => s.withEmulator (s.emulator.withMachine s.emulator.machine.reset)
  | .boot => s.withEmulator s.emulator.boot.1
  | .turn input time random => (s.turn apply input time random).1
  | .run fuel inputs time random => (s.run apply fuel inputs time random).1
  | .refresh => (s.perform apply .render).1

/-- A stage with a screen that was made for its emulator, and whose display took what it was told then, after
    some actions. -/
inductive History : Stage δ → Prop
  | start (e : Emulator) {width height : Int} {wrapping : Bool} {s : Screen} {greeting : List Command} {d d' : δ} :
      Screen.create room width height wrapping = .ok (s, greeting) → Display.obeyed apply d greeting = some d' →
      History ⟨e.withScreen s, d', greeting.map .taken⟩
  | act {s : Stage δ} (a : Action) : History s → History (s.act room apply a)

end

/-! ## What histories keep -/

section

variable {δ ε : Type} {room : Nat} {apply : δ → Command → δ × Option ε}

/-- A display that refuses a size has been told too late: the pixels are gone, and the mark is as it was. -/
theorem Stage.resize_of_refused (s : Stage δ) {width height : Int} (fits : Size.Fits room (width * height)) {d : δ}
    {e : ε} (refused : apply s.display (.resolution width height) = (d, some e)) :
    s.resize room apply width height =
      ⟨s.emulator.withScreen { s.emulator.machine.screen with
          width := width, height := height, plane := .zeros (width * height).toNat }, d,
        s.log ++ [.refused (.resolution width height)]⟩ := by
  simp only [resize, Screen.resize_of_fits _ fits, tell, Screen.Attached.tell, refused]

def Stage.Faithful (s : Stage δ) : Prop := s.emulator.machine.screen.Faithful s.log

theorem machine_boot (e : Emulator) : e.boot.1.machine = (bootMachine e.machine e.rom).1 := by
  unfold boot
  rcases bootMachine e.machine e.rom with ⟨m, _ | f⟩
  · simp only [setBuzzer_eq]
  · rfl

/-- An entry that is no frame keeps the pixels, or it marks the screen. -/
theorem kept_redo (e : Emulator) (entry : Entry) (frame : entry ≠ .render) :
    e.machine.screen.Kept (entry.redo e).1.machine.screen := by
  cases entry with
  | render => exact absurd rfl frame
  | boot =>
    rw [Entry.redo, machine_boot]
    exact (e.machine.kept_boot e.rom).screen
  | toggle now =>
    simp only [Entry.redo]
    split
    · exact .refl _
    · rw [setBuzzer_eq]
      exact .refl _
  | tick keys chance =>
    simp only [Entry.redo]
    split <;> exact (e.machine.kept_cycle keys chance).screen
  | sound | silence =>
    simp only [Entry.redo, setBuzzer_eq]
    exact .refl _
  | _ => exact .refl _

namespace Stage.Faithful

variable {s : Stage δ}

theorem withEmulator (f : s.Faithful) {e : Emulator} (kept : s.emulator.machine.screen.Kept e.machine.screen) :
    (s.withEmulator e).Faithful := f.kept kept

theorem tell_title (f : s.Faithful) (text : String) :
    (s.tell apply s.emulator.machine.screen (.title text)).1.Faithful := by
  unfold tell Screen.Attached.tell
  rcases apply s.display (.title text) with ⟨d, _ | e⟩
  · exact f.snoc rfl rfl rfl rfl nofun
  · exact f.snoc rfl rfl rfl rfl nofun

theorem render (f : s.Faithful) : (s.perform apply .render).1.Faithful := by
  simp only [perform, tell, Screen.Attached.tell]
  rcases apply s.display s.emulator.machine.screen.frame.2 with ⟨d, _ | e⟩
  · exact f.framed
  · exact f.unframed

theorem perform (f : s.Faithful) (entry : Entry) : (s.perform apply entry).1.Faithful := by
  by_cases frame : entry = .render
  · exact frame ▸ f.render
  by_cases report : entry = .report
  · subst report
    have titled : (s.tell apply s.emulator.machine.screen
        (.title (About.title s.emulator.frames s.emulator.instructions))).1.Faithful := f.tell_title _
    simp only [Stage.perform]
    rcases told : s.tell apply s.emulator.machine.screen
        (.title (About.title s.emulator.frames s.emulator.instructions)) with ⟨later, _ | _⟩
    · rw [told] at titled
      exact titled
    · rw [told] at titled
      exact titled
  · rw [perform_of_other s frame report]
    exact f.withEmulator (kept_redo s.emulator entry frame)

theorem performAll (f : s.Faithful) (entries : List Entry) : (s.performAll apply entries).1.Faithful := by
  induction entries generalizing s with
  | nil => exact f
  | cons entry rest ih =>
    have first : (s.perform apply entry).1.Faithful := f.perform entry
    unfold Stage.performAll
    rcases done : s.perform apply entry with ⟨later, _ | _⟩
    all_goals rw [done] at first
    · exact first
    · exact ih first

theorem go (f : s.Faithful) (fuel : Nat) (inputs : Tape Input) (time : Tape Int) (random : Tape UInt8) :
    (Stage.go apply fuel inputs time random s).1.Faithful := by
  induction fuel generalizing inputs time random s with
  | zero => exact f
  | succ fuel ih =>
    have turned : (s.turn apply inputs.head time random).1.Faithful := f.performAll _
    unfold Stage.go
    rcases done : s.turn apply inputs.head time random with ⟨later, _ | _⟩
    all_goals rw [done] at turned
    · exact turned
    · simp only
      split
      · exact turned
      · split
        · exact turned.performAll _
        · exact ih turned inputs.tail _ _

theorem run (f : s.Faithful) (fuel : Nat) (inputs : Tape Input) (time : Tape Int) (random : Tape UInt8) :
    (s.run apply fuel inputs time random).1.Faithful := by
  have booted : (s.withEmulator s.emulator.boot.1).Faithful := f.withEmulator (kept_redo s.emulator .boot nofun)
  unfold Stage.run
  simp only
  split
  · exact booted
  · exact booted.go fuel inputs time random

theorem resize (f : s.Faithful) (width height : Int) : (s.resize room apply width height).Faithful := by
  by_cases fits : Size.Fits room (width * height)
  · rcases told : apply s.display (.resolution width height) with ⟨d, _ | e⟩
    · simp only [Stage.resize, Screen.resize_of_fits _ fits, tell, Screen.Attached.tell, told]
      exact .of_dirty rfl _
    · rw [resize_of_refused s fits told]
      exact Screen.Faithful.snoc f rfl rfl rfl rfl nofun
  · unfold Stage.resize
    obtain ⟨e, refused⟩ := s.emulator.machine.screen.resize_of_not_fits fits
    rw [refused]
    exact Screen.Faithful.snoc f rfl rfl rfl rfl nofun

theorem act (f : s.Faithful) (a : Action) : (s.act room apply a).Faithful := by
  cases a with
  | resize width height => exact f.resize width height
  | clear => exact .of_dirty rfl _
  | flip x y =>
    simp only [Stage.act]
    split
    · next flipped => exact f.withEmulator (Screen.kept_flip flipped)
    · exact f
  | tick keys chance => exact f.withEmulator (s.emulator.machine.kept_cycle keys chance).screen
  | countDown => exact f.withEmulator (.refl _)
  | reset => exact .of_dirty rfl _
  | boot => exact f.withEmulator (kept_redo s.emulator .boot nofun)
  | turn input time random => exact f.performAll _
  | run fuel inputs time random => exact f.run fuel inputs time random
  | refresh => exact f.render

end Stage.Faithful

theorem dirty_of_create {width height : Int} {wrapping : Bool} {s : Screen} {greeting : List Command}
    (made : Screen.create room width height wrapping = .ok (s, greeting)) : s.dirty = true := by
  unfold Screen.create at made
  by_cases fits : Size.Fits room (width * height)
  · rw [Screen.resize_of_fits _ fits] at made
    cases made
    rfl
  · obtain ⟨e, refused⟩ := (Screen.unsized wrapping).resize_of_not_fits fits
    rw [refused] at made
    cases made

theorem History.acts {s : Stage δ} (history : History room apply s) (actions : List Action) :
    History room apply (actions.foldl (Stage.act room apply) s) := by
  induction actions generalizing s with
  | nil => exact history
  | cons a rest ih => exact ih (history.act a)

theorem History.faithful {s : Stage δ} (history : History room apply s) : s.Faithful := by
  induction history with
  | start e made _ => exact .of_dirty (dirty_of_create made) _
  | act a _ ih => exact ih.act a

/-! ## Frames that are taken -/

/-- Where a run ends by itself, the last frame was taken. -/
theorem Stage.last_of_closing {s : Stage δ} (closed : (s.performAll apply Run.closing).2 = true) :
    let ended := (s.performAll apply Run.closing).1
    ended.emulator.machine.screen.dirty = false ∧
      ended.log = s.log ++ [.taken (.frame ended.emulator.machine.screen.plane.bytes s.emulator.machine.screen.dirty)] := by
  revert closed
  simp only [performAll, Run.closing, perform, tell, Screen.Attached.tell]
  rcases apply s.display s.emulator.machine.screen.frame.2 with ⟨d, _ | e⟩
  · intro _
    simp only [withEmulator, Entry.redo, setBuzzer_eq]
    exact ⟨rfl, rfl⟩
  · intro closed
    cases closed

theorem Stage.last_of_go {fuel : Nat} {inputs : Tape Input} {time : Tape Int} {random : Tape UInt8} {s : Stage δ}
    (finished : (go apply fuel inputs time random s).2 = true) :
    let ended := (go apply fuel inputs time random s).1
    ended.emulator.machine.screen.dirty = false ∧
      ∃ before given, ended.log = before ++ [.taken (.frame ended.emulator.machine.screen.plane.bytes given)] := by
  induction fuel generalizing inputs time random s with
  | zero => cases finished
  | succ fuel ih =>
    unfold go at finished ⊢
    simp only at finished ⊢
    rcases turned : s.turn apply inputs.head time random with ⟨later, _ | _⟩
    all_goals rw [turned] at finished
    · cases finished
    · simp only at finished ⊢
      split at finished
      · cases finished
      · next on =>
        rw [if_neg on]
        split at finished
        · next final =>
          obtain ⟨clean, last⟩ := last_of_closing finished
          rw [if_pos final]
          exact ⟨clean, _, _, last⟩
        · next more =>
          rw [if_neg more]
          exact ih finished

/-- While the screen is not marked, its plane is what is left of the last frame, and nothing but titles and sizes
    that were refused followed it: the pixels of that frame, unless a display refused a size, for then it is the
    blank plane of that size. On a display that redraws only marked frames the last one of these is to be seen
    after every frame that it takes, and the plane is what is left of that one. A run that ends by itself, with
    all its frames taken, ends with a frame of the screen and the mark down. -/
theorem last_frame_leaves_screen {s : Stage δ} (history : History room apply s) :
    (s.emulator.machine.screen.dirty = false →
      ∃ before event given after, s.log = before ++ event :: after ∧ event.frame? = some given ∧
        (∀ e ∈ after, e.frame? = none ∧ ¬e.IsResize) ∧
        s.emulator.machine.screen.plane.bytes = Display.left given after) ∧
    (∀ later, s.perform apply .render = (later, true) →
      ∃ before given after, later.log = before ++ .taken (.frame given true) :: after ∧
        later.emulator.machine.screen.plane.bytes = Display.left given after ∧
        ∀ resized first, Display.seen resized first later.log = given) ∧
    ∀ fuel inputs time random later, s.run apply fuel inputs time random = (later, true) →
      later.emulator.machine.screen.dirty = false ∧
      ∃ before given, later.log = before ++ [.taken (.frame later.emulator.machine.screen.plane.bytes given)] := by
  refine ⟨history.faithful.last, ?_, ?_⟩
  · intro later rendered
    have faithful : later.Faithful := by
      have all : (s.perform apply .render).1.Faithful := history.faithful.render
      rw [rendered] at all
      exact all
    have clean : later.emulator.machine.screen.dirty = false := by
      revert rendered
      simp only [Stage.perform, Stage.tell, Screen.Attached.tell]
      rcases apply s.display s.emulator.machine.screen.frame.2 with ⟨d, _ | e⟩
      · rintro ⟨⟩
        rfl
      · nofun
    obtain ⟨before, event, given, after, same, drawn, others, plane⟩ := faithful.drawn clean
    have frame : event = .taken (.frame given true) := by
      unfold Event.drawn? at drawn
      split at drawn
      · cases drawn
        rfl
      · cases drawn
    subst frame
    refine ⟨before, given, after, same, plane, fun resized first => ?_⟩
    rw [same]
    exact Display.seen_of_drawn drawn others resized first
  · intro fuel inputs time random later ran
    unfold Stage.run at ran
    simp only at ran
    split at ran
    · cases ran
    · have last := Stage.last_of_go (congrArg Prod.snd ran)
      rw [ran] at last
      exact last

end

/-! ## A terminal without a pad -/

open Display (Host Terminal)

def inTerminal (actions : List Action) : Stage Terminal :=
  actions.foldl (Stage.act Host.common.room (Terminal.obey .common (24, 80)))
    ⟨Emulator.withScreen ⟨.standard {} false false, [], [], .never, false, false, 0, 0, 0⟩ (.blank 4 2 false),
      ⟨2, 0, 4, 2, 0, true, (-1, -1)⟩, (Screen.greeting 4 2).map .taken⟩

theorem history_inTerminal (actions : List Action) :
    History Host.common.room (Terminal.obey .common (24, 80)) (inTerminal actions) :=
  (History.start _ (d := ⟨2, 0, 0, 0, 0, true, (-1, -1)⟩) (Screen.create_natCast 4 2 false (by decide)) rfl).acts actions

/-- A pad for this many pixels in a row would be too wide. The one that was flipped before is gone. -/
theorem last_frame_leaves_screen_in_terminal :
    let s := inTerminal [.flip 1 1, .refresh, .resize 20000 1]
    s.emulator.machine.screen.dirty = false ∧
      ∃ before event given after, s.log = before ++ event :: after ∧ event.frame? = some given ∧
        (∀ e ∈ after, e.frame? = none ∧ ¬e.IsResize) ∧
        s.emulator.machine.screen.plane.bytes = Display.left given after := by
  intro s
  have clean : s.emulator.machine.screen.dirty = false := rfl
  exact ⟨clean, (last_frame_leaves_screen (history_inTerminal _)).1 clean⟩

/-- With the mark down, the screen has a size and pixels that no frame had, and a frame that is not marked does
    not bring them to a display that redraws only marked ones. -/
theorem refused_size_is_unmarked :
    let s := inTerminal [.flip 1 1, .refresh, .resize 20000 1]
    let later := s.perform (Terminal.obey .common (24, 80)) .render
    History Host.common.room (Terminal.obey .common (24, 80)) s ∧
      s.emulator.machine.screen.dirty = false ∧ s.emulator.machine.screen.width = 20000 ∧
      (∃ before given after, s.log = before ++ .taken (.frame given true) :: after ∧
        (∀ e ∈ after, e.frame? = none) ∧ s.emulator.machine.screen.plane.bytes ≠ given) ∧
      later.2 = true ∧
      ∀ resized first, Display.seen resized first later.1.log ≠ later.1.emulator.machine.screen.plane.bytes := by
  intro s later
  let framed := inTerminal [.flip 1 1, .refresh]
  let given : Array UInt8 := #[0, 0, 0, 0, 0, 1, 0, 0]
  have noPad : Terminal.obey .common (24, 80) framed.display (.resolution 20000 1) = (framed.display, some .noPad) :=
    rfl
  have fits : Size.Fits Host.common.room ((20000 : Int) * 1) := by decide
  have refused := Stage.resize_of_refused framed fits noPad
  have drawn : framed.log = (Screen.greeting 4 2).map .taken ++ [.taken (.frame given true)] := by decide +kernel
  have other : (Memory.zeros ((20000 : Int) * 1).toNat).bytes ≠ given := by
    intro same
    have sizes := congrArg Array.size same
    rw [Memory.zeros, Array.size_replicate] at sizes
    exact absurd sizes (by decide)
  have state : s = framed.resize Host.common.room (Terminal.obey .common (24, 80)) 20000 1 := by
    simp only [s, framed, inTerminal, List.foldl_cons, List.foldl_nil]
    rw [Stage.act]
  rw [refused] at state
  let blank : Memory := .zeros ((20000 : Int) * 1).toNat
  have shown : later = (⟨s.emulator.withScreen s.emulator.machine.screen.frame.1, (later.1).display,
      s.log ++ [.taken (.frame blank.bytes false)]⟩, true) := by
    simp only [later]
    rw [state]
    rfl
  have log : s.log = (Screen.greeting 4 2).map .taken ++
      [.taken (.frame given true), .refused (.resolution 20000 1)] := by
    rw [state, drawn, List.append_assoc]
    rfl
  refine ⟨history_inTerminal _, ?_, ?_, ⟨_, given, _, log, by decide, ?_⟩, ?_, ?_⟩
  · rw [state]; rfl
  · rw [state]; rfl
  · rw [state]; exact other
  · rw [shown]
  · intro resized first same
    rw [shown, log, state] at same
    simp only [List.append_assoc, List.cons_append, List.nil_append] at same
    have marked : (Event.taken (.frame given true)).drawn? = some given := rfl
    rw [Display.seen_of_drawn marked (by simp [Event.drawn?, Event.IsResize])] at same
    exact other same.symm

end Emulator

end Chip8
