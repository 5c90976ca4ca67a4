/-
  Chip8.Proofs.Obeying — a display does all that it is told in a run.

  A session gets ready only with a display that took the size of the screen and a title
  (`sized_of_greeted`). From then on the display is told of frames of this size and plain titles, and of
  nothing else (`Moves.steady_told`). It takes them all, whatever size the terminal has by then
  (`Sized.takes`). So no display ends a run.
-/
import Chip8.Proofs.Displays
import Chip8.Proofs.Entries
import Chip8.Proofs.Frames
import Chip8.Proofs.Moves

namespace Chip8

open Display (Command Host)

/-! ## Displays that have their size -/

namespace Display

/-- Is a command what a screen says that keeps this size? -/
inductive Steady (w h : Nat) : Command → Prop
  | frame {s : Screen} : s.Shaped w h → s.Binary → Steady w h s.frame.2
  | title {text : String} : IsPlain text → Steady w h (.title text)

/-- Has a display taken a size, and has a terminal room for a title? -/
def Sized (host : Host) (w h : Nat) : Display → Prop
  | headless _ => True
  | window v => v.width = w ∧ v.height = h
  | terminal t => t.width = w ∧ Terminal.checkRun host.room (t.width * t.scale) = .ok ()

variable {host : Host} {w h : Nat} {command : Command}

theorem not_mem_of_isPlain {text : String} (plain : IsPlain text) : Char.ofNat 0 ∉ text.toList :=
  fun mem => absurd (plain _ mem).1 (by decide)

theorem Window.takes {v : Window} (width : v.width = w) (height : v.height = h) (short : Size.Short w ∧ Size.Short h)
    (steady : Steady w h command) : ∃ after : Window, v.apply host command = (after, none) ∧ v.Alike after := by
  cases steady with
  | @frame s shaped binary =>
    have alike := v.alike_frame host s.plane.bytes s.dirty
    suffices untroubled : (v.apply host s.frame.2).2 = none from ⟨_, Prod.ext rfl untroubled, alike⟩
    have drawn (wide : 0 < w) (high : 0 < h) : (v.draw s.plane.bytes.toList).2 = none :=
      (draw_eq (v.colours?_eq binary) width height wide high (by rw [Palette.size_picture, shaped.size])).2 short
    unfold apply Screen.frame
    simp only
    by_cases redraws : (s.dirty && v.width != 0 && v.height != 0) = true
    · have sides : 0 < w ∧ 0 < h := by
        simp only [Bool.and_eq_true, bne_iff_ne, ne_eq, width, height] at redraws
        omega
      rw [if_pos redraws]
      rcases drew : v.draw s.plane.bytes.toList with ⟨after, _ | e⟩
      · rfl
      · have none := drawn sides.1 sides.2
        rw [drew] at none
        cases none
    · rw [if_neg redraws]
  | @title text plain =>
    have clean : text.toList.contains (Char.ofNat 0) = false := by
      simpa using not_mem_of_isPlain plain
    refine ⟨{ v with caption := text }, ?_, ⟨rfl, rfl, rfl⟩⟩
    unfold apply
    simp only [clean, Bool.false_eq_true, if_false]

theorem Terminal.takes {t : Terminal} (width : t.width = w)
    (titled : Terminal.checkRun host.room (t.width * t.scale) = .ok ()) (size : Int × Int)
    (steady : Steady w h command) :
    ∃ after calls, t.apply host size command = .ok (after, calls) ∧ after.width = t.width ∧ after.scale = t.scale := by
  cases steady with
  | @frame s shaped binary =>
    have placed : ¬(s.dirty = true ∧ t.HasNoPlace s.plane) := fun nowhere => not_hasNoPlace width shaped.size nowhere.2
    obtain ⟨shown, applied, -⟩ := t.apply_frame host size placed
    exact ⟨_, _, applied, rfl, rfl⟩
  | @title text _ => exact ⟨{ t with stale := true }, _, by rw [apply_title, titled]; rfl, rfl, rfl⟩

variable {d : Display}

/-- A display that has its size takes whatever is said of a screen of the size, and keeps it. -/
theorem Sized.takes (has : d.Sized host w h) (short : Size.Short w ∧ Size.Short h) (size : Int × Int)
    (steady : Steady w h command) : ∃ after, d.apply host size command = .ok after ∧ after.Sized host w h := by
  cases d with
  | headless d => exact ⟨_, rfl, trivial⟩
  | window v =>
    obtain ⟨after, applied, alike⟩ := Window.takes has.1 has.2 short steady
    refine ⟨.window after, ?_, alike.width.trans has.1, alike.height.trans has.2⟩
    rw [apply, applied]
  | terminal t =>
    obtain ⟨after, calls, applied, width, scale⟩ := Terminal.takes has.1 has.2 size steady
    refine ⟨.terminal after, ?_, width.trans has.1, ?_⟩
    · rw [apply, applied]
    · rw [width, scale]
      exact has.2

/-- A display takes one thing after another, each when the terminal has some size. -/
def takeAll (host : Host) (d : Display) (told : List ((Int × Int) × Command)) : Except Error Display :=
  told.foldlM (fun d t => d.apply host t.1 t.2) d

theorem Sized.takesAll (has : d.Sized host w h) (short : Size.Short w ∧ Size.Short h)
    (told : List ((Int × Int) × Command)) (steady : ∀ t ∈ told, Steady w h t.2) :
    ∃ after, d.takeAll host told = .ok after := by
  induction told generalizing d with
  | nil => exact ⟨d, rfl⟩
  | cons t rest ih =>
    obtain ⟨first, others⟩ := List.forall_mem_cons.mp steady
    obtain ⟨next, applied, still⟩ := has.takes short t.1 first
    obtain ⟨after, taken⟩ := ih still others
    refine ⟨after, ?_⟩
    rw [takeAll, List.foldlM_cons, applied]
    exact taken

theorem Window.size_of_apply {v after : Window} {width height : Int}
    (taken : v.apply host (.resolution width height) = (after, none)) :
    after.width = width ∧ after.height = height := by
  have resized : v.resized host width height = .ok after := by
    unfold Window.apply at taken
    simp only at taken
    split at taken
    · next made => rw [made, (Prod.mk.inj taken).1]
    · cases taken
  unfold Window.resized at resized
  simp only [bind, Except.bind] at resized
  split at resized
  · cases resized
  · cases resized
    exact ⟨rfl, rfl⟩

theorem window_of_apply {v : Window} {size : Int × Int} {after : Display}
    (taken : (window v).apply host size command = .ok after) :
    ∃ last, v.apply host command = (last, none) ∧ after = window last := by
  unfold apply at taken
  simp only at taken
  split at taken
  · next last told => exact ⟨last, told, (Except.ok.inj taken).symm⟩
  · cases taken

/-- A display that took a size and then a title has its size. -/
theorem sized_of_taken {next after : Display} {size : Int × Int} {text : String}
    (sized : d.apply host size (.resolution w h) = .ok next) (titled : next.apply host size (.title text) = .ok after) :
    after.Sized host w h := by
  cases d with
  | headless d =>
    cases sized
    cases titled
    trivial
  | window v =>
    obtain ⟨resized, took, rfl⟩ := window_of_apply sized
    obtain ⟨width, height⟩ := Window.size_of_apply took
    obtain ⟨last, took, rfl⟩ := window_of_apply titled
    have alike := resized.alike_title host text
    rw [took] at alike
    exact ⟨alike.width.trans width, alike.height.trans height⟩
  | terminal t =>
    by_cases pad : host.pads ((h : Int) + 1) (t.padColumns w) = true
    · have resized : t.apply host size (.resolution w h) = t.resized host w h := rfl
      rw [apply, resized, Terminal.resized, if_pos pad] at sized
      cases sized
      rw [apply, Terminal.apply_title] at titled
      rcases room : Terminal.checkRun host.room ((w : Int) * t.scale) with e | _
      all_goals simp only [room, Except.map] at titled
      · cases titled
      · cases titled
        exact ⟨rfl, room⟩
    · have resized : t.apply host size (.resolution w h) = t.resized host w h := rfl
      rw [apply, resized, Terminal.resized, if_neg pad] at sized
      cases sized

end Display

/-! ## What a run says -/

namespace Emulator

variable {e f : Emulator} {calls : List HostCall}

theorem Move.steady_told (move : Move e f calls) (range : e.machine.InRange) :
    f.machine.InRange ∧ ∀ command ∈ told calls, Display.Steady 64 32 command := by
  have none : ∀ command ∈ ([] : List Command), Display.Steady 64 32 command := nofun
  cases move with
  | boot => exact ⟨range.boot e.rom, none⟩
  | complete keys chance _ | crash keys chance _ => exact ⟨range.cycle, none⟩
  | countDown => exact ⟨range.countDown, none⟩
  | present =>
    refine ⟨range.frame, fun command mem => ?_⟩
    cases List.mem_singleton.mp mem
    exact .frame range.screen range.binary
  | report =>
    refine ⟨range, fun command mem => ?_⟩
    cases List.mem_singleton.mp mem
    exact .title (isPlain_title e.frames e.instructions)
  | _ => exact ⟨range, none⟩

theorem Moves.steady_told (moves : Moves e f calls) (range : e.machine.InRange) :
    f.machine.InRange ∧ ∀ command ∈ told calls, Display.Steady 64 32 command := by
  induction moves with
  | none => exact ⟨range, nofun⟩
  | snoc _ move ih =>
    obtain ⟨still, before⟩ := ih
    obtain ⟨kept, after⟩ := move.steady_told still
    refine ⟨kept, fun command mem => ?_⟩
    rw [told_append, List.mem_append] at mem
    exact mem.elim (before command) (after command)

end Emulator

/-! ## Sessions -/

namespace Session

variable {w : World} {s : Entry → Setting} {ready : Ready}

theorem sized_of_greeted {plan : Plan} {display next : Display} {log : List Deed}
    (done : greeted w plan display = .ok (next, log)) : next.Sized w.host 64 32 := by
  unfold greeted Screen.greeting at done
  simp only [greet, bind, Except.bind] at done
  rcases sized : display.apply w.host w.terminal (.resolution Layout.screenWidth Layout.screenHeight) with e | between
  · rw [sized, mapError_error] at done
    cases done
  · rw [sized, mapError_ok] at done
    simp only at done
    rcases titled : between.apply w.host w.terminal (.title (About.title 0 0)) with e | last
    · rw [titled, mapError_error] at done
      cases done
    · rw [titled, mapError_ok] at done
      cases done
      exact Display.sized_of_taken sized titled

theorem parts_of_assemble {plan : Plan} {display : Display} {keypad : Keypad}
    (assembled : assemble w s plan display keypad = .ok ready) :
    greeted w plan display = .ok (ready.display, ready.log) ∧
      ∃ speed, Emulator.create (.standard plan.dialect (s .wrap).isOn (s .debug).isOn) plan.rom speed
        (s .maxCycles).limit w.time = .ok (ready.emulator, ready.time) := by
  unfold assemble at assembled
  rcases done : greeted w plan display with refusal | ⟨next, log⟩
  all_goals simp only [done, bind, Except.bind] at assembled
  · cases assembled
  · rcases paced : clockSpeed (s .clockSpeed) with trouble | speed
    all_goals simp only [paced, mapError_ok, mapError_error] at assembled
    · cases assembled
    · rcases created : Emulator.create (.standard plan.dialect (s .wrap).isOn (s .debug).isOn) plan.rom speed
        (s .maxCycles).limit w.time with activity | ⟨emulator, time⟩
      all_goals simp only [created, mapError_ok, mapError_error] at assembled
      · cases assembled
      · cases assembled
        exact ⟨rfl, speed, created⟩

theorem sized_of_ready (prepared : prepare w (.ofEntries s) = .ok ready) :
    ready.display.Sized w.host 64 32 ∧ ready.emulator.machine.InRange := by
  obtain ⟨plan, display, keypad, told, planned, shown, made, -⟩ := stages_of_ready prepared
  rw [prepare_of_open planned shown made] at prepared
  obtain ⟨greeting, speed, created⟩ := parts_of_assemble prepared
  let settings : Emulator.Settings :=
    ⟨plan.dialect, (s .wrap).isOn, (s .debug).isOn, plan.rom, speed, (s .maxCycles).limit⟩
  have built : settings.build w.time = .ok (ready.emulator, ready.time) := created
  obtain ⟨clocks, fresh⟩ := Emulator.eq_fresh_of_build built
  refine ⟨sized_of_greeted greeting, ?_⟩
  rw [fresh]
  exact Machine.InRange.standard plan.dialect (s .wrap).isOn (s .debug).isOn

/-- Whatever a run of a ready session says to the display, in terminals of whatever sizes, the display takes it. -/
theorem Ready.obeyed (prepared : prepare w (.ofEntries s) = .ok ready) (fuel : Nat) (inputs : Tape Input)
    (time : Tape Int) (random : Tape UInt8) (said : List ((Int × Int) × Command))
    (same : said.map Prod.snd = Emulator.told (ready.emulator.run fuel inputs time random).1.calls.toList) :
    ∃ after, ready.display.takeAll w.host said = .ok after := by
  obtain ⟨has, range⟩ := sized_of_ready prepared
  obtain ⟨-, steady⟩ := (ready.emulator.run_moves fuel inputs time random).steady_told range
  refine has.takesAll (by decide) said fun t mem => steady t.2 ?_
  rw [← same]
  exact List.mem_map_of_mem mem

end Session

end Chip8
