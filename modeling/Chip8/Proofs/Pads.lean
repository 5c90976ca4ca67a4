/-
  Chip8.Proofs.Pads — a text terminal shows the screen after every frame.

  A pad holds what was written to it (`Pad.written`), a cell for each character, so what is on it is
  worked out from the calls of the terminal (`Pad.ofCalls`). The host may have no pad of a size; then the
  terminal goes on with the pad that it has.

  Two sizes matter, the one that the screen was asked for last and the last one that there was a pad for.
  Whatever is asked, the pad has the second of them, with a title line and one column more, and it was copied
  when the terminal had the size it was last seen with, and left alone since, unless it is stale
  (`Logged.Has`). If the first is the second, the pad shows the plane unless the screen is marked
  (`Console.Agrees`). Every request keeps both (`Console.shows_asks`), and after a frame there are no exceptions
  (`Agrees.answer_refresh`). Titles stay on the pad in any case, pixels if the two sizes are the same
  (`Shows.inside`).
-/
import Chip8.Display.Terminal
import Chip8.Proofs.Requests

namespace Chip8

/-! ## Plain texts -/

/-- Does each character of a text take up one cell of a terminal? -/
def IsPlain (text : String) : Prop := ∀ c ∈ text.toList, ' ' ≤ c ∧ c ≤ '~'

instance (text : String) : Decidable (IsPlain text) := List.decidableBAll _ text.toList

theorem isPlain_append {s t : String} (hs : IsPlain s) (ht : IsPlain t) : IsPlain (s ++ t) := by
  intro c mem
  rw [String.toList_append] at mem
  rcases List.mem_append.mp mem with left | right
  · exact hs c left
  · exact ht c right

theorem isPlain_digits (n : Nat) : IsPlain n.repr := by
  intro c mem
  rw [Nat.repr, String.toList_ofList] at mem
  have digit := Nat.isDigit_of_mem_toDigits (by decide) (by decide) mem
  simp only [Char.isDigit, Bool.and_eq_true, decide_eq_true_eq] at digit
  exact ⟨UInt32.le_trans (by decide) digit.1, UInt32.le_trans digit.2 (by decide)⟩

theorem isPlain_toString (n : Int) : IsPlain (toString n) := by
  cases n with
  | ofNat n => exact isPlain_digits n
  | negSucc n => exact isPlain_append (s := "-") (by decide) (isPlain_digits (n + 1))

theorem isPlain_title (fps ops : Int) : IsPlain (About.title fps ops) := by
  have frames := isPlain_append (by decide : IsPlain (About.name ++ " - ")) (isPlain_toString fps)
  have word := isPlain_append frames (by decide : IsPlain " FPS, ")
  exact isPlain_append (isPlain_append word (isPlain_toString ops)) (by decide)

namespace Display

/-! ## Pads -/

structure Cell where
  char : Char
  reverse : Bool
  deriving DecidableEq, Repr

structure Pad where
  lines : Int
  columns : Int
  cell : Int → Int → Cell

/-- Is the call one that makes, writes or copies a pad? -/
def TerminalCall.IsForPad : TerminalCall → Prop
  | .pad _ _ | .write _ _ _ _ | .copyPad _ _ => True
  | _ => False

namespace Pad

def blank (lines columns : Int) : Pad := ⟨lines, columns, fun _ _ => ⟨' ', false⟩⟩

def written (p : Pad) (line column : Int) (text : String) (reverse : Bool) : Pad :=
  { p with cell := fun l c =>
      if l = line ∧ column ≤ c ∧ c < column + text.length then ⟨text.toList.getD (c - column).toNat ' ', reverse⟩
      else p.cell l c }

def after (p : Pad) : TerminalCall → Pad
  | .pad lines columns => blank lines columns
  | .write line column text reverse => p.written line column text reverse
  | _ => p

def ofCalls (calls : List TerminalCall) : Pad := calls.foldl after (blank 0 0)

/-- Does the pad show the pixels of a plane, row by row from its second line on, each as `k` spaces? -/
def Shows (p : Pad) (k w h : Nat) (plane : Memory) : Prop :=
  ∀ x y j : Nat, x < w → y < h → j < k → p.cell (y + 1) (x * k + j) = ⟨' ', plane.byteAt (y * w + x) != 0⟩

variable {p : Pad} {calls : List TerminalCall}

theorem ofCalls_append (log calls : List TerminalCall) : ofCalls (log ++ calls) = calls.foldl after (ofCalls log) :=
  List.foldl_append

theorem after_of_not_isForPad {call : TerminalCall} (other : ¬call.IsForPad) : p.after call = p := by
  cases call with
  | pad | write | copyPad => exact absurd trivial other
  | _ => rfl

theorem foldl_of_not_isForPad (others : ∀ call ∈ calls, ¬call.IsForPad) : calls.foldl after p = p := by
  induction calls with
  | nil => rfl
  | cons call rest ih =>
    obtain ⟨first, later⟩ := List.forall_mem_cons.mp others
    rw [List.foldl_cons, after_of_not_isForPad first]
    exact ih later

/-- Writing to a pad leaves its size. -/
theorem size_foldl (writes : ∀ call ∈ calls, ∃ line column text reverse, call = .write line column text reverse) :
    (calls.foldl after p).lines = p.lines ∧ (calls.foldl after p).columns = p.columns := by
  induction calls generalizing p with
  | nil => exact ⟨rfl, rfl⟩
  | cons call rest ih =>
    obtain ⟨⟨line, column, text, reverse, rfl⟩, later⟩ := List.forall_mem_cons.mp writes
    exact ih later

/-- A title leaves what is below it. -/
theorem cell_title (p : Pad) (text : String) (reverse : Bool) (y : Nat) (c : Int) :
    (p.written 0 0 text reverse).cell (y + 1) c = p.cell (y + 1) c := by
  have below : ¬((y : Int) + 1 = 0) := by omega
  simp only [written, below, false_and, if_false]

/-- A cell that every call sets to the same or leaves alone, and that is the same at first or is set by
    some call, ends so. -/
theorem cell_foldl {l c : Int} {v : Cell}
    (agree : ∀ call ∈ calls, (∀ q : Pad, (q.after call).cell l c = v) ∨ ∀ q : Pad, (q.after call).cell l c = q.cell l c)
    (reached : p.cell l c = v ∨ ∃ call ∈ calls, ∀ q : Pad, (q.after call).cell l c = v) :
    (calls.foldl after p).cell l c = v := by
  induction calls generalizing p with
  | nil =>
    rcases reached with held | ⟨call, mem, _⟩
    · exact held
    · cases mem
  | cons call rest ih =>
    obtain ⟨first, later⟩ := List.forall_mem_cons.mp agree
    refine ih later ?_
    rcases first with sets | leaves
    · exact .inl (sets p)
    · rcases reached with held | ⟨other, mem, sets⟩
      · exact .inl ((leaves p).trans held)
      · rcases List.mem_cons.mp mem with rfl | mem
        · exact .inl (sets p)
        · exact .inr ⟨other, mem, sets⟩

end Pad

/-! ## Calls of a terminal -/

namespace Terminal

variable {t : Terminal} {k w h : Nat}

theorem length_fitted (text : String) (n : Nat) : (fitted text n).length = n := by
  simp only [fitted, Int.toNat_natCast, if_pos (Int.natCast_nonneg n), String.length_ofList, List.length_append,
    List.length_take, List.length_replicate]
  omega

theorem isPlain_fitted {text : String} (plain : IsPlain text) (n : Nat) : IsPlain (fitted text n) := by
  intro c mem
  simp only [fitted, if_pos (Int.natCast_nonneg n), String.toList_ofList] at mem
  rcases List.mem_append.mp mem with kept | filled
  · exact plain c (List.mem_of_mem_take kept)
  · rw [List.eq_of_mem_replicate filled]
    decide

theorem isPlain_cell (t : Terminal) : IsPlain t.cell := by
  intro c mem
  rw [cell, String.toList_ofList] at mem
  rw [List.eq_of_mem_replicate mem]
  decide

theorem length_cell (scale : t.scale = k) : t.cell.length = k := by
  simp [cell, scale]

theorem writePixel_eq (scale : t.scale = k) (width : t.width = w) (pixel : UInt8) (n : Nat) :
    t.writePixel pixel n = .write ((n / w : Nat) + 1) ((n % w * k : Nat)) t.cell (pixel != 0) := by
  rw [writePixel, scale, width, Int.fdiv_eq_ediv_of_nonneg _ (Int.natCast_nonneg w),
    Int.fmod_eq_emod_of_nonneg _ (Int.natCast_nonneg w)]
  push_cast
  rfl

def pixelCalls (t : Terminal) (plane : Memory) : List TerminalCall :=
  plane.bytes.toList.zipIdx.map fun (pixel, number) => t.writePixel pixel number

def HasNoPlace (t : Terminal) (plane : Memory) : Prop := t.width = 0 ∧ plane.bytes.toList ≠ []

theorem not_hasNoPlace (width : t.width = w) {plane : Memory} (size : plane.bytes.size = w * h) :
    ¬t.HasNoPlace plane := by
  intro ⟨narrow, pixels⟩
  have empty : w = 0 := by omega
  rw [empty, Nat.zero_mul, ← Array.length_toList] at size
  exact pixels (List.length_eq_zero_iff.mp size)

/-- The run of a pixel covers a cell of its own line, in its own columns. -/
theorem covers_iff (scale : t.scale = k) {x y j n : Nat} (hx : x < w) (hj : j < k) :
    ((y + 1 : Int) = (n / w : Nat) + 1 ∧ ((n % w * k : Nat) : Int) ≤ x * k + j ∧
      (x * k + j : Int) < (n % w * k : Nat) + t.cell.length) ↔ n = y * w + x := by
  rw [length_cell scale]
  have whole := Nat.div_add_mod n w
  constructor
  · intro ⟨line, first, last⟩
    have row : n / w = y := by omega
    have low : n % w * k ≤ x * k + j := by exact_mod_cast first
    have high : x * k + j < n % w * k + k := by exact_mod_cast last
    have column := (Screen.place_injective hj (c := x * k + j - n % w * k) (by omega) (b := x) (d := n % w) (by omega)).2
    rw [row, ← column, Nat.mul_comm] at whole
    exact whole.symm
  · intro same
    have row : n / w = y := by rw [same, Nat.mul_comm, Nat.mul_add_div (by omega), Nat.div_eq_of_lt hx, Nat.add_zero]
    have column : n % w = x := by rw [same, Nat.mul_add_mod', Nat.mod_eq_of_lt hx]
    rw [row, column]
    push_cast
    omega

theorem cell_writePixel (scale : t.scale = k) (width : t.width = w) (p : Pad) (pixel : UInt8) {x y j n : Nat}
    (hx : x < w) (hj : j < k) :
    (p.after (t.writePixel pixel n)).cell (y + 1) (x * k + j) =
      if n = y * w + x then ⟨' ', pixel != 0⟩ else p.cell (y + 1) (x * k + j) := by
  have space (i : Nat) : t.cell.toList.getD i ' ' = ' ' := by
    simp [cell, List.getD_eq_getElem?_getD, List.getElem?_replicate]
    split <;> rfl
  rw [writePixel_eq scale width]
  simp only [Pad.after, Pad.written, covers_iff scale hx hj, space]

/-- Pixels are written below the first line, and clear of the last column. -/
theorem mem_pixelCalls (scale : t.scale = k) (width : t.width = w) {plane : Memory}
    (size : plane.bytes.size = w * h) {call : TerminalCall} (mem : call ∈ t.pixelCalls plane) :
    ∃ line column reverse, call = .write line column t.cell reverse ∧
      1 ≤ line ∧ line ≤ h ∧ 0 ≤ column ∧ column + t.cell.length ≤ w * k := by
  obtain ⟨⟨pixel, n⟩, numbered, rfl⟩ := List.mem_map.mp mem
  have inside : n < w * h := by
    have bound := List.snd_lt_of_mem_zipIdx numbered
    rwa [Array.length_toList, size] at bound
  have wide : 0 < w := Nat.pos_of_mul_pos_right (Nat.zero_lt_of_lt inside)
  have row : n / w < h := Nat.div_lt_of_lt_mul inside
  have column : n % w * k + k ≤ w * k := by
    rw [← Nat.succ_mul]
    exact Nat.mul_le_mul_right k (Nat.mod_lt n wide)
  refine ⟨_, _, _, writePixel_eq scale width pixel n, ?_⟩
  rw [length_cell scale]
  have low : 1 ≤ n / w + 1 := Nat.le_add_left 1 (n / w)
  exact ⟨by exact_mod_cast low, by exact_mod_cast row, Int.natCast_nonneg _, by exact_mod_cast column⟩

/-- A pad to which all pixels were written shows them. -/
theorem shows_pixels (scale : t.scale = k) (width : t.width = w) {plane : Memory}
    (size : plane.bytes.size = w * h) (p : Pad) : ((t.pixelCalls plane).foldl Pad.after p).Shows k w h plane := by
  intro x y j hx hy hj
  have place : y * w + x < plane.bytes.size := by rw [size]; exact Screen.place_lt hx hy
  have held := Memory.getElem?_bytes place
  push_cast at held
  apply Pad.cell_foldl
  · intro call mem
    obtain ⟨⟨pixel, n⟩, numbered, rfl⟩ := List.mem_map.mp mem
    have pixelAt := List.mk_mem_zipIdx_iff_getElem?.mp numbered
    by_cases here : n = y * w + x
    · rw [here, held, Option.some.injEq] at pixelAt
      exact .inl fun q => by rw [cell_writePixel scale width q pixel hx hj, if_pos here, pixelAt]
    · exact .inr fun q => by rw [cell_writePixel scale width q pixel hx hj, if_neg here]
  · refine .inr ⟨_, List.mem_map_of_mem (List.mk_mem_zipIdx_iff_getElem?.mpr held), fun q => ?_⟩
    rw [cell_writePixel scale width q _ hx hj, if_pos rfl]

/-- Is the pad copied, by calls behind some others, for a terminal of this size, and left alone since? -/
def Copied (size : Int × Int) (log : List TerminalCall) : Prop :=
  ∃ before after, log = before ++ .copyPad (size.1 - 1) (size.2 - 1) :: after ∧ ∀ call ∈ after, ¬call.IsForPad

theorem ofCalls_of_copied {before after : List TerminalCall} {line column : Int}
    (others : ∀ call ∈ after, ¬call.IsForPad) :
    Pad.ofCalls (before ++ .copyPad line column :: after) = Pad.ofCalls before := by
  rw [Pad.ofCalls_append, List.foldl_cons]
  exact Pad.foldl_of_not_isForPad others

/-- A terminal that is not stale and has its size is left alone; another one is brought up to date. -/
theorem shown_cases (t : Terminal) (size : Int × Int) :
    let adapted := t.adapted size
    let shown := adapted.1.copied size
    shown.1 = { t with seen := size, stale := false } ∧
      (t.stale = false ∧ t.seen = size ∧ adapted.2 = [] ∧ shown.2 = [] ∨
        (∀ call ∈ adapted.2, ¬call.IsForPad) ∧ shown.2 = [.copyPad (size.1 - 1) (size.2 - 1)]) := by
  intro adapted shown
  by_cases same : t.seen = size
  · have kept : adapted = (t, []) := if_pos same
    by_cases stale : t.stale = true
    · have copies : shown = ({ t with stale := false }, [.copyPad (size.1 - 1) (size.2 - 1)]) := by
        simp only [shown, kept, copied, if_pos stale]
      rw [copies, kept, ← same]
      exact ⟨rfl, .inr ⟨fun _ mem => absurd mem List.not_mem_nil, rfl⟩⟩
    · rw [Bool.not_eq_true] at stale
      have rests : shown = (t, []) := by simp [shown, kept, copied, stale]
      rw [rests, kept, ← same]
      refine ⟨?_, .inl ⟨stale, rfl, rfl, rfl⟩⟩
      rw [← stale]
  · have cleared : adapted = ({ t with seen := size, stale := true }, [.clear, .resize size.1 size.2, .refresh]) :=
      if_neg same
    have copies : shown = ({ t with seen := size, stale := false }, [.copyPad (size.1 - 1) (size.2 - 1)]) := by
      simp [shown, cleared, copied]
    rw [copies, cleared]
    exact ⟨rfl, .inr ⟨by simp [TerminalCall.IsForPad], rfl⟩⟩

/-- A frame writes the pixels if it is marked, and then copies the pad unless that is as it was copied. -/
theorem apply_frame (host : Host) (size : Int × Int) {plane : Memory} {dirty : Bool}
    (placed : ¬(dirty = true ∧ t.HasNoPlace plane)) :
    ∃ shown, t.apply host size (.frame plane.bytes dirty) =
        .ok ({ t with seen := size, stale := false, frames := t.frames + 1 },
          (if dirty then t.pixelCalls plane else []) ++ shown) ∧
      (t.stale = false ∧ dirty = false ∧ t.seen = size ∧ shown = [] ∨
        ∃ cleared, (∀ call ∈ cleared, ¬call.IsForPad) ∧ shown = cleared ++ [.copyPad (size.1 - 1) (size.2 - 1)]) := by
  have applied : t.apply host size (.frame plane.bytes dirty) =
      let adapted := { t with stale := t.stale || dirty }.adapted size
      let shown := adapted.1.copied size
      .ok ({ shown.1 with frames := shown.1.frames + 1 },
        (if dirty then t.pixelCalls plane else []) ++ adapted.2 ++ shown.2) := by
    cases dirty with
    | true =>
      have written : t.writePixels plane.bytes.toList = .ok (t.pixelCalls plane) :=
        if_neg fun nowhere => placed ⟨rfl, nowhere⟩
      unfold apply
      simp only [if_true, written]
      rfl
    | false => rfl
  obtain ⟨state, cases⟩ := shown_cases { t with stale := t.stale || dirty } size
  simp only [state, List.append_assoc] at applied
  refine ⟨_, applied, ?_⟩
  rcases cases with ⟨fresh, same, none, still⟩ | ⟨others, copies⟩
  · rw [none, still]
    exact .inl ⟨(Bool.or_eq_false_iff.mp fresh).1, (Bool.or_eq_false_iff.mp fresh).2, same, rfl⟩
  · rw [copies]
    exact .inr ⟨_, others, rfl⟩

theorem apply_frame_of_hasNoPlace (host : Host) (size : Int × Int) {plane : Memory} (nowhere : t.HasNoPlace plane) :
    t.apply host size (.frame plane.bytes true) = .error (.fault .divisionByZero) := by
  have unwritten : t.writePixels plane.bytes.toList = .error (.fault .divisionByZero) := if_pos nowhere
  unfold apply
  simp only [if_true, unwritten]
  rfl

theorem apply_title (host : Host) (t : Terminal) (size : Int × Int) (text : String) :
    t.apply host size (.title text) =
      (checkRun host.room (t.width * t.scale)).map fun _ =>
        ({ t with stale := true }, [.write 0 0 (fitted text (t.width * t.scale)) true]) := by
  show (checkRun host.room (t.width * t.scale) >>= fun _ => _) = _
  rcases checkRun host.room (t.width * t.scale) with f | _ <;> rfl

end Terminal

/-! ## A terminal and its pad -/

structure Logged where
  terminal : Terminal
  log : List TerminalCall

namespace Logged

def obey (host : Host) (size : Int × Int) (l : Logged) (command : Command) : Logged × Option TerminalError :=
  match l.terminal.apply host size command with
  | .ok (t, calls) => (⟨t, l.log ++ calls⟩, none)
  | .error e => (l, some e)

/-- Has the terminal a pad for this size, with `k` columns to a pixel, and was it copied if it is not stale? -/
structure Has (l : Logged) (k : Nat) (granted : Nat × Nat) : Prop where
  scale : l.terminal.scale = k
  width : l.terminal.width = granted.1
  height : l.terminal.height = granted.2
  lines : (Pad.ofCalls l.log).lines = granted.2 + 1
  columns : (Pad.ofCalls l.log).columns = granted.1 * k + 1
  copied : l.terminal.stale = false → Terminal.Copied l.terminal.seen l.log

variable {l : Logged} {k : Nat} {granted : Nat × Nat}

theorem obey_of_ok {host : Host} {size : Int × Int} {command : Command} {t : Terminal} {calls : List TerminalCall}
    (done : l.terminal.apply host size command = .ok (t, calls)) :
    l.obey host size command = (⟨t, l.log ++ calls⟩, none) := by
  rw [obey, done]

theorem obey_of_error {host : Host} {size : Int × Int} {command : Command} {e : TerminalError}
    (refused : l.terminal.apply host size command = .error e) : l.obey host size command = (l, some e) := by
  rw [obey, refused]

theorem writes_pixelCalls (t : Terminal) (plane : Memory) :
    ∀ call ∈ t.pixelCalls plane, ∃ line column text reverse, call = .write line column text reverse := by
  intro call mem
  obtain ⟨_, _, rfl⟩ := List.mem_map.mp mem
  exact ⟨_, _, _, _, rfl⟩

/-- What a frame leaves that is carried out: the pad with the pixels, if there are any to write, copied. -/
theorem Has.framed (has : l.Has k granted) (host : Host) (size : Int × Int) (plane : Memory) (dirty : Bool)
    (placed : ¬(dirty = true ∧ l.terminal.HasNoPlace plane)) :
    ∃ calls,
      l.terminal.apply host size (.frame plane.bytes dirty) =
        .ok ({ l.terminal with seen := size, stale := false, frames := l.terminal.frames + 1 }, calls) ∧
      (∀ call ∈ calls, (∃ line column text reverse, call = .write line column text reverse) →
        dirty = true ∧ call ∈ l.terminal.pixelCalls plane) ∧
      Terminal.Copied size (l.log ++ calls) ∧
      Pad.ofCalls (l.log ++ calls) =
        (if dirty then l.terminal.pixelCalls plane else []).foldl Pad.after (Pad.ofCalls l.log) := by
  obtain ⟨shown, applied, ⟨fresh, clean, same, rfl⟩ | ⟨cleared, others, rfl⟩⟩ :=
    Terminal.apply_frame (t := l.terminal) host size placed
  · refine ⟨_, applied, ?_⟩
    simp only [clean, Bool.false_eq_true, if_false, List.append_nil]
    exact ⟨nofun, same ▸ has.copied fresh, rfl⟩
  · refine ⟨_, applied, ?_, ⟨l.log ++ (if dirty then l.terminal.pixelCalls plane else []) ++ cleared, [], ?_, nofun⟩, ?_⟩
    · rintro call mem ⟨line, column, text, reverse, rfl⟩
      rcases List.mem_append.mp mem with pixel | other
      · split at pixel
        · next marked => exact ⟨marked, pixel⟩
        · cases pixel
      · rcases List.mem_append.mp other with clear | copy
        · exact absurd trivial (others _ clear)
        · cases List.mem_singleton.mp copy
    · simp only [List.append_assoc]
    · rw [Pad.ofCalls_append, List.foldl_append, List.foldl_append, Pad.foldl_of_not_isForPad others]
      rfl

/-- A frame leaves the size of the pad, whether or not the pixels are those of that size. -/
theorem Has.frame (has : l.Has k granted) (host : Host) (size : Int × Int) (plane : Memory) (dirty : Bool) :
    (l.obey host size (.frame plane.bytes dirty)).1.Has k granted := by
  by_cases nowhere : dirty = true ∧ l.terminal.HasNoPlace plane
  · obtain ⟨rfl, nowhere⟩ := nowhere
    rw [obey_of_error (Terminal.apply_frame_of_hasNoPlace host size nowhere)]
    exact has
  · obtain ⟨calls, applied, -, copied, pad⟩ := has.framed host size _ _ nowhere
    rw [obey_of_ok applied]
    have writes : ∀ call ∈ (if dirty then l.terminal.pixelCalls plane else []),
        ∃ line column text reverse, call = .write line column text reverse := by
      split
      · exact writes_pixelCalls _ _
      · nofun
    obtain ⟨lines, columns⟩ := Pad.size_foldl (p := Pad.ofCalls l.log) writes
    exact ⟨has.scale, has.width, has.height, (congrArg Pad.lines pad).trans (lines.trans has.lines),
      (congrArg Pad.columns pad).trans (columns.trans has.columns), fun _ => copied⟩

theorem Has.title (has : l.Has k granted) (host : Host) (size : Int × Int) (text : String) :
    (l.obey host size (.title text)).1.Has k granted := by
  have applied := Terminal.apply_title host l.terminal size text
  rcases run : Terminal.checkRun host.room (l.terminal.width * l.terminal.scale) with f | _
  all_goals rw [run] at applied
  · rw [obey_of_error applied]
    exact has
  · rw [obey_of_ok applied]
    refine ⟨has.scale, has.width, has.height, ?_, ?_, nofun⟩
    · rw [Pad.ofCalls_append]
      exact has.lines
    · rw [Pad.ofCalls_append]
      exact has.columns

/-- A title leaves what the pad shows below it. -/
theorem shows_title {w h : Nat} {plane : Memory} (shows : (Pad.ofCalls l.log).Shows k w h plane) (host : Host)
    (size : Int × Int) (text : String) :
    (Pad.ofCalls (l.obey host size (.title text)).1.log).Shows k w h plane := by
  have applied := Terminal.apply_title host l.terminal size text
  rcases run : Terminal.checkRun host.room (l.terminal.width * l.terminal.scale) with f | _
  all_goals rw [run] at applied
  · rw [obey_of_error applied]
    exact shows
  · rw [obey_of_ok applied]
    intro x y j hx hy hj
    rw [Pad.ofCalls_append]
    exact (Pad.cell_title ..).trans (shows x y j hx hy hj)

theorem has_of_create {host : Host} {scale : Option Int} {cursor : Int} {t : Terminal} {opening : List TerminalCall}
    (stretch : scale.getD 2 = k) (made : Terminal.create host scale cursor = .ok (t, opening)) :
    (Logged.mk t opening).Has k (0, 0) ∧ host.pads 1 1 = true := by
  unfold Terminal.create at made
  rcases run : Terminal.checkRun host.room (scale.getD 2) with f | _
  · simp only [run] at made
    cases made
  · by_cases pad : host.pads (0 + 1) (0 * scale.getD 2 + 1) = true
    · have resized : Terminal.resized host ⟨scale.getD 2, cursor, 0, 0, 0, false, (-1, -1)⟩ 0 0 = .ok _ := if_pos pad
      simp only [run, resized] at made
      cases made
      rw [Int.zero_mul] at pad
      refine ⟨⟨stretch, rfl, rfl, rfl, ?_, nofun⟩, pad⟩
      show (0 : Int) * scale.getD 2 + 1 = _
      omega
    · have refused : Terminal.resized host ⟨scale.getD 2, cursor, 0, 0, 0, false, (-1, -1)⟩ 0 0 = .error .noPad :=
        if_neg pad
      simp only [run, refused] at made
      cases made

end Logged

/-! ## A screen and its terminal -/

/-- Is there room for a plane of a size, and a pad with `k` columns to a pixel? -/
def Host.HasPad (host : Host) (k : Nat) (size : Nat × Nat) : Prop :=
  Size.Fits host.room (size.1 * size.2) ∧ host.pads (size.2 + 1) (size.1 * k + 1) = true

instance (host : Host) (k : Nat) : DecidablePred (host.HasPad k) :=
  fun size => inferInstanceAs (Decidable (Size.Fits host.room (size.1 * size.2) ∧ _))

abbrev Console := Screen.Attached Logged

namespace Console

open Screen (Request)

def answer (host : Host) (c : Console) (size : Int × Int) (r : Request) :
    Except TerminalError (Terminal × List TerminalCall) :=
  match (c.screen.ask host.room r).2 with
  | none => .ok (c.display.terminal, [])
  | some command => c.display.terminal.apply host size command

/-- The console after some requests, each made when the terminal had some size. -/
def asks (host : Host) (c : Console) (requests : List ((Int × Int) × Request)) : Console :=
  requests.foldl (fun c (size, r) => c.ask host.room (Logged.obey host size) r) c

/-- Has the plane this size, and does the pad show it unless the screen is marked? -/
structure Agrees (c : Console) (k : Nat) (shape : Nat × Nat) : Prop where
  size : c.screen.plane.bytes.size = shape.1 * shape.2
  plane : c.screen.dirty = false → (Pad.ofCalls c.display.log).Shows k shape.1 shape.2 c.screen.plane

/-- Has the screen the size that was asked for last, and the terminal the last one that there was a pad for? Do
    they agree if the two are the same? -/
structure Shows (host : Host) (k : Nat) (c : Console) (asked granted : Nat × Nat) : Prop where
  width : c.screen.width = asked.1
  height : c.screen.height = asked.2
  terminal : c.display.Has k granted
  same : host.HasPad k asked → granted = asked
  agrees : host.HasPad k asked → c.Agrees k asked

variable {host : Host} {c : Console} {k : Nat} {asked granted : Nat × Nat}

/-- What a frame does when the screen and the terminal agree. -/
theorem Agrees.answer_refresh (agrees : c.Agrees k granted) (has : c.display.Has k granted) (host : Host)
    (size : Int × Int) :
    ∃ calls, c.answer host size .refresh =
        .ok ({ c.display.terminal with seen := size, stale := false, frames := c.display.terminal.frames + 1 }, calls) ∧
      (∀ call ∈ calls, (∃ line column text reverse, call = .write line column text reverse) →
        call ∈ c.display.terminal.pixelCalls c.screen.plane) ∧
      Terminal.Copied size (c.display.log ++ calls) ∧
      (Pad.ofCalls (c.display.log ++ calls)).Shows k granted.1 granted.2 c.screen.plane := by
  have placed := Terminal.not_hasNoPlace has.width agrees.size
  obtain ⟨calls, answered, pixels, copied, pad⟩ :=
    has.framed host size c.screen.plane c.screen.dirty fun nowhere => placed nowhere.2
  refine ⟨calls, answered, fun call mem write => (pixels call mem write).2, copied, ?_⟩
  rw [pad]
  by_cases dirty : c.screen.dirty = true
  · rw [if_pos dirty]
    exact Terminal.shows_pixels has.scale has.width agrees.size _
  · rw [if_neg dirty]
    exact agrees.plane (Bool.not_eq_true _ ▸ dirty)

/-- Nothing but the display's answer to the size that was asked for last keeps the two apart. -/
theorem Shows.ask (shows : Shows host k c asked granted) (size : Int × Int) {r : Request} (other : r.size? = none) :
    Shows host k (c.ask host.room (Logged.obey host size) r) asked granted := by
  obtain ⟨s, command, answered, step⟩ := c.screen.asked host.room r
  cases step with
  | sized | noRoom => cases other
  | drawn _ drawn =>
    rw [Screen.Attached.ask_untold answered]
    refine ⟨drawn.width.trans shows.width, drawn.height.trans shows.height, shows.terminal, shows.same, ?_⟩
    intro pad
    refine ⟨drawn.size.trans (shows.agrees pad).size, ?_⟩
    intro clean
    rcases drawn.kept with dirty | ⟨plane, mark⟩
    · rw [clean] at dirty
      cases dirty
    · rw [plane]
      exact (shows.agrees pad).plane (mark ▸ clean)
  | reported fps ops =>
    have has := shows.terminal.title host size (About.title fps ops)
    have agrees (pad : host.HasPad k asked) :
        Agrees ⟨c.screen, (c.display.obey host size (.title (About.title fps ops))).1⟩ k asked :=
      ⟨(shows.agrees pad).size, fun clean => Logged.shows_title ((shows.agrees pad).plane clean) host size _⟩
    rcases told : c.display.obey host size (.title (About.title fps ops)) with ⟨l, _ | e⟩
    all_goals rw [told] at has agrees
    · rw [Screen.Attached.ask_taken answered told]
      exact ⟨shows.width, shows.height, has, shows.same, agrees⟩
    · rw [Screen.Attached.ask_refused answered told]
      exact ⟨shows.width, shows.height, has, shows.same, agrees⟩
  | framed =>
    have has := shows.terminal.frame host size c.screen.plane c.screen.dirty
    rcases told : c.display.obey host size c.screen.frame.2 with ⟨l, _ | e⟩
    all_goals rw [show c.display.obey host size (.frame c.screen.plane.bytes c.screen.dirty) = _ from told] at has
    · rw [Screen.Attached.ask_taken answered told]
      refine ⟨shows.width, shows.height, has, shows.same, fun pad => ⟨(shows.agrees pad).size, fun _ => ?_⟩⟩
      obtain rfl := shows.same pad
      obtain ⟨calls, done, -, -, plane⟩ := (shows.agrees pad).answer_refresh shows.terminal host size
      rw [show c.display.obey host size c.screen.frame.2 = _ from Logged.obey_of_ok done] at told
      cases told
      exact plane
    · rw [Screen.Attached.ask_refused answered told]
      refine ⟨shows.width, shows.height, has, shows.same, fun pad => ?_⟩
      obtain rfl := shows.same pad
      obtain ⟨calls, done, -, -, plane⟩ := (shows.agrees pad).answer_refresh shows.terminal host size
      rw [show c.display.obey host size c.screen.frame.2 = _ from Logged.obey_of_ok done] at told
      cases told

/-- A size is taken by both, or by the screen alone. -/
theorem Shows.resize (shows : Shows host k c asked granted) (size : Int × Int) (new : Nat × Nat) :
    Shows host k (c.ask host.room (Logged.obey host size) (.resize new.1 new.2)) new
      (if host.HasPad k new then new else granted) := by
  obtain ⟨s, command, answered, step⟩ := c.screen.asked host.room (.resize new.1 new.2)
  cases step with
  | sized fits =>
    have columns : c.display.terminal.padColumns new.1 = new.1 * k + 1 := by
      rw [Terminal.padColumns, shows.terminal.scale]
    by_cases pad : host.pads (new.2 + 1) (new.1 * k + 1) = true
    · have done : c.display.terminal.apply host size (.resolution new.1 new.2) =
          .ok ({ c.display.terminal with width := new.1, height := new.2, stale := true },
            [.pad (new.2 + 1) (new.1 * k + 1)]) := by
        rw [Terminal.apply, Terminal.resized, columns, if_pos pad]
      rw [Screen.Attached.ask_taken answered (Logged.obey_of_ok done), if_pos ⟨fits, pad⟩]
      refine ⟨rfl, rfl, ⟨shows.terminal.scale, rfl, rfl, ?_, ?_, nofun⟩, fun _ => rfl, fun _ => ⟨?_, nofun⟩⟩
      · rw [Pad.ofCalls_append]
        rfl
      · rw [Pad.ofCalls_append]
        rfl
      · simp [Memory.zeros]
    · have refused : c.display.terminal.apply host size (.resolution new.1 new.2) = .error .noPad := by
        rw [Terminal.apply, Terminal.resized, columns, if_neg pad]
      have apart : ¬host.HasPad k new := fun has => pad has.2
      rw [Screen.Attached.ask_refused answered (Logged.obey_of_error refused), if_neg apart]
      exact ⟨rfl, rfl, shows.terminal, fun has => absurd has apart, fun has => absurd has apart⟩
  | noRoom large =>
    have apart : ¬host.HasPad k new := fun has => large has.1
    rw [Screen.Attached.ask_untold answered, if_neg apart]
    exact ⟨rfl, rfl, shows.terminal, fun has => absurd has apart, fun has => absurd has apart⟩
  | drawn other => cases other

/-- The sizes that the screen and the terminal have, after requests. -/
theorem shows_asks {scale : Option Int} {cursor : Int} {t : Terminal} {opening : List TerminalCall}
    (stretch : scale.getD 2 = k) (made : Terminal.create host scale cursor = .ok (t, opening)) (wrapping : Bool)
    (requests : List ((Int × Int) × Request)) :
    Shows host k (asks host ⟨.unsized wrapping, t, opening⟩ requests)
      ((Request.sizes (requests.map Prod.snd)).getLastD (0, 0))
      (((Request.sizes (requests.map Prod.snd)).filter (host.HasPad k)).getLastD (0, 0)) := by
  obtain ⟨has, -⟩ := Logged.has_of_create stretch made
  have start : Shows host k ⟨.unsized wrapping, t, opening⟩ (0, 0) (0, 0) := by
    refine ⟨rfl, rfl, has, fun _ => rfl, fun _ => ⟨rfl, ?_⟩⟩
    intro _ x y j hx
    cases hx
  have all := Screen.last_sizes (fun (c : Console) (r : (Int × Int) × Request) =>
    c.ask host.room (Logged.obey host r.1) r.2) (fun r => r.2.size?) (host.HasPad k) (P := Shows host k)
    (fun other shows => shows.ask _ other) (fun {_ r _ _ new} sized shows => ?_) requests start
  · rw [Request.sizes, List.filterMap_map]
    exact all
  · have resized : r.2 = .resize new.1 new.2 := by
      revert sized
      cases r.2 <;> simp [Request.size?]
      rintro rfl
      exact ⟨rfl, rfl⟩
    rw [resized]
    exact shows.resize _ new

/-- What is written is plain, and a title stays on the first line. Titles stay on the pad, clear of its last
    column, and so do pixels if there is a pad for the size that was asked for last. -/
theorem Shows.inside (shows : Shows host k c asked granted) {size : Int × Int} {r : Request} {t : Terminal}
    {calls : List TerminalCall} (answered : c.answer host size r = .ok (t, calls)) {line column : Int} {text : String}
    {reverse : Bool} (mem : .write line column text reverse ∈ calls) :
    IsPlain text ∧ ((∃ fps ops, r = .report fps ops) → line = 0) ∧
      ((∃ fps ops, r = .report fps ops) ∨ host.HasPad k asked →
        0 ≤ line ∧ line ≤ granted.2 ∧ 0 ≤ column ∧ column + text.length ≤ granted.1 * k) := by
  obtain ⟨s, command, asks, step⟩ := c.screen.asked host.room r
  rw [answer, asks] at answered
  cases step with
  | sized fits =>
    simp only [Terminal.apply, Terminal.resized] at answered
    split at answered
    · cases answered
      simp at mem
    · cases answered
  | noRoom | drawn =>
    cases answered
    cases mem
  | reported fps ops =>
    simp only [Terminal.apply_title] at answered
    rcases run : Terminal.checkRun host.room (c.display.terminal.width * c.display.terminal.scale) with f | _
    all_goals rw [run] at answered
    · cases answered
    · cases answered
      cases List.mem_singleton.mp mem
      have wide : c.display.terminal.width * c.display.terminal.scale = (granted.1 * k : Nat) := by
        rw [shows.terminal.width, shows.terminal.scale, Int.natCast_mul]
      rw [wide, Terminal.length_fitted, Int.natCast_mul]
      exact ⟨Terminal.isPlain_fitted (isPlain_title fps ops) _, fun _ => rfl, fun _ => by omega⟩
  | framed =>
    have untitled : ¬∃ fps ops, Request.refresh = .report fps ops := nofun
    refine ⟨?_, fun title => absurd title untitled, ?_⟩
    · by_cases nowhere : c.screen.dirty = true ∧ c.display.terminal.HasNoPlace c.screen.plane
      · simp only [Screen.frame, nowhere.1, Terminal.apply_frame_of_hasNoPlace host size nowhere.2] at answered
        cases answered
      · obtain ⟨calls', done, pixels, -, -⟩ := shows.terminal.framed host size _ _ nowhere
        have same := done.symm.trans answered
        cases same
        obtain ⟨_, _, call⟩ := List.mem_map.mp (pixels _ mem ⟨_, _, _, _, rfl⟩).2
        cases call
        exact c.display.terminal.isPlain_cell
    · rintro (title | pad)
      · exact absurd title untitled
      · obtain rfl := shows.same pad
        obtain ⟨calls', done, pixels, -, -⟩ := (shows.agrees pad).answer_refresh shows.terminal host size
        have same := done.symm.trans answered
        cases same
        obtain ⟨_, _, _, call, low, high, left, right⟩ := Terminal.mem_pixelCalls shows.terminal.scale
          shows.terminal.width (shows.agrees pad).size (pixels _ mem ⟨_, _, _, _, rfl⟩)
        cases call
        exact ⟨by omega, high, left, right⟩

end Console

end Display

end Chip8
