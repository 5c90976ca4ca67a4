/-
  Chip8.Proofs.Displays — what the host shows is the screen.

  The bytes of a window are the colours of the plane, three bytes a pixel, whenever the screen is not
  marked, and a frame makes them so (`Viewer.Shows`, `Shows.framed`). There are sizes that the screen takes and
  the window does not, for a pixel is one byte to the screen and three to the window. Until the screen is given
  another size the two then differ in their sizes, and what they hold is not compared.

  With the pad of a text terminal (`Pads`), after every frame both displays show the screen, if the host has room
  for the size that was asked for last (`displays_show_screen`). If it has none, they need not
  (`terminal_without_pad_shows_old_screen`).
-/
import Chip8.Display.Window
import Chip8.Proofs.Pads

namespace Chip8.Display

open Screen (Request)

/-! ## Pictures -/

namespace Colour

/-- The colour with this number in a list of bytes, three a colour. -/
def ofBytes (bytes : Array UInt8) (number : Nat) : Colour :=
  ⟨bytes.getD (3 * number) 0, bytes.getD (3 * number + 1) 0, bytes.getD (3 * number + 2) 0⟩

theorem ofBytes_flatMap {colours : List Colour} {number : Nat} {c : Colour} (held : colours[number]? = some c) :
    ofBytes (colours.flatMap toList).toArray number = c := by
  induction colours generalizing number with
  | nil => cases held
  | cons first rest ih =>
    cases number with
    | zero =>
      rw [List.getElem?_cons_zero, Option.some.injEq] at held
      rw [← held]
      rfl
    | succ number =>
      have shift i : ((first :: rest).flatMap toList).toArray.getD (i + 3) 0 = (rest.flatMap toList).toArray.getD i 0 := by
        simp [Array.getD_eq_getD_getElem?, toList]
      rw [← ih held]
      simp only [ofBytes, Colour.mk.injEq]
      exact ⟨shift (3 * number), shift (3 * number + 1), shift (3 * number + 2)⟩

theorem length_flatMap (colours : List Colour) : (colours.flatMap toList).length = 3 * colours.length := by
  induction colours with
  | nil => rfl
  | cons first rest ih =>
    rw [List.flatMap_cons, List.length_append, ih, List.length_cons]
    show 3 + _ = _
    omega

end Colour

namespace Palette

def shade (p : Palette) (pixel : UInt8) : Colour := if pixel = 0 then p.background else p.foreground

def picture (p : Palette) (plane : Memory) : Array UInt8 :=
  ((plane.bytes.toList.map p.shade).flatMap Colour.toList).toArray

theorem size_picture (p : Palette) (plane : Memory) : (p.picture plane).size = 3 * plane.bytes.size := by
  rw [picture, List.size_toArray, Colour.length_flatMap, List.length_map, Array.length_toList]

theorem ofBytes_picture (p : Palette) {plane : Memory} {number : Nat} (inside : number < plane.bytes.size) :
    Colour.ofBytes (p.picture plane) number = p.shade (plane.byteAt number) := by
  apply Colour.ofBytes_flatMap
  rw [List.getElem?_map, Memory.getElem?_bytes inside]
  rfl

theorem colourOf?_eq (p : Palette) {pixel : UInt8} (binary : pixel = 0 ∨ pixel = 1) :
    p.colourOf? pixel = some (p.shade pixel) := by
  rcases binary with rfl | rfl <;> rfl

theorem mapM_colourOf? (p : Palette) {pixels : List UInt8} (binary : ∀ b ∈ pixels, b = 0 ∨ b = 1) :
    pixels.mapM p.colourOf? = some (pixels.map p.shade) := by
  induction pixels with
  | nil => rfl
  | cons pixel rest ih =>
    obtain ⟨first, others⟩ := List.forall_mem_cons.mp binary
    rw [List.mapM_cons, p.colourOf?_eq first, ih others]
    rfl

end Palette

/-! ## Calls of a window -/

namespace Window

variable {window : Window} {w h : Nat}

theorem colours?_eq (window : Window) {s : Screen} (binary : s.Binary) :
    window.colours? s.plane.bytes.toList = some (window.palette.picture s.plane) := by
  have each : ∀ b ∈ s.plane.bytes.toList, b = 0 ∨ b = 1 := fun b mem => binary b (Array.mem_toList_iff.mp mem)
  rw [colours?, window.palette.mapM_colourOf? each]
  rfl

theorem resized_of_fits {host : Host} (window : Window) (fits : Size.Fits host.room (3 * (w * h))) :
    ∃ rgb, window.resized host w h = .ok { window with width := w, height := h, rgb := rgb } ∧
      rgb.size = 3 * (w * h) := by
  have wide : (0 : Int) ≤ w * h := Int.natCast_mul w h ▸ Int.natCast_nonneg _
  have countable : Size.Countable ((w : Int) * h) := by
    have triple := fits.1
    unfold Size.Countable at triple ⊢
    omega
  have count : max ((w : Int) * h) 0 * (3 : Nat) = 3 * (w * h) := by omega
  have number : (3 * ((w : Int) * h)).toNat = 3 * (w * h) := by
    rw [← Int.natCast_mul]
    omega
  have bytes : Size.ofCopies host.room (w * h) 3 = .ok (3 * (w * h)) := by
    rw [Size.ofCopies, if_neg (not_not_intro countable), count, Size.ofBytes_of_fits fits, number]
  refine ⟨((List.replicate (3 * (w * h) / 3) window.palette.background.toList).flatten).toArray, ?_, ?_⟩
  · unfold resized
    simp only [show window.palette.background.toList.length = 3 from rfl, bytes]
    rfl
  · simp [Colour.toList, Nat.mul_comm]

theorem resized_of_not_fits {host : Host} (window : Window) (large : ¬Size.Fits host.room (3 * (w * h))) :
    ∃ e, window.resized host w h = .error e := by
  have wide : (0 : Int) ≤ w * h := Int.natCast_mul w h ▸ Int.natCast_nonneg _
  have count : max ((w : Int) * h) 0 * (3 : Nat) = 3 * (w * h) := by omega
  have refused : ∃ e, Size.ofCopies host.room (w * h) 3 = .error e := by
    unfold Size.ofCopies
    split
    · exact ⟨_, rfl⟩
    · rw [count]
      exact Size.ofBytes_of_not_fits large
  obtain ⟨e, refused⟩ := refused
  refine ⟨.badPicture e, ?_⟩
  unfold resized
  simp only [show window.palette.background.toList.length = 3 from rfl, refused]
  rfl

/-- A picture of the right size takes its colours. It is drawn unless one of its sides has more than 32 bits. -/
theorem draw_eq {pixels : List UInt8} {rgb : Array UInt8} (colours : window.colours? pixels = some rgb)
    (width : window.width = w) (height : window.height = h) (wide : 0 < w) (high : 0 < h)
    (size : rgb.size = 3 * (w * h)) :
    (window.draw pixels).1.rgb = rgb ∧ (Size.Short w ∧ Size.Short h → (window.draw pixels).2 = none) := by
  have whole : 0 < (w : Int) ∧ 0 < (h : Int) ∧ (rgb.size : Int) = 3 * w * h := by
    rw [size, Int.mul_assoc]
    exact ⟨by omega, by omega, by push_cast; rfl⟩
  rw [draw, colours]
  simp only [width, height]
  by_cases short : Size.Short w ∧ Size.Short h
  · rw [if_neg (not_not_intro short), if_pos whole]
    exact ⟨rfl, fun _ => rfl⟩
  · rw [if_pos short]
    exact ⟨rfl, fun all => absurd all short⟩

structure Alike (window other : Window) : Prop where
  palette : other.palette = window.palette
  width : other.width = window.width
  height : other.height = window.height

theorem Alike.refl (window : Window) : window.Alike window := ⟨rfl, rfl, rfl⟩

theorem alike_draw (window : Window) (pixels : List UInt8) : window.Alike (window.draw pixels).1 := by
  unfold draw
  split
  · exact ⟨rfl, rfl, rfl⟩
  · simp only
    split
    · exact ⟨rfl, rfl, rfl⟩
    · split <;> exact ⟨rfl, rfl, rfl⟩

theorem alike_frame (host : Host) (window : Window) (pixels : Array UInt8) (dirty : Bool) :
    window.Alike (window.apply host (.frame pixels dirty)).1 := by
  unfold apply
  simp only
  by_cases redraws : (dirty && window.width != 0 && window.height != 0) = true
  · rw [if_pos redraws]
    have drawn := window.alike_draw pixels.toList
    rcases drew : window.draw pixels.toList with ⟨after, _ | e⟩
    · rw [drew] at drawn
      exact ⟨drawn.palette, drawn.width, drawn.height⟩
    · rw [drew] at drawn
      exact drawn
  · rw [if_neg redraws]
    exact ⟨rfl, rfl, rfl⟩

theorem alike_title (host : Host) (window : Window) (text : String) :
    window.Alike (window.apply host (.title text)).1 := by
  unfold apply
  simp only
  split <;> exact ⟨rfl, rfl, rfl⟩

theorem rgb_title (host : Host) (window : Window) (text : String) :
    (window.apply host (.title text)).1.rgb = window.rgb := by
  unfold apply
  simp only
  split <;> rfl

end Window

/-! ## A screen and its window -/

/-- Is there room for the picture of a size, three bytes a pixel? -/
def Host.HasPicture (host : Host) (size : Nat × Nat) : Prop := Size.Fits host.room (3 * (size.1 * size.2))

instance (host : Host) : DecidablePred host.HasPicture := fun _ => inferInstanceAs (Decidable (Size.Fits _ _))

theorem Host.HasPicture.plane {host : Host} {size : Nat × Nat} (fits : host.HasPicture size) :
    Size.Fits host.room (size.1 * size.2) := by
  have wide : (0 : Int) ≤ size.1 * size.2 := Int.natCast_mul size.1 size.2 ▸ Int.natCast_nonneg _
  obtain ⟨countable, low, high⟩ := fits
  unfold Size.Countable at countable
  exact ⟨⟨by omega, by omega⟩, wide, by omega⟩

abbrev Viewer := Screen.Attached Window

namespace Viewer

def asks (host : Host) (v : Viewer) (requests : List Request) : Viewer :=
  requests.foldl (Screen.Attached.ask host.room (Window.apply host)) v

/-- Has the plane this size, and do the bytes have three times as many? Are they its colours unless the screen is
    marked? -/
structure Agrees (v : Viewer) (p : Palette) (shape : Nat × Nat) : Prop where
  size : v.screen.plane.bytes.size = shape.1 * shape.2
  bytes : v.display.rgb.size = 3 * (shape.1 * shape.2)
  picture : v.screen.dirty = false → v.display.rgb = p.picture v.screen.plane

/-- Has the screen the size that was asked for last, and the window the last one that there was room for? Do they
    agree if the two are the same? -/
structure Shows (host : Host) (p : Palette) (v : Viewer) (asked granted : Nat × Nat) : Prop where
  width : v.screen.width = asked.1
  height : v.screen.height = asked.2
  binary : v.screen.Binary
  palette : v.display.palette = p
  columns : v.display.width = granted.1
  rows : v.display.height = granted.2
  same : host.HasPicture asked → granted = asked
  agrees : host.HasPicture asked → v.Agrees p asked

variable {host : Host} {v : Viewer} {p : Palette} {asked granted : Nat × Nat}

/-- A frame makes the bytes the colours of the plane, and it is drawn unless a side has more than 32 bits. -/
theorem Shows.framed (shows : Shows host p v asked granted) (fits : host.HasPicture asked) :
    (v.display.apply host v.screen.frame.2).1.rgb = p.picture v.screen.plane ∧
      (Size.Short asked.1 ∧ Size.Short asked.2 → (v.display.apply host v.screen.frame.2).2 = none) := by
  obtain rfl := shows.same fits
  have agrees := shows.agrees fits
  have colours := v.display.colours?_eq shows.binary
  rw [shows.palette] at colours
  have count : (p.picture v.screen.plane).size = 3 * (granted.1 * granted.2) := by rw [p.size_picture, agrees.size]
  unfold Screen.frame Window.apply
  simp only
  by_cases redraws : (v.screen.dirty && v.display.width != 0 && v.display.height != 0) = true
  · have wide : 0 < granted.1 ∧ 0 < granted.2 := by
      simp only [shows.columns, shows.rows, Bool.and_eq_true, bne_iff_ne] at redraws
      omega
    have drawn := Window.draw_eq colours shows.columns shows.rows wide.1 wide.2 count
    rw [if_pos redraws]
    rcases drew : v.display.draw v.screen.plane.bytes.toList with ⟨window, _ | e⟩
    all_goals rw [drew] at drawn
    · exact ⟨drawn.1, fun _ => rfl⟩
    · exact drawn
  · rw [if_neg redraws]
    refine ⟨?_, fun _ => rfl⟩
    show v.display.rgb = _
    by_cases dirty : v.screen.dirty = true
    · have empty : granted.1 * granted.2 = 0 := by
        rw [Nat.mul_eq_zero]
        simp only [dirty, shows.columns, shows.rows, Bool.true_and, Bool.and_eq_true, bne_iff_ne] at redraws
        omega
      have none := agrees.bytes
      rw [empty] at none count
      rw [Array.eq_empty_of_size_eq_zero none, Array.eq_empty_of_size_eq_zero count]
    · rw [Bool.not_eq_true] at dirty
      exact agrees.picture dirty

/-- A window with other things than its colours, its size and its bytes changed. -/
theorem Shows.withDisplay (shows : Shows host p v asked granted) {window : Window} (alike : v.display.Alike window)
    (rgb : window.rgb = v.display.rgb) : Shows host p ⟨v.screen, window⟩ asked granted :=
  { shows with
    palette := alike.palette.trans shows.palette
    columns := alike.width.trans shows.columns
    rows := alike.height.trans shows.rows
    agrees := fun fits =>
      ⟨(shows.agrees fits).size, rgb ▸ (shows.agrees fits).bytes, fun clean => rgb.trans ((shows.agrees fits).picture clean)⟩ }

/-- Nothing but the window's answer to the size that was asked for last keeps the two apart. -/
theorem Shows.ask (shows : Shows host p v asked granted) {r : Request} (other : r.size? = none) :
    Shows host p (v.ask host.room (Window.apply host) r) asked granted := by
  obtain ⟨s, command, answered, step⟩ := v.screen.asked host.room r
  cases step with
  | sized | noRoom => cases other
  | drawn _ drawn =>
    rw [Screen.Attached.ask_untold answered]
    refine { shows with
      width := drawn.width.trans shows.width
      height := drawn.height.trans shows.height
      binary := drawn.binary shows.binary
      agrees := fun fits => ⟨drawn.size.trans (shows.agrees fits).size, (shows.agrees fits).bytes, ?_⟩ }
    intro clean
    rcases drawn.kept with dirty | ⟨plane, mark⟩
    · rw [clean] at dirty
      cases dirty
    · rw [plane]
      exact (shows.agrees fits).picture (mark ▸ clean)
  | reported fps ops =>
    have alike := v.display.alike_title host (About.title fps ops)
    have rgb := v.display.rgb_title host (About.title fps ops)
    rcases told : v.display.apply host (.title (About.title fps ops)) with ⟨window, _ | e⟩
    all_goals rw [told] at alike rgb
    · rw [Screen.Attached.ask_taken answered told]
      exact shows.withDisplay alike rgb
    · rw [Screen.Attached.ask_refused answered told]
      exact shows.withDisplay alike rgb
  | framed =>
    have alike := v.display.alike_frame host v.screen.plane.bytes v.screen.dirty
    have framed := shows.framed
    rcases told : v.display.apply host v.screen.frame.2 with ⟨window, _ | e⟩
    all_goals
      rw [show v.display.apply host (.frame v.screen.plane.bytes v.screen.dirty) = _ from told] at alike
      rw [told] at framed
      have count (fits : host.HasPicture asked) : window.rgb.size = 3 * (asked.1 * asked.2) := by
        rw [(framed fits).1, p.size_picture, (shows.agrees fits).size]
    · rw [Screen.Attached.ask_taken answered told]
      exact ⟨shows.width, shows.height, shows.binary, alike.palette.trans shows.palette, alike.width.trans shows.columns,
        alike.height.trans shows.rows, shows.same,
        fun fits => ⟨(shows.agrees fits).size, count fits, fun _ => (framed fits).1⟩⟩
    · rw [Screen.Attached.ask_refused answered told]
      exact ⟨shows.width, shows.height, shows.binary, alike.palette.trans shows.palette, alike.width.trans shows.columns,
        alike.height.trans shows.rows, shows.same,
        fun fits => ⟨(shows.agrees fits).size, count fits, fun _ => (framed fits).1⟩⟩

/-- A size is taken by both, or by the screen alone. -/
theorem Shows.resize (shows : Shows host p v asked granted) (new : Nat × Nat) :
    Shows host p (v.ask host.room (Window.apply host) (.resize new.1 new.2)) new
      (if host.HasPicture new then new else granted) := by
  obtain ⟨s, command, answered, step⟩ := v.screen.asked host.room (.resize new.1 new.2)
  have blank : ∀ b ∈ (Memory.zeros (new.1 * new.2)).bytes, b = 0 ∨ b = 1 :=
    fun b mem => .inl (Array.eq_of_mem_replicate mem)
  cases step with
  | sized _ =>
    by_cases fits : host.HasPicture new
    · obtain ⟨rgb, resized, count⟩ := v.display.resized_of_fits fits
      have taken : v.display.apply host (.resolution new.1 new.2) =
          ({ v.display with width := new.1, height := new.2, rgb := rgb }, none) := by
        rw [Window.apply, resized]
      rw [Screen.Attached.ask_taken answered taken, if_pos fits]
      exact ⟨rfl, rfl, blank, shows.palette, rfl, rfl, fun _ => rfl, fun _ => ⟨by simp [Memory.zeros], count, nofun⟩⟩
    · obtain ⟨e, refused⟩ := v.display.resized_of_not_fits fits
      have untaken : v.display.apply host (.resolution new.1 new.2) = (v.display, some e) := by
        rw [Window.apply, refused]
      rw [Screen.Attached.ask_refused answered untaken, if_neg fits]
      exact ⟨rfl, rfl, blank, shows.palette, shows.columns, shows.rows, fun has => absurd has fits,
        fun has => absurd has fits⟩
  | noRoom large =>
    have apart : ¬host.HasPicture new := fun fits => large fits.plane
    rw [Screen.Attached.ask_untold answered, if_neg apart]
    exact ⟨rfl, rfl, shows.binary, shows.palette, shows.columns, shows.rows, fun has => absurd has apart,
      fun has => absurd has apart⟩
  | drawn other => cases other

theorem shows_asks {side : Option Int} {palette : Option String} {window : Window}
    (opened : Window.create host side palette = .ok window) (wrapping : Bool) (requests : List Request) :
    Shows host window.palette (asks host ⟨.unsized wrapping, window⟩ requests)
      ((Request.sizes requests).getLastD (0, 0)) (((Request.sizes requests).filter host.HasPicture).getLastD (0, 0)) := by
  have empty : window.width = 0 ∧ window.height = 0 ∧ window.rgb = #[] := by
    unfold Window.create at opened
    rcases mode : host.mode (Window.size (side.getD Window.defaultScale)) with e | surface
    · simp only [mode] at opened
      cases opened
    · simp only [mode] at opened
      cases palette with
      | none =>
        cases opened
        exact ⟨rfl, rfl, rfl⟩
      | some text =>
        rcases read : Palette.parse text.toList with e | colours
        · simp only [read] at opened
          cases opened
        · simp only [read] at opened
          cases opened
          exact ⟨rfl, rfl, rfl⟩
  obtain ⟨width, height, bytes⟩ := empty
  have start : Shows host window.palette ⟨.unsized wrapping, window⟩ (0, 0) (0, 0) :=
    ⟨rfl, rfl, fun b mem => absurd mem (Array.not_mem_empty b), rfl, width, height, fun _ => rfl,
      fun _ => ⟨rfl, by rw [bytes]; rfl, fun _ => bytes⟩⟩
  refine Screen.last_sizes _ Request.size? host.HasPicture (P := Shows host window.palette)
    (fun other shows => shows.ask other) (fun {_ r _ _ new} sized shows => ?_) requests start
  have resized : r = .resize new.1 new.2 := by
    cases r <;> simp [Request.size?] at sized
    rw [← sized]
  rw [resized]
  exact shows.resize new

end Viewer

/-! ## Both displays -/

/-- After every frame both displays show the screen, whatever was asked of it and whatever sizes the text
    terminal had, if the host has room for the size that was asked for last.

    The pad has the last size that there was room for, with a line and a column more. The one that was copied
    last, for the terminal as it is, and left alone since holds each pixel as `k` spaces, in reverse video just if
    the pixel is set. All that is ever written is plain; titles stay on the first line of the pad and clear of its
    last column, and so do the pixels on the other lines. The bytes of a window are the colours of the pixels, in
    order. A new screen is one that was asked for two things (`Screen.asked_of_create`). -/
theorem displays_show_screen (host : Host) {scale : Option Int} {k : Nat} (stretch : scale.getD 2 = k) {cursor : Int}
    {t : Terminal} {opening : List TerminalCall} (made : Terminal.create host scale cursor = .ok (t, opening))
    {side : Option Int} {palette : Option String} {window : Window}
    (opened : Window.create host side palette = .ok window) (wrapping : Bool) :
    (∀ requests,
      let c := Console.asks host ⟨.unsized wrapping, t, opening⟩ requests
      let sizes := Request.sizes (requests.map Prod.snd)
      let asked := sizes.getLastD (0, 0)
      let granted := (sizes.filter (host.HasPad k)).getLastD (0, 0)
      c.screen.width = asked.1 ∧ c.screen.height = asked.2 ∧
        (Pad.ofCalls c.display.log).lines = granted.2 + 1 ∧ (Pad.ofCalls c.display.log).columns = granted.1 * k + 1 ∧
        (∀ size r t' calls (line column : Int) text reverse,
          c.answer host size r = .ok (t', calls) → .write line column text reverse ∈ calls →
            IsPlain text ∧ ((∃ fps ops, r = .report fps ops) → line = 0) ∧
              ((∃ fps ops, r = .report fps ops) ∨ host.HasPad k asked →
                0 ≤ line ∧ line ≤ granted.2 ∧ 0 ≤ column ∧ column + text.length ≤ granted.1 * k)) ∧
        (host.HasPad k asked → granted = asked ∧ ∀ size, ∃ t' calls before after,
          c.answer host size .refresh = .ok (t', calls) ∧
          c.display.log ++ calls = before ++ .copyPad (size.1 - 1) (size.2 - 1) :: after ∧
          (∀ call ∈ after, ¬call.IsForPad) ∧
          ∀ x y j : Nat, x < asked.1 → y < asked.2 → j < k →
            (Pad.ofCalls before).cell (y + 1) (x * k + j) = ⟨' ', c.screen.pixel x y != 0⟩)) ∧
    ∀ requests,
      let v := Viewer.asks host ⟨.unsized wrapping, window⟩ requests
      let asked := (Request.sizes requests).getLastD (0, 0)
      v.screen.width = asked.1 ∧ v.screen.height = asked.2 ∧
        (host.HasPicture asked →
          let shown := v.display.apply host v.screen.frame.2
          (Size.Short asked.1 ∧ Size.Short asked.2 → shown.2 = none) ∧
          shown.1.rgb.size = 3 * asked.1 * asked.2 ∧
          ∀ x y : Nat, x < asked.1 → y < asked.2 →
            Colour.ofBytes shown.1.rgb (y * asked.1 + x) =
              if v.screen.pixel x y = 0 then window.palette.background else window.palette.foreground) := by
  refine ⟨?_, ?_⟩
  · intro requests c sizes asked granted
    have shows : Console.Shows host k c asked granted := Console.shows_asks stretch made wrapping requests
    refine ⟨shows.width, shows.height, shows.terminal.lines, shows.terminal.columns, ?_, ?_⟩
    · intro size r t' calls line column text reverse answered mem
      exact shows.inside answered mem
    · intro pad
      refine ⟨shows.same pad, fun size => ?_⟩
      have agrees := shows.agrees pad
      rw [← shows.same pad] at agrees ⊢
      obtain ⟨calls, answered, -, ⟨before, after, same, others⟩, plane⟩ :=
        agrees.answer_refresh shows.terminal host size
      refine ⟨_, calls, before, after, answered, same, others, ?_⟩
      intro x y j hx hy hj
      rw [same, Terminal.ofCalls_of_copied others] at plane
      rw [Screen.pixel, shows.width, ← shows.same pad]
      exact plane x y j hx hy hj
  · intro requests v asked
    have shows : Viewer.Shows host window.palette v asked _ := Viewer.shows_asks opened wrapping requests
    refine ⟨shows.width, shows.height, fun fits => ?_⟩
    intro shown
    obtain ⟨rgb, drawn⟩ := shows.framed fits
    have size := (shows.agrees fits).size
    have rgb : shown.1.rgb = window.palette.picture v.screen.plane := rgb
    refine ⟨drawn, ?_, ?_⟩
    · rw [rgb, Palette.size_picture, size, Nat.mul_assoc]
    · intro x y hx hy
      have inside : y * asked.1 + x < v.screen.plane.bytes.size := by rw [size]; exact Screen.place_lt hx hy
      rw [rgb, Palette.ofBytes_picture _ inside, Screen.pixel, shows.width]
      push_cast
      rfl

/-! ## A pixel that is set -/

def newTerminal : Terminal := ⟨2, 0, 0, 0, 0, true, (-1, -1)⟩

def newCalls : List TerminalCall := [.start, .cursor 0, .echoOff, .lineBufferOff, .pad 1 1]

def newWindow : Window := ⟨640, (640, 320), .default, 0, 0, 0, Window.firstCaption, #[], none⟩

/-- One pixel of two is set when a terminal of another size than before gets a frame, and a window one. -/
theorem displays_show_screen_after_a_flip :
    Terminal.create .common none 0 = .ok (newTerminal, newCalls) ∧ Window.create .common none none = .ok newWindow ∧
      (let c := Console.asks .common ⟨.unsized false, newTerminal, newCalls⟩ [((24, 80), .resize 2 1), ((24, 80), .flip 1 0)]
        ∃ t' calls before after, c.answer .common (10, 40) .refresh = .ok (t', calls) ∧
          c.display.log ++ calls = before ++ .copyPad 9 39 :: after ∧
          (Pad.ofCalls before).cell 1 1 = ⟨' ', false⟩ ∧ (Pad.ofCalls before).cell 1 2 = ⟨' ', true⟩) ∧
      (let v := Viewer.asks .common ⟨.unsized false, newWindow⟩ [.resize 2 1, .flip 1 0]
        let shown := v.display.apply .common v.screen.frame.2
        shown.2 = none ∧ Colour.ofBytes shown.1.rgb 1 = Palette.default.foreground) := by
  have made : Terminal.create .common none 0 = .ok (newTerminal, newCalls) := rfl
  have opened : Window.create .common none none = .ok newWindow := rfl
  obtain ⟨onTerminal, inWindow⟩ := displays_show_screen .common (k := 2) rfl made opened false
  refine ⟨made, opened, ?_, ?_⟩
  · intro c
    obtain ⟨-, -, -, -, -, shows⟩ := onTerminal [((24, 80), .resize 2 1), ((24, 80), .flip 1 0)]
    have pad : Host.common.HasPad 2 (2, 1) := by decide
    obtain ⟨t', calls, before, after, answered, copied, -, cells⟩ := (shows pad).2 (10, 40)
    have dark := cells 0 0 1 (by decide) (by decide) (by decide)
    have lit := cells 1 0 0 (by decide) (by decide) (by decide)
    refine ⟨t', calls, before, after, answered, copied, dark.trans ?_, lit.trans ?_⟩
    · decide +kernel
    · decide +kernel
  · intro v shown
    obtain ⟨-, -, shows⟩ := inWindow [.resize 2 1, .flip 1 0]
    have fits : Host.common.HasPicture (2, 1) := by decide
    obtain ⟨drawn, -, colours⟩ := shows fits
    have lit := colours 1 0 (by decide) (by decide)
    refine ⟨drawn (by decide), lit.trans ?_⟩
    decide +kernel

/-- There is no pad for this many pixels in a row. The terminal goes on to show the pixel that was set, which the
    screen no longer has, on a pad for two. -/
theorem terminal_without_pad_shows_old_screen :
    let requests : List Request := [.resize 2 1, .flip 1 0, .refresh, .resize 20000 1]
    let c := Console.asks .common ⟨.unsized false, newTerminal, newCalls⟩ (requests.map fun r => ((24, 80), r))
    Terminal.create .common none 0 = .ok (newTerminal, newCalls) ∧ c.screen.width = 20000 ∧ c.screen.height = 1 ∧
      ∃ t' calls, c.answer .common (24, 80) .refresh = .ok (t', calls) ∧
        (Pad.ofCalls (c.display.log ++ calls)).columns = 5 ∧
        (Pad.ofCalls (c.display.log ++ calls)).cell 1 2 = ⟨' ', true⟩ ∧ c.screen.pixel 1 0 = 0 := by
  intro requests c
  let framed := Console.asks .common ⟨.unsized false, newTerminal, newCalls⟩
    [((24, 80), .resize 2 1), ((24, 80), .flip 1 0), ((24, 80), .refresh)]
  have noPad : framed.display.obey .common (24, 80) (.resolution (20000 : Nat) (1 : Nat)) =
      (framed.display, some .noPad) :=
    rfl
  have fits : Size.Fits Host.common.room ((20000 : Nat) * (1 : Nat)) := by decide
  have refused := Screen.Attached.ask_resize_of_refused fits noPad
  have state : c = framed.ask Host.common.room (Logged.obey .common (24, 80)) (.resize 20000 1) := by
    simp only [c, requests, framed, Console.asks, List.map_cons, List.map_nil, List.foldl_cons, List.foldl_nil]
  rw [refused] at state
  rw [state]
  refine ⟨rfl, rfl, rfl, _, _, rfl, ?_, ?_, Memory.byteAt_zeros _ _⟩
  · decide +kernel
  · decide +kernel

end Chip8.Display
