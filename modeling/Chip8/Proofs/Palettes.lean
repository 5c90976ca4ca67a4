/-
  Chip8.Proofs.Palettes — which texts are palettes, and which colours they give.

  A text gives numbers for colours if it is one or two numerals of six characters (`Gives`). Just such texts are
  read, and a number that is not negative is the three bytes of a colour (`parse_cases`). Six hexadecimal digits
  spell the bytes of their colour (`parse_of_spelled`), but they are not the only numerals of six characters: a sign,
  a base mark, white space or an underscore may stand for a digit. So some texts that spell no colours give some
  all the same, and a minus sign ends a session without a word (`session_of_palette`).
-/
import Chip8.Display.Window
import Chip8.Proofs.Numerals
import Chip8.Proofs.Preparing
import Mathlib.Data.List.Forall2

namespace Chip8

namespace Display

/-! ## Colours and numbers -/

namespace Colour

def number (c : Colour) : Nat := c.red.toNat * 0x10000 + c.green.toNat * 0x100 + c.blue.toNat

theorem ofInt?_number (c : Colour) : ofInt? c.number = some c := by
  have red := c.red.toNat_lt
  have green := c.green.toNat_lt
  have blue := c.blue.toNat_lt
  have byte (b : UInt8) {n : Int} (same : n = b.toNat) : UInt8.ofNat n.toNat = b := by
    rw [same, Int.toNat_natCast, UInt8.ofNat_toNat]
  have top : (c.number : Int) / 0x10000 = c.red.toNat := by unfold number; omega
  rw [ofInt?, byte c.red top, byte c.green (by unfold number; omega), byte c.blue (by unfold number; omega)]
  exact if_pos (by omega)

theorem number_injective : Function.Injective number := by
  intro c d same
  have colours := ofInt?_number c
  rw [same, ofInt?_number] at colours
  exact (Option.some.inj colours).symm

/-- The numbers of three bytes are those of colours. -/
theorem exists_number {n : Int} (least : 0 ≤ n) (most : n < 0x1000000) : ∃ c : Colour, n = c.number := by
  refine ⟨⟨UInt8.ofNat (n / 0x10000).toNat, UInt8.ofNat (n / 0x100 % 0x100).toNat, UInt8.ofNat (n % 0x100).toNat⟩, ?_⟩
  simp only [number, UInt8.toNat_ofNat']
  omega

end Colour

namespace Palette

def colours (p : Palette) : List Colour := [p.background, p.foreground]

/-! ## What a text gives -/

/-- Is a text made of these entries, one or two, with a comma between? -/
structure Entries (text : List Char) (entries : List (List Char)) : Prop where
  joined : text = [','].intercalate entries
  clean : ∀ entry ∈ entries, ',' ∉ entry
  count : entries.length = 1 ∨ entries.length = 2

/-- Does a text give these numbers, each as a numeral of six characters? -/
def Gives (text : List Char) (numbers : List Int) : Prop :=
  ∃ entries, Entries text entries ∧
    List.Forall₂ (fun entry n => entry.length = 6 ∧ Text.Numeral.int? .sixteen entry = some n) entries numbers

theorem entries_iff {text : List Char} {entries : List (List Char)} :
    Entries text entries ↔ Text.fields ',' text = entries ∧ entries.length ≤ 2 := by
  constructor
  · rintro ⟨joined, clean, count⟩
    have some : entries ≠ [] := by
      rintro rfl
      simp at count
    exact ⟨(Text.fields_eq_iff some).mpr ⟨joined, clean⟩, by omega⟩
  · rintro ⟨rfl, count⟩
    have some := Text.fields_ne_nil ',' text
    have positive := List.length_pos_of_ne_nil some
    obtain ⟨joined, clean⟩ := (Text.fields_eq_iff some).mp rfl
    exact ⟨joined, clean, by omega⟩

/-! ## Reading -/

/-- A list is gone through to its first failure. -/
theorem mapM_cases {ε α β : Type} (f : α → Except ε β) (l : List α) :
    (∃ a ∈ l, ∃ e, f a = .error e ∧ l.mapM f = .error e ∧ ∀ bs, ¬List.Forall₂ (fun a b => f a = .ok b) l bs) ∨
    ∃ bs, l.mapM f = .ok bs ∧ List.Forall₂ (fun a b => f a = .ok b) l bs := by
  induction l with
  | nil => exact .inr ⟨[], rfl, .nil⟩
  | cons a rest ih =>
    simp only [List.mapM_cons, bind, Except.bind]
    rcases first : f a with e | b
    · refine .inl ⟨a, List.mem_cons_self, e, first, rfl, ?_⟩
      rintro _ (_ | ⟨done, -⟩)
      rw [first] at done
      cases done
    · obtain ⟨c, mem, e, failed, stopped, none⟩ | ⟨bs, done, each⟩ := ih
      · refine .inl ⟨c, List.mem_cons_of_mem a mem, e, failed, by rw [stopped], ?_⟩
        rintro _ (_ | ⟨-, others⟩)
        exact none _ others
      · exact .inr ⟨b :: bs, by rw [done]; rfl, .cons first each⟩

theorem number_ok_iff {entry : List Char} {n : Int} :
    number entry = .ok n ↔ entry.length = 6 ∧ Text.Numeral.int? .sixteen entry = some n := by
  unfold number
  split
  · next long => exact ⟨nofun, fun fits => absurd fits.1 long⟩
  · next fits =>
    rcases Text.Numeral.int? .sixteen entry with _ | m
    · exact ⟨nofun, nofun⟩
    · simp only [Except.ok.injEq, Option.some.injEq]
      exact ⟨fun same => ⟨Decidable.not_not.mp fits, same⟩, And.right⟩

theorem reported_of_number {entry : List Char} {e : PaletteError} (refused : number entry = .error e) :
    e.isReported = true := by
  unfold number at refused
  repeat' split at refused
  all_goals cases refused
  all_goals rfl

theorem colour_number (c : Colour) : colour c.number = .ok c := by
  rw [colour, Colour.ofInt?_number]

theorem colour_of_neg {n : Int} (negative : n < 0) : colour n = .error .negative := by
  have none : Colour.ofInt? n = none := if_neg (by omega)
  rw [colour, none]

/-- The colours of numerals of six characters, if none is negative. -/
theorem colours_cases {entries : List (List Char)} {numbers : List Int}
    (each : List.Forall₂ (fun entry n => entry.length = 6 ∧ Text.Numeral.int? .sixteen entry = some n) entries
      numbers) :
    (∃ n ∈ numbers, n < 0) ∧ numbers.mapM colour = .error .negative ∨
    ∃ colours : List Colour, numbers = colours.map (fun c => (c.number : Int)) ∧ numbers.mapM colour = .ok colours := by
  induction each with
  | nil => exact .inr ⟨[], rfl, rfl⟩
  | @cons entry n _ rest first _ ih =>
    -- six digits are three bytes, so only the sign can keep a number from being a colour
    have short := Text.Numeral.natAbs_lt_of_int? first.2
    rw [first.1] at short
    simp only [Text.Numeral.Base.size] at short
    by_cases negative : n < 0
    · exact .inl ⟨⟨n, List.mem_cons_self, negative⟩, by rw [List.mapM_cons, colour_of_neg negative]; rfl⟩
    · obtain ⟨c, rfl⟩ := Colour.exists_number (n := n) (by omega) (by omega)
      obtain ⟨⟨m, mem, below⟩, failed⟩ | ⟨colours, rfl, done⟩ := ih
      · refine .inl ⟨⟨m, List.mem_cons_of_mem _ mem, below⟩, ?_⟩
        rw [List.mapM_cons, colour_number, failed]
        rfl
      · refine .inr ⟨c :: colours, rfl, ?_⟩
        rw [List.mapM_cons, colour_number, done]
        rfl

/-- A text that gives no numbers is refused. One that gives some is a palette of their colours, unless one of them
    is negative. -/
theorem parse_cases (text : List Char) :
    (∃ e, e.isReported = true ∧ parse text = .error e ∧ ∀ numbers, ¬Gives text numbers) ∨
    (∃ numbers, Gives text numbers ∧ (∃ n ∈ numbers, n < 0) ∧ parse text = .error .negative) ∨
    ∃ (cs : List Colour) (p : Palette), Gives text (cs.map fun c => (c.number : Int)) ∧ parse text = .ok p ∧
      p.colours = cs ++ default.colours.drop cs.length := by
  by_cases many : 2 < (Text.fields ',' text).length
  · refine .inl ⟨.tooMany, rfl, if_pos many, ?_⟩
    rintro numbers ⟨entries, split, -⟩
    obtain ⟨rfl, count⟩ := entries_iff.mp split
    omega
  have few := Nat.le_of_not_lt many
  obtain ⟨entry, -, e, refused, stopped, none⟩ | ⟨numbers, done, each⟩ := mapM_cases number (Text.fields ',' text)
  · refine .inl ⟨e, reported_of_number refused, ?_, ?_⟩
    · simp only [parse, if_neg many, stopped, bind, Except.bind]
    · rintro numbers ⟨entries, split, each⟩
      obtain ⟨rfl, -⟩ := entries_iff.mp split
      exact none numbers (each.imp fun _ _ => number_ok_iff.mpr)
  · simp only [number_ok_iff] at each
    have gives : Gives text numbers := ⟨_, entries_iff.mpr ⟨rfl, few⟩, each⟩
    obtain ⟨negative, failed⟩ | ⟨cs, rfl, made⟩ := colours_cases each
    · refine .inr (.inl ⟨numbers, gives, negative, ?_⟩)
      simp only [parse, if_neg many, done, failed, bind, Except.bind]
    · have count : cs.length = 1 ∨ cs.length = 2 := by
        have same := each.length_eq
        have positive := List.length_pos_of_ne_nil (Text.fields_ne_nil ',' text)
        rw [List.length_map] at same
        omega
      suffices shown : ∃ p, parse text = .ok p ∧ p.colours = cs ++ default.colours.drop cs.length by
        obtain ⟨p, parsed, colours⟩ := shown
        exact .inr (.inr ⟨cs, p, gives, parsed, colours⟩)
      simp only [parse, if_neg many, done, made, bind, Except.bind]
      rcases count with one | two
      · obtain ⟨c, rfl⟩ := List.length_eq_one_iff.mp one
        exact ⟨_, rfl, rfl⟩
      · obtain ⟨c, d, rfl⟩ := List.length_eq_two.mp two
        exact ⟨_, rfl, rfl⟩

/-- A text gives one list of numbers at most. -/
theorem Gives.unique {text : List Char} {numbers others : List Int} (one : Gives text numbers)
    (other : Gives text others) : numbers = others := by
  obtain ⟨entries, split, each⟩ := one
  obtain ⟨again, also, every⟩ := other
  obtain rfl : entries = again := (entries_iff.mp split).1.symm.trans (entries_iff.mp also).1
  have functional : Relator.RightUnique fun (entry : List Char) (n : Int) =>
      entry.length = 6 ∧ Text.Numeral.int? .sixteen entry = some n := by
    intro entry n m first second
    exact Option.some.inj (first.2.symm.trans second.2)
  exact functional.forall₂ each every

/-! ## Hexadecimal colours -/

def Spelled (entry : List Char) : Prop := entry.length = 6 ∧ entry ⊆ Text.Numeral.hexDigits

instance (entry : List Char) : Decidable (Spelled entry) := inferInstanceAs (Decidable (_ ∧ _))

theorem value_of_hex {c : Char} (hex : c ∈ Text.Numeral.hexDigits) : Text.Hex.value c < 16 := by
  have all : Text.Numeral.hexDigits.all (fun c => decide (Text.Hex.value c < 16)) = true := by decide
  exact of_decide_eq_true (List.all_eq_true.mp all c hex)

/-- Six hexadecimal digits are the numeral of the colour whose bytes they spell. -/
theorem int?_of_spelled {entry : List Char} (spelled : Spelled entry) :
    ∃ c : Colour, Text.Numeral.int? .sixteen entry = some ↑c.number ∧ c.toList = Text.Hex.read entry := by
  obtain ⟨six, hex⟩ := spelled
  have some : entry ≠ [] := by
    rintro rfl
    cases six
  rw [Text.Numeral.int?_of_hex hex some]
  match entry, six with
  | [a, b, c, d, e, f], _ =>
    simp only [List.cons_subset] at hex
    obtain ⟨a', b', c', d', e', f', -⟩ := hex
    have := value_of_hex a'
    have := value_of_hex b'
    have := value_of_hex c'
    have := value_of_hex d'
    have := value_of_hex e'
    have := value_of_hex f'
    refine ⟨⟨UInt8.ofNat (Text.Hex.value a * 16 + Text.Hex.value b),
      UInt8.ofNat (Text.Hex.value c * 16 + Text.Hex.value d),
      UInt8.ofNat (Text.Hex.value e * 16 + Text.Hex.value f)⟩, ?_, rfl⟩
    simp only [Colour.number, Text.Hex.number, List.foldl_cons, List.foldl_nil, UInt8.toNat_ofNat', Option.some.injEq]
    omega

/-- A text of one or two colours in six hexadecimal digits each is a palette of the bytes that they spell. -/
theorem parse_of_spelled {text : List Char} {entries : List (List Char)} (split : Entries text entries)
    (spelled : ∀ entry ∈ entries, Spelled entry) :
    ∃ (cs : List Colour) (p : Palette), Gives text (cs.map fun c => (c.number : Int)) ∧ parse text = .ok p ∧
      cs.map Colour.toList = entries.map Text.Hex.read ∧ p.colours = cs ++ default.colours.drop cs.length := by
  obtain ⟨cs, each, bytes⟩ : ∃ cs : List Colour,
      List.Forall₂ (fun entry n => entry.length = 6 ∧ Text.Numeral.int? .sixteen entry = some n) entries
        (cs.map fun c => (c.number : Int)) ∧ cs.map Colour.toList = entries.map Text.Hex.read := by
    clear split
    induction entries with
    | nil => exact ⟨[], .nil, rfl⟩
    | cons entry rest ih =>
      obtain ⟨first, others⟩ := List.forall_mem_cons.mp spelled
      obtain ⟨c, read, bytes⟩ := int?_of_spelled first
      obtain ⟨cs, each, more⟩ := ih others
      exact ⟨c :: cs, .cons ⟨first.1, read⟩ each, by rw [List.map_cons, List.map_cons, bytes, more]⟩
  have gives : Gives text (cs.map fun c => (c.number : Int)) := ⟨entries, split, each⟩
  obtain ⟨e, -, -, none⟩ | ⟨numbers, also, ⟨n, mem, negative⟩, -⟩ | ⟨ds, p, also, parsed, colours⟩ := parse_cases text
  · exact absurd gives (none _)
  · rw [← gives.unique also] at mem
    obtain ⟨c, -, rfl⟩ := List.mem_map.mp mem
    omega
  · have injective : Function.Injective fun c : Colour => (c.number : Int) :=
      fun c d same => Colour.number_injective (Int.natCast_inj.mp same)
    obtain rfl : cs = ds := List.map_injective_iff.mpr injective (gives.unique also)
    exact ⟨cs, p, gives, parsed, bytes, colours⟩

end Palette

/-! ## Windows -/

namespace Window

variable {host : Host} {scale : Option Int} {surface : Int × Int}
  (sized : host.mode (size (scale.getD defaultScale)) = .ok surface) {text : String}
include sized

theorem create_of_parse {p : Palette} (parsed : Palette.parse text.toList = .ok p) :
    ∃ window, create host scale (some text) = .ok window ∧ window.palette = p := by
  refine ⟨⟨scale.getD defaultScale, surface, p, 0, 0, 0, firstCaption, #[], none⟩, ?_, rfl⟩
  simp only [create, sized, parsed, Session.mapError_ok, bind, Except.bind]
  rfl

theorem create_of_refused {e : PaletteError} (refused : Palette.parse text.toList = .error e) :
    create host scale (some text) = .error (.palette e) := by
  simp only [create, sized, refused, Session.mapError_ok, Session.mapError_error, bind, Except.bind]

end Window

end Display

namespace Session

open Display

/-- Has a session asked for a window of a fair size, in the colours of a text? -/
structure Coloured (w : World) (s : Entry → Setting) (width : Option Int) (text : String) : Prop where
  program : ∃ rom, (Arguments.ofEntries s).program w = .ok rom
  window : ∃ buzzer, (Arguments.ofEntries s).frontend w = .ok (.window, buzzer)
  scale : width? (s .scale) = .ok width
  size : ∃ surface, w.host.mode (Window.size (width.getD Window.defaultScale)) = .ok surface
  palette : (s .palette).text? = some text

/-- Has a session opened a window in these colours, and the default ones behind them? -/
def Shows (host : Host) (report : Report) (width : Option Int) (text : String) (cs : List Colour) : Prop :=
  .opened .display ∈ report.log ∧ ∃ window, Window.create host width (some text) = .ok window ∧
    window.palette.colours = cs ++ Palette.default.colours.drop cs.length

namespace Coloured

variable {w : World} {s : Entry → Setting} {width : Option Int} {text : String} (h : Coloured w s width text)
include h

theorem plan_eq : ∃ plan, (Arguments.ofEntries s).plan w = .ok plan ∧ plan.frontend = .window := by
  obtain ⟨rom, loaded⟩ := h.program
  obtain ⟨buzzer, front⟩ := h.window
  obtain ⟨d, speaks⟩ : ∃ d, (Arguments.ofEntries s).dialect = .ok d := ⟨_, rfl⟩
  refine ⟨⟨d, rom, .window, buzzer⟩, ?_, rfl⟩
  rw [Arguments.plan, front, loaded, speaks]
  rfl

theorem openDisplay_eq : openDisplay w.host .window (look s) =
    ((Window.create w.host width (some text)).mapError windowTrouble).map .window := by
  have given : s .palette ≠ .unset := by
    intro unset
    have palette := h.palette
    rw [unset] at palette
    cases palette
  simp only [openDisplay, look, openWindow, h.scale, h.palette, bind, Except.bind]

theorem shows_of_parse {p : Palette} (parsed : Palette.parse text.toList = .ok p) {cs : List Colour}
    (colours : p.colours = cs ++ Palette.default.colours.drop cs.length) (fuel : Nat) :
    Shows w.host (run fuel w (.ofEntries s)) width text cs := by
  obtain ⟨surface, sized⟩ := h.size
  obtain ⟨plan, planned, chosen⟩ := h.plan_eq
  obtain ⟨window, made, rfl⟩ := Window.create_of_parse sized parsed
  have shown : openDisplay w.host plan.frontend (look s) = .ok (.window window) := by
    rw [chosen, h.openDisplay_eq, made]
    rfl
  exact ⟨display_mem_log planned shown fuel, window, made, colours⟩

/-- Without a palette a session ends as the window's trouble says. -/
theorem run_of_refused {e : PaletteError} (refused : Palette.parse text.toList = .error e) (fuel : Nat) :
    ∃ choice, run fuel w (.ofEntries s) =
      .troubled choice [.began .display] [] banner (windowTrouble (.palette e)) := by
  obtain ⟨surface, sized⟩ := h.size
  obtain ⟨plan, planned, chosen⟩ := h.plan_eq
  have failed : openDisplay w.host plan.frontend (look s) = .error (windowTrouble (.palette e)) := by
    rw [chosen, h.openDisplay_eq, Window.create_of_refused sized refused]
    rfl
  exact ⟨_, run_of_error (prepare_of_noDisplay planned failed) fuel⟩

end Coloured

/-- A text is a palette just if it is one or two numerals of six characters, none below zero, with a comma
    between. Then a window shows the colours of the numbers, which are spelled out where all the characters are
    hexadecimal digits, and the default ones behind them. Where the text gives no numbers the user is told, with
    status one; where it gives one below zero, the session breaks off without a word. -/
theorem session_of_palette {w : World} {s : Entry → Setting} {width : Option Int} {text : String}
    (h : Coloured w s width text) (fuel : Nat) :
    let report := run fuel w (.ofEntries s)
    (∀ entries, Palette.Entries text.toList entries → (∀ entry ∈ entries, Palette.Spelled entry) →
      ∃ cs : List Colour, cs.map Colour.toList = entries.map Text.Hex.read ∧ Shows w.host report width text cs) ∧
    (∀ numbers, Palette.Gives text.toList numbers → (∀ n ∈ numbers, 0 ≤ n) →
      ∃ cs : List Colour, numbers = cs.map (fun c => (c.number : Int)) ∧ Shows w.host report width text cs) ∧
    (∀ numbers, Palette.Gives text.toList numbers → (∃ n ∈ numbers, n < 0) →
      report.ending = .escaped (.window (.palette .negative)) ∧ report.complaints = []) ∧
    ((∀ numbers, ¬Palette.Gives text.toList numbers) →
      ∃ e : PaletteError, e.isReported = true ∧ report.ending = .exit 1 ∧ report.complaints = [e.message]) := by
  intro report
  refine ⟨?_, ?_, ?_, ?_⟩
  · intro entries split spelled
    obtain ⟨cs, p, -, parsed, bytes, colours⟩ := Palette.parse_of_spelled split spelled
    exact ⟨cs, bytes, h.shows_of_parse parsed colours fuel⟩
  · intro numbers gives least
    obtain ⟨e, -, -, none⟩ | ⟨others, also, ⟨n, mem, negative⟩, -⟩ | ⟨cs, p, also, parsed, colours⟩ :=
      Palette.parse_cases text.toList
    · exact absurd gives (none numbers)
    · rw [← gives.unique also] at mem
      exact absurd (least n mem) (by omega)
    · exact ⟨cs, gives.unique also, h.shows_of_parse parsed colours fuel⟩
  · rintro numbers gives ⟨n, mem, negative⟩
    obtain ⟨e, -, -, none⟩ | ⟨others, also, -, refused⟩ | ⟨cs, p, also, -⟩ := Palette.parse_cases text.toList
    · exact absurd gives (none numbers)
    · obtain ⟨choice, ran⟩ := h.run_of_refused refused fuel
      simp only [report, ran]
      exact ⟨rfl, rfl⟩
    · rw [gives.unique also] at mem
      obtain ⟨c, -, rfl⟩ := List.mem_map.mp mem
      omega
  · intro none
    obtain ⟨e, reported, refused, -⟩ | ⟨others, also, -⟩ | ⟨cs, p, also, -⟩ := Palette.parse_cases text.toList
    · obtain ⟨choice, ran⟩ := h.run_of_refused refused fuel
      refine ⟨e, reported, ?_⟩
      simp only [report, ran, windowTrouble, if_pos reported]
      exact ⟨rfl, rfl⟩
    · exact absurd also (none others)
    · exact absurd also (none _)

/-- Green on black. -/
theorem session_of_palette_in_two_colours :
    let w : World := .idle (fun _ => .ok []) ⟨true, false⟩
    let s : Entry → Setting := fun e => if e = .palette then .text "000000,33FF66" else standard "empty.ch8" e
    Coloured w s none "000000,33FF66" ∧ ∃ cs : List Colour,
      cs.map Colour.toList = [[0x00, 0x00, 0x00], [0x33, 0xFF, 0x66]] ∧
      Shows w.host (run 1 w (.ofEntries s)) none "000000,33FF66" cs := by
  intro w s
  have coloured : Coloured w s none "000000,33FF66" :=
    ⟨⟨[], by decide +kernel⟩, ⟨.mixer, by decide +kernel⟩, rfl, ⟨(640, 320), by decide +kernel⟩, rfl⟩
  have split : Palette.Entries "000000,33FF66".toList ["000000".toList, "33FF66".toList] :=
    Palette.entries_iff.mpr (by decide +kernel)
  obtain ⟨cs, bytes, shows⟩ := (session_of_palette coloured 1).1 _ split (by decide +kernel)
  exact ⟨coloured, cs, bytes.trans (by decide +kernel), shows⟩

/-- A base mark stands for two digits, and a minus sign for one that ends a session without a word. -/
theorem palettes_that_are_not_spelled :
    let w : World := .idle (fun _ => .ok []) ⟨true, false⟩
    let s : Entry → Setting := fun e => if e = .palette then .text "-00001" else standard "empty.ch8" e
    let Spells (text : String) :=
      ∃ entries, Palette.Entries text.toList entries ∧ ∀ entry ∈ entries, Palette.Spelled entry
    (¬Spells "0x1234" ∧ ∃ window, Window.create w.host none (some "0x1234") = .ok window) ∧
      ¬Spells "-00001" ∧ (run 1 w (.ofEntries s)).ending = .escaped (.window (.palette .negative)) := by
  intro w s Spells
  have not_spelled {text : String} (other : ¬∀ entry ∈ Text.fields ',' text.toList, Palette.Spelled entry) :
      ¬Spells text := by
    rintro ⟨entries, split, spelled⟩
    obtain ⟨rfl, -⟩ := Palette.entries_iff.mp split
    exact other spelled
  have marked : Palette.parse "0x1234".toList = .ok ⟨⟨0x00, 0x12, 0x34⟩, Palette.default.foreground⟩ := by
    decide +kernel
  have sized : w.host.mode (Window.size (Option.getD none Window.defaultScale)) = .ok (640, 320) := by
    decide +kernel
  obtain ⟨window, made, -⟩ := Window.create_of_parse sized marked
  exact ⟨⟨not_spelled (by decide +kernel), window, made⟩, not_spelled (by decide +kernel), by decide +kernel⟩

end Session

end Chip8
