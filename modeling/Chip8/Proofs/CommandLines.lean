/-
  Chip8.Proofs.CommandLines — what is asked for on a command line is what is read from it.

  Every option that takes a value reads it in its own way (`setting?`), and giving it one changes the setting
  of this option and nothing else (`set?_spec`). A request is written with one word an option, the value behind
  an equals sign (`Request.words`), and such a word is taken for the option whatever the value looks like
  (`Word.classify?_assigned`), since no name has an equals sign in it. While the words are read, every setting
  is as requested already, or its word is still to come (`Request.read_words`). So neither the order of the
  words matters nor which options are left out, and the request comes back (`Request.parse_words`).
-/
import Chip8.Proofs.Numerals
import Chip8.Session.Arguments

namespace Chip8

namespace Options

open Session (Setting)

/-! ## Settings by their options -/

def setting (o : Options) : OptionName → Setting
  | .help => .unset
  | .clockSpeed => .ofValue .ofInt o.clockSpeed
  | .renderer => .ofOption .text o.renderer
  | .scale => .ofOption .ofInt o.scale
  | .mute => .ofOption .ofInt o.mute
  | .keymap => .ofValue .text o.keymap
  | .cursorMode => .ofValue .ofInt o.cursorMode
  | .palette => .ofOption .text o.palette
  | .shift => .ofOption .ofInt o.shift
  | .load => .ofOption .ofInt o.load
  | .logic => .ofOption .ofInt o.logic
  | .wrap => .ofOption .ofInt o.wrap
  | .maxCycles => .ofOption .ofInt o.maxCycles
  | .debug => .flag o.debug

def setting? (name : OptionName) (text : List Char) : Option Setting :=
  match name with
  | .help | .debug => none
  | .clockSpeed | .maxCycles => (value? positive? text).map (.ofValue .ofInt)
  | .renderer => (value? renderer? text).map (.ofValue .text)
  | .scale => (value? number? text).map (.ofValue .ofInt)
  | .mute | .shift | .load | .logic | .wrap => (value? (oneOf? [0, 1]) text).map (.ofValue .ofInt)
  | .cursorMode => (value? (oneOf? [0, 1, 2]) text).map (.ofValue .ofInt)
  | .keymap | .palette => (value? text? text).map (.ofValue .text)

theorem ofValue_injective {α : Type} {f : α → Setting} (injective : Function.Injective f)
    (proper : ∀ x, f x ≠ .list 0) : Function.Injective (Setting.ofValue f) := by
  intro v w same
  cases v with
  | given x =>
    cases w with
    | given y => rw [injective same]
    | mark => exact absurd same (proper x)
  | mark =>
    cases w with
    | given y => exact absurd same.symm (proper y)
    | mark => rfl

theorem ofOption_injective {α : Type} {f : α → Setting} (injective : Function.Injective f)
    (proper : ∀ x, f x ≠ .list 0) (set : ∀ x, f x ≠ .unset) : Function.Injective (Setting.ofOption f) := by
  have some (v : OptionValue α) : Setting.ofValue f v ≠ .unset := by
    cases v with
    | given x => exact set x
    | mark => nofun
  intro v w same
  cases v with
  | none =>
    cases w with
    | none => rfl
    | some w => exact absurd same.symm (some w)
  | some v =>
    cases w with
    | none => exact absurd same (some v)
    | some w => rw [ofValue_injective injective proper same]

theorem ofInt_injective : Function.Injective Setting.ofInt := fun _ _ same => by cases same; rfl

theorem text_injective : Function.Injective Setting.text := fun _ _ same => by cases same; rfl

/-- Options are their settings and the file name. -/
theorem eq_of_setting {o p : Options} (same : ∀ n, o.setting n = p.setting n) (file : o.filename = p.filename) :
    o = p := by
  have numbers := ofValue_injective ofInt_injective nofun
  have texts := ofValue_injective text_injective nofun
  have number := ofOption_injective ofInt_injective nofun nofun
  have text := ofOption_injective text_injective nofun nofun
  cases o
  cases p
  simp only [mk.injEq]
  exact ⟨file, numbers (same .clockSpeed), text (same .renderer), number (same .scale), number (same .mute),
    texts (same .keymap), numbers (same .cursorMode), text (same .palette), number (same .shift), number (same .load),
    number (same .logic), number (same .wrap), number (same .maxCycles), Setting.flag.inj (same .debug)⟩

/-- An option takes a text just if it makes something of it; then its setting is that, and nothing else changes. -/
theorem set?_spec (o : Options) (n : OptionName) (text : List Char) :
    match o.set? n text with
    | none => setting? n text = none
    | some p =>
      setting? n text = some (p.setting n) ∧ (∀ m ≠ n, p.setting m = o.setting m) ∧ p.filename = o.filename := by
  cases n <;> simp only [set?, setting?]
  all_goals
    generalize value? _ text = value
    cases value with
    | none => rfl
    | some v => exact ⟨rfl, fun m other => by cases m <;> first | rfl | exact absurd rfl other, rfl⟩

/-! ## Words -/

theorem equals_not_mem_long (n : OptionName) : ∀ c ∈ n.long.toList, (c != '=') = true := by
  have all : n.long.toList.all (· != '=') = true := by cases n <;> rfl
  exact List.all_eq_true.mp all

theorem ofLong?_long (n : OptionName) : OptionName.ofLong? n.long.toList = some n := by cases n <;> decide

/-- An option by its whole name, with anything behind an equals sign. -/
theorem Word.classify?_assigned (n : OptionName) (value : List Char) :
    Word.classify? ('-' :: '-' :: (n.long.toList ++ '=' :: value)) = some (.long n (some value)) := by
  have name : (n.long.toList ++ '=' :: value).takeWhile (· != '=') = n.long.toList := by
    rw [List.takeWhile_append_of_pos (equals_not_mem_long n), List.takeWhile_cons_of_neg (by decide), List.append_nil]
  have rest : (n.long.toList ++ '=' :: value).dropWhile (· != '=') = '=' :: value := by
    rw [List.dropWhile_append_of_pos (equals_not_mem_long n), List.dropWhile_cons_of_neg (by decide)]
  simp only [Word.classify?, Word.ofLong?, name, rest, ofLong?_long, Word.assigned]

theorem Word.classifyAll?_cons {text : List Char} (other : text ≠ ['-', '-']) (rest : List (List Char)) :
    Word.classifyAll? (text :: rest) = (do
      let word ← Word.classify? text
      let words ← Word.classifyAll? rest
      return word :: words) :=
  Word.classifyAll?.eq_3 _ _ fun same => other same

theorem Progress.read_assigned (p : Progress) {n : OptionName} {text : List Char} {o : Options}
    (set : p.options.set? n text = some o) (rest : List Word) :
    p.read (.long n (some text) :: rest) = ({ p with options := o } : Progress).read rest := by
  have takes : n.takesValue = true := by cases n <;> first | rfl | cases set
  simp only [Progress.read, Cluster.ofWord?, Cluster.ofLong?, Cluster.valued?, takes, if_true, Progress.raise, bind,
    Except.bind, Progress.set, set]

/-! ## Requests -/

structure Request where
  filename : String
  clockSpeed : Option Int := none
  renderer : Option String := none
  scale : Option Int := none
  mute : Option Int := none
  keymap : Option String := none
  cursorMode : Option Int := none
  palette : Option String := none
  shift : Option Int := none
  load : Option Int := none
  logic : Option Int := none
  wrap : Option Int := none
  maxCycles : Option Int := none
  debug : Bool := false
  deriving DecidableEq, Repr

/-- Is the number short enough to be read? -/
def Short (n : Int) : Prop := (Nat.toDigits 10 n.natAbs).length ≤ 4300

instance (n : Int) : Decidable (Short n) := inferInstanceAs (Decidable (_ ≤ _))

namespace Request

/-- Can everything that is asked for be had? -/
structure Valid (r : Request) : Prop where
  clockSpeed : ∀ n ∈ r.clockSpeed, 0 < n ∧ Short n
  renderer : ∀ name ∈ r.renderer, name ∈ renderers
  scale : ∀ n ∈ r.scale, Short n
  mute : ∀ n ∈ r.mute, n = 0 ∨ n = 1
  keymap : ∀ text ∈ r.keymap, text ≠ "--"
  cursorMode : ∀ n ∈ r.cursorMode, n = 0 ∨ n = 1 ∨ n = 2
  palette : ∀ text ∈ r.palette, text ≠ "--"
  shift : ∀ n ∈ r.shift, n = 0 ∨ n = 1
  load : ∀ n ∈ r.load, n = 0 ∨ n = 1
  logic : ∀ n ∈ r.logic, n = 0 ∨ n = 1
  wrap : ∀ n ∈ r.wrap, n = 0 ∨ n = 1
  maxCycles : ∀ n ∈ r.maxCycles, 0 < n ∧ Short n

/-- The options that are asked for; the others have their defaults, if they have any. -/
def options (r : Request) : Options where
  filename := r.filename
  clockSpeed := .given (r.clockSpeed.getD Activity.defaultClockSpeed)
  renderer := r.renderer.map .given
  scale := r.scale.map .given
  mute := r.mute.map .given
  keymap := .given (r.keymap.getD Keypad.Keymap.standard)
  cursorMode := .given (r.cursorMode.getD 0)
  palette := r.palette.map .given
  shift := r.shift.map .given
  load := r.load.map .given
  logic := r.logic.map .given
  wrap := r.wrap.map .given
  maxCycles := r.maxCycles.map .given
  debug := r.debug

def written? (r : Request) : OptionName → Option String
  | .help | .debug => none
  | .clockSpeed => r.clockSpeed.map toString
  | .renderer => r.renderer
  | .scale => r.scale.map toString
  | .mute => r.mute.map toString
  | .keymap => r.keymap
  | .cursorMode => r.cursorMode.map toString
  | .palette => r.palette
  | .shift => r.shift.map toString
  | .load => r.load.map toString
  | .logic => r.logic.map toString
  | .wrap => r.wrap.map toString
  | .maxCycles => r.maxCycles.map toString

def word? (r : Request) : OptionName → Option String
  | .debug => if r.debug then some "--debug" else none
  | n => (r.written? n).map fun text => "--" ++ n.long ++ "=" ++ text

def words (r : Request) : List String := OptionName.all.filterMap r.word?

/-! ## Values in words -/

section

variable {n : Int}

theorem number?_toString (short : Short n) : number? (toString n).toList = some n := Text.Numeral.int?_toString short

theorem value?_given {α : Type} {read : List Char → Option α} {text : String} {x : α}
    (reads : read text.toList = some x) (plain : text ≠ "--") : value? read text.toList = some (.given x) := by
  have other : text.toList ≠ ['-', '-'] := fun mark => plain (String.toList_injective mark)
  rw [value?, if_neg other, reads]
  rfl

theorem toString_ne_mark (short : Short n) : toString n ≠ "--" := by
  intro mark
  have reads := number?_toString short
  rw [mark] at reads
  cases reads

theorem number?_given (short : Short n) : value? number? (toString n).toList = some (.given n) :=
  value?_given (number?_toString short) (toString_ne_mark short)

theorem positive?_given (positive : 0 < n ∧ Short n) : value? positive? (toString n).toList = some (.given n) := by
  refine value?_given ?_ (toString_ne_mark positive.2)
  rw [positive?, number?_toString positive.2]
  simp [positive.1]

theorem oneOf?_given {choices : List Int} (choice : n ∈ choices) (short : Short n) :
    value? (oneOf? choices) (toString n).toList = some (.given n) := by
  refine value?_given ?_ (toString_ne_mark short)
  rw [oneOf?, number?_toString short]
  simp [choice]

theorem switch?_given (switch : n = 0 ∨ n = 1) : value? (oneOf? [0, 1]) (toString n).toList = some (.given n) := by
  refine oneOf?_given (by simpa using switch) ?_
  rcases switch with rfl | rfl <;> decide

theorem cursor?_given (mode : n = 0 ∨ n = 1 ∨ n = 2) :
    value? (oneOf? [0, 1, 2]) (toString n).toList = some (.given n) := by
  refine oneOf?_given (by simpa using mode) ?_
  rcases mode with rfl | rfl | rfl <;> decide

theorem text?_given {text : String} (plain : text ≠ "--") : value? text? text.toList = some (.given text) :=
  value?_given (by rw [text?, String.ofList_toList]) plain

theorem renderer?_given {name : String} (choice : name ∈ renderers) :
    value? renderer? name.toList = some (.given name) := by
  have plain : name ≠ "--" := by
    rintro rfl
    exact absurd choice (by decide)
  refine value?_given ?_ plain
  rw [renderer?, text?, String.ofList_toList]
  simp [choice]

end

section

variable {r : Request} {n m : OptionName} {text : String}

/-- The text of a value is read as this value. -/
theorem setting?_of_written (valid : r.Valid) (given : r.written? n = some text) :
    setting? n text.toList = some (r.options.setting n) := by
  -- the texts of names are taken as they are, those of numbers are read
  cases n with
  | help | debug => cases given
  | renderer =>
    have asked : r.renderer = some text := given
    simp only [setting?, setting, options, asked, renderer?_given (valid.renderer text asked)]
    rfl
  | keymap =>
    have asked : r.keymap = some text := given
    simp only [setting?, setting, options, asked, text?_given (valid.keymap text asked)]
    rfl
  | palette =>
    have asked : r.palette = some text := given
    simp only [setting?, setting, options, asked, text?_given (valid.palette text asked)]
    rfl
  | clockSpeed =>
    obtain ⟨x, asked, rfl⟩ := Option.map_eq_some_iff.mp given
    simp only [setting?, setting, options, asked, positive?_given (valid.clockSpeed x asked)]
    rfl
  | maxCycles =>
    obtain ⟨x, asked, rfl⟩ := Option.map_eq_some_iff.mp given
    simp only [setting?, setting, options, asked, positive?_given (valid.maxCycles x asked)]
    rfl
  | scale =>
    obtain ⟨x, asked, rfl⟩ := Option.map_eq_some_iff.mp given
    simp only [setting?, setting, options, asked, number?_given (valid.scale x asked)]
    rfl
  | cursorMode =>
    obtain ⟨x, asked, rfl⟩ := Option.map_eq_some_iff.mp given
    simp only [setting?, setting, options, asked, cursor?_given (valid.cursorMode x asked)]
    rfl
  | mute | shift | load | logic | wrap =>
    obtain ⟨x, asked, rfl⟩ := Option.map_eq_some_iff.mp given
    have switch : x = 0 ∨ x = 1 := by first
      | exact valid.mute x asked
      | exact valid.shift x asked
      | exact valid.load x asked
      | exact valid.logic x asked
      | exact valid.wrap x asked
    simp only [setting?, setting, options, asked, switch?_given switch]
    rfl

/-- What is not asked for is as at the start. -/
theorem setting_of_word?_none (unasked : r.word? n = none) :
    r.options.setting n = Progress.start.options.setting n := by
  cases n with
  | help => rfl
  | debug =>
    have off : r.debug = false := by simpa [word?] using unasked
    simp only [options, setting, off]
    rfl
  | _ =>
    have left := Option.map_eq_none_iff.mp unasked
    simp only [written?, Option.map_eq_none_iff] at left
    simp only [options, setting, left]
    rfl

/-! ## Reading words -/

/-- A word is taken for its option alone, and sets what is asked for. -/
theorem read_word? (valid : r.Valid) (asked : r.word? n = some text) (p : Progress) :
    text.toList ≠ ['-', '-'] ∧ ∃ value o, Word.classify? text.toList = some (.long n value) ∧
      (∀ rest, p.read (.long n value :: rest) = ({ p with options := o } : Progress).read rest) ∧
      o.setting n = r.options.setting n ∧ ∀ m ≠ n, o.setting m = p.options.setting m := by
  by_cases flag : n = .debug
  · subst flag
    have on : r.debug = true ∧ "--debug" = text := by simpa [word?] using asked
    obtain ⟨on, rfl⟩ := on
    refine ⟨by decide, none, { p.options with debug := true }, rfl, fun _ => rfl, ?_, ?_⟩
    · simp only [setting, options, on]
    · intro m other
      cases m <;> first | rfl | exact absurd rfl other
  · have named : (r.written? n).map (fun value => "--" ++ n.long ++ "=" ++ value) = some text := by
      rw [← asked, word?]
      exact flag
    obtain ⟨value, written, rfl⟩ := Option.map_eq_some_iff.mp named
    have spelled : ("--" ++ n.long ++ "=" ++ value).toList = '-' :: '-' :: (n.long.toList ++ '=' :: value.toList) := by
      simp
    have reads := setting?_of_written valid written
    have effect := set?_spec p.options n value.toList
    rcases set : p.options.set? n value.toList with _ | o
    · rw [set] at effect
      cases effect.symm.trans reads
    · rw [set] at effect
      obtain ⟨new, others, -⟩ := effect
      rw [spelled, Word.classify?_assigned]
      refine ⟨by simp, some value.toList, o, rfl, p.read_assigned set, ?_, others⟩
      exact Option.some.inj (new.symm.trans reads)

theorem word?_injective (valid : r.Valid) (asked : r.word? n = some text) (also : r.word? m = some text) : m = n := by
  obtain ⟨-, value, _, sorted, -⟩ := read_word? valid asked Progress.start
  obtain ⟨-, other, _, same, -⟩ := read_word? valid also Progress.start
  cases same.symm.trans sorted
  rfl

/-- If every setting is as requested or its word is still to come, all is as requested in the end. -/
theorem read_words (valid : r.Valid) {texts : List String} (words : ∀ text ∈ texts, ∃ n, r.word? n = some text)
    {p : Progress} (unnamed : p.named = false)
    (settled : ∀ n, p.options.setting n = r.options.setting n ∨ ∃ text ∈ texts, r.word? n = some text) :
    ∃ sorted, Word.classifyAll? (texts.map String.toList ++ [['-', '-'], r.filename.toList]) = some sorted ∧
      p.read sorted = .ok ⟨r.options, true, p.refused⟩ := by
  induction texts generalizing p with
  | nil =>
    have same : { p.options with filename := r.filename } = r.options :=
      eq_of_setting (fun n => (settled n).resolve_right nofun) rfl
    refine ⟨[.mark, .operand r.filename.toList], rfl, ?_⟩
    simp only [Progress.read, Progress.name, unnamed, Bool.false_eq_true, if_false, String.ofList_toList, same]
  | cons text rest ih =>
    obtain ⟨⟨n, asked⟩, others⟩ := List.forall_mem_cons.mp words
    obtain ⟨plain, value, o, sorted, reads, new, kept⟩ := read_word? valid asked p
    have next : ∀ m, o.setting m = r.options.setting m ∨ ∃ text ∈ rest, r.word? m = some text := by
      intro m
      by_cases same : m = n
      · exact .inl (same ▸ new)
      · rcases settled m with already | ⟨other, mem, also⟩
        · exact .inl ((kept m same).trans already)
        · rcases List.mem_cons.mp mem with rfl | later
          · exact absurd (word?_injective valid asked also) same
          · exact .inr ⟨other, later, also⟩
    obtain ⟨behind, classified, done⟩ := ih others (p := { p with options := o }) unnamed next
    refine ⟨.long n value :: behind, ?_, (reads behind).trans done⟩
    rw [List.map_cons, List.cons_append, Word.classifyAll?_cons plain, sorted, classified]
    rfl

/-- A request comes back from the command line, whatever the order of its words: each option that is asked for
    has the value that was written for it, and any other has its default. -/
theorem parse_words (valid : r.Valid) {words : List String} (order : words.Perm r.words) :
    parse (words ++ ["--", r.filename]) = .ok r.options := by
  have asked : ∀ text ∈ words, ∃ n, r.word? n = some text := by
    intro text mem
    obtain ⟨n, -, written⟩ := List.mem_filterMap.mp (order.mem_iff.mp mem)
    exact ⟨n, written⟩
  have settled : ∀ n, Progress.start.options.setting n = r.options.setting n ∨
      ∃ text ∈ words, r.word? n = some text := by
    intro n
    cases written : r.word? n with
    | none => exact .inl (setting_of_word?_none written).symm
    | some text => exact .inr ⟨text, order.mem_iff.mpr (List.mem_filterMap.mpr ⟨n, n.mem_all, written⟩), rfl⟩
  obtain ⟨sorted, classified, done⟩ := read_words valid asked rfl settled
  have texts : (words ++ ["--", r.filename]).map String.toList =
      words.map String.toList ++ [['-', '-'], r.filename.toList] := by simp
  rw [parse, texts, classified]
  simp only [done, bind, Except.bind]
  rfl

/-- Values that look like options, a name that looks like the mark, and words in another order. -/
theorem parse_words_of_lookalikes :
    let r : Request := { filename := "--", clockSpeed := some 1, scale := some (-7), keymap := some "-c=2",
                         palette := some "", debug := true }
    r.Valid ∧
      parse ["--debug", "--pygame_palette=", "--scale=-7", "--keymap=-c=2", "--clock_speed=1", "--", "--"] =
        .ok { filename := "--", clockSpeed := .given 1, scale := some (.given (-7)), keymap := .given "-c=2"
              palette := some (.given ""), debug := true } := by
  intro r
  have valid : r.Valid := by
    constructor <;> intro x asked <;> cases asked <;> decide
  refine ⟨valid, ?_⟩
  have order : ["--debug", "--pygame_palette=", "--scale=-7", "--keymap=-c=2", "--clock_speed=1"].Perm r.words := by
    decide
  exact parse_words valid order

end

end Request

end Options

end Chip8
