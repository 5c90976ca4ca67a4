/-
  Chip8.Proofs.Vetting — what a command line lets through.

  What an option makes of a text is a setting that it allows, unless the text is the mark (`setting?_allowed`). The
  word of two dashes is no value for the option before it, and behind it there are only operands (`Readable`). So
  a setting that its option does not allow comes only from a word that joins the mark to the option (`joined?`),
  and all others stay vetted while words are read, whatever is shortened, repeated or put together
  (`vetted_of_read`). A session gets every entry from a command line. It never tells of a clock either: a speed
  is above zero, or it is no number and stops the session before there is a clock (`fast_of_vetted`).
-/
import Chip8.Proofs.CommandLines
import Chip8.Proofs.Entries

namespace Chip8

open Session (Setting)

def OptionName.Allows : OptionName → Setting → Prop
  | .help, s => s = .unset
  | .clockSpeed, s => ∃ n : Int, 1 ≤ n ∧ s = .ofInt n
  | .renderer, s => s = .unset ∨ ∃ name ∈ ["pygame", "curses", "null"], s = .text name
  | .scale, s => s = .unset ∨ ∃ n, s = .ofInt n
  | .keymap, s => ∃ text, s = .text text
  | .cursorMode, s => s = .ofInt 0 ∨ s = .ofInt 1 ∨ s = .ofInt 2
  | .palette, s => s = .unset ∨ ∃ text, s = .text text
  | .mute, s | .shift, s | .load, s | .logic, s | .wrap, s => s = .unset ∨ s = .ofInt 0 ∨ s = .ofInt 1
  | .maxCycles, s => s = .unset ∨ ∃ n : Int, 1 ≤ n ∧ s = .ofInt n
  | .debug, s => ∃ on, s = .flag on

namespace Options

/-! ## Values -/

theorem value?_cases {α : Type} {read : List Char → Option α} {text : List Char} {v : OptionValue α}
    (reads : value? read text = some v) : v = .mark ∧ text = ['-', '-'] ∨ ∃ x, v = .given x ∧ read text = some x := by
  unfold value? at reads
  split at reads
  · next mark =>
    cases reads
    exact .inl ⟨rfl, mark⟩
  · obtain ⟨x, read, rfl⟩ := Option.map_eq_some_iff.mp reads
    exact .inr ⟨x, rfl, read⟩

/-- What an option makes of a text is allowed, unless the text is the mark. -/
theorem setting?_allowed {n : OptionName} {text : List Char} {s : Setting} (made : setting? n text = some s) :
    n.Allows s ∨ s = .list 0 ∧ text = ['-', '-'] := by
  have vetted {α : Type} {f : α → Setting} {read : List Char → Option α}
      (made : (value? read text).map (Setting.ofValue f) = some s)
      (allowed : ∀ x, read text = some x → n.Allows (f x)) :
      n.Allows s ∨ s = .list 0 ∧ text = ['-', '-'] := by
    obtain ⟨v, reads, rfl⟩ := Option.map_eq_some_iff.mp made
    rcases value?_cases reads with ⟨rfl, mark⟩ | ⟨x, rfl, read⟩
    · exact .inr ⟨rfl, mark⟩
    · exact .inl (allowed x read)
  have oneOf {choices : List Int} {x : Int} (read : oneOf? choices text = some x) : x ∈ choices := by
    simp only [oneOf?, Option.filter_eq_some_iff, List.contains_iff_mem] at read
    exact read.2
  have positive {x : Int} (read : positive? text = some x) : 1 ≤ x := by
    simp only [positive?, Option.filter_eq_some_iff, decide_eq_true_eq] at read
    exact read.2
  cases n with
  | help | debug => cases made
  | clockSpeed => exact vetted made fun x read => ⟨x, positive read, rfl⟩
  | maxCycles => exact vetted made fun x read => .inr ⟨x, positive read, rfl⟩
  | scale => exact vetted made fun x _ => .inr ⟨x, rfl⟩
  | keymap => exact vetted made fun x _ => ⟨x, rfl⟩
  | palette => exact vetted made fun x _ => .inr ⟨x, rfl⟩
  | renderer =>
    refine vetted made fun x read => .inr ⟨x, ?_, rfl⟩
    simp only [renderer?, Option.filter_eq_some_iff, List.contains_iff_mem] at read
    exact read.2
  | cursorMode =>
    refine vetted made fun x read => ?_
    have choice : x = 0 ∨ x = 1 ∨ x = 2 := by simpa using oneOf read
    rcases choice with rfl | rfl | rfl
    · exact .inl rfl
    · exact .inr (.inl rfl)
    · exact .inr (.inr rfl)
  | mute | shift | load | logic | wrap =>
    refine vetted made fun x read => .inr ?_
    have choice : x = 0 ∨ x = 1 := by simpa using oneOf read
    rcases choice with rfl | rfl
    · exact .inl rfl
    · exact .inr rfl

/-! ## Words -/

/-- The option that a word gives the mark for its value, if there is one. -/
def joined? (text : List Char) : Option OptionName := do
  let word ← Word.classify? text
  let cluster ← Cluster.ofWord? word
  match cluster.tail with
  | .value n value => if value = ['-', '-'] then some n else none
  | _ => none

theorem operand_of_unmatched {body text : List Char} (operand : Word.unmatched body = .operand text) :
    text = '-' :: body := by
  unfold Word.unmatched at operand
  split at operand
  · exact (Word.operand.inj operand).symm
  · cases operand

/-- An operand is a word as it was written. -/
theorem operand_of_classify? {text operand : List Char} (sorted : Word.classify? text = some (.operand operand)) :
    operand = text := by
  unfold Word.classify? at sorted
  split at sorted
  · simp only [Word.ofLong?] at sorted
    split at sorted
    · cases sorted
    · split at sorted
      · exact operand_of_unmatched (Option.some.inj sorted)
      · cases sorted
      · cases sorted
  · next body _ =>
    have short := Option.some.inj sorted
    unfold Word.ofShort at short
    split at short
    · exact (Word.operand.inj short).symm
    · split at short
      · cases short
      · exact operand_of_unmatched short
  · exact (Word.operand.inj (Option.some.inj sorted)).symm

theorem operand_ne_mark {texts : List (List Char)} {operand : List Char} {more : List Word}
    (sorted : Word.classifyAll? texts = some (.operand operand :: more)) : operand ≠ ['-', '-'] := by
  cases texts with
  | nil => cases sorted
  | cons text rest =>
    by_cases mark : text = ['-', '-']
    · subst mark
      cases sorted
    · rw [Word.classifyAll?_cons mark] at sorted
      obtain ⟨word, first, sorted⟩ := Option.bind_eq_some_iff.mp sorted
      obtain ⟨words, _, same⟩ := Option.bind_eq_some_iff.mp sorted
      cases same
      exact operand_of_classify? first ▸ mark

/-- Sorted words of which only some options are given the mark: before the mark itself, no operand behind a word
    is a mark, and a word joins it only to one of these options. -/
inductive Readable (joined : OptionName → Prop) : List Word → Prop
  | operands (texts : List (List Char)) : Readable joined (texts.map .operand)
  | mark (texts : List (List Char)) : Readable joined (.mark :: texts.map .operand)
  | cons {word : Word} {rest : List Word}
      (joins : ∀ k n, Cluster.ofWord? word = some k → k.tail = .value n ['-', '-'] → joined n)
      (next : ∀ text more, rest = .operand text :: more → text ≠ ['-', '-']) :
      Readable joined rest → Readable joined (word :: rest)

namespace Readable

variable {joined : OptionName → Prop} {word : Word} {rest : List Word}

theorem tail (readable : Readable joined (word :: rest)) : Readable joined rest := by
  generalize words : word :: rest = ws at readable
  cases readable with
  | operands texts =>
    cases texts with
    | nil => cases words
    | cons text texts =>
      cases words
      exact .operands texts
  | mark texts =>
    cases words
    exact .operands texts
  | cons _ _ readable =>
    cases words
    exact readable

/-- A word of options stands before the mark. -/
theorem of_cluster (readable : Readable joined (word :: rest)) {k : Cluster} (cluster : Cluster.ofWord? word = some k) :
    (∀ n, k.tail = .value n ['-', '-'] → joined n) ∧
      ∀ text more, rest = .operand text :: more → text ≠ ['-', '-'] := by
  generalize words : word :: rest = ws at readable
  cases readable with
  | operands texts =>
    cases texts with
    | nil => cases words
    | cons text texts =>
      cases words
      cases cluster
  | mark texts =>
    cases words
    cases cluster
  | cons joins next _ =>
    cases words
    exact ⟨fun n => joins k n cluster, next⟩

end Readable

theorem readable_of_sorted {joined : OptionName → Prop} {texts : List (List Char)} {words : List Word}
    (sorted : Word.classifyAll? texts = some words)
    (joins : ∀ text ∈ texts.takeWhile (· ≠ ['-', '-']), ∀ n, joined? text = some n → joined n) :
    Readable joined words := by
  induction texts generalizing words with
  | nil =>
    cases sorted
    exact .operands []
  | cons text rest ih =>
    by_cases mark : text = ['-', '-']
    · subst mark
      cases sorted
      exact .mark rest
    · rw [List.takeWhile_cons_of_pos (by simpa using mark)] at joins
      obtain ⟨here, behind⟩ := List.forall_mem_cons.mp joins
      rw [Word.classifyAll?_cons mark] at sorted
      obtain ⟨word, first, sorted⟩ := Option.bind_eq_some_iff.mp sorted
      obtain ⟨others, later, same⟩ := Option.bind_eq_some_iff.mp sorted
      cases same
      refine .cons ?_ ?_ (ih later behind)
      · intro k n cluster joins
        exact here n (by simp [joined?, first, cluster, joins])
      · rintro operand more rfl
        exact operand_ne_mark later

/-! ## Reading -/

/-- Is every setting one that its option allows, or the mark in its place? -/
def Vetted (joined : OptionName → Prop) (o : Options) : Prop :=
  ∀ n, n.Allows (o.setting n) ∨ o.setting n = .list 0 ∧ joined n

namespace Vetted

variable {joined : OptionName → Prop} {p q : Progress}

theorem start (joined : OptionName → Prop) : Vetted joined Progress.start.options := by
  intro n
  left
  cases n with
  | help => rfl
  | debug => exact ⟨false, rfl⟩
  | clockSpeed => exact ⟨1000, by decide, rfl⟩
  | keymap => exact ⟨_, rfl⟩
  | _ => exact .inl rfl

theorem name (vetted : Vetted joined p.options) (text : List Char) : Vetted joined (p.name text).options := by
  unfold Progress.name
  split
  · exact vetted
  · intro n
    exact vetted n

theorem raise (vetted : Vetted joined p.options) {flags : List OptionName} (raised : p.raise flags = .ok q) :
    Vetted joined q.options := by
  induction flags generalizing p with
  | nil =>
    cases raised
    exact vetted
  | cons flag rest ih =>
    have turned : Vetted joined { p.options with debug := true } := by
      intro n
      by_cases debug : n = .debug
      · subst debug
        exact .inl ⟨true, rfl⟩
      · have same : Options.setting { p.options with debug := true } n = p.options.setting n := by
          cases n <;> first | rfl | exact absurd rfl debug
        exact same ▸ vetted n
    cases flag with
    | help => cases raised
    | _ => exact ih turned raised

theorem set (vetted : Vetted joined p.options) {n : OptionName} {text : List Char}
    (joins : text = ['-', '-'] → joined n) (done : p.set n text = .ok q) : Vetted joined q.options := by
  have effect := set?_spec p.options n text
  unfold Progress.set at done
  rcases made : p.options.set? n text with _ | o
  · rw [made] at done
    cases done
  · rw [made] at done effect
    cases done
    obtain ⟨new, others, -⟩ := effect
    intro m
    by_cases same : m = n
    · subst same
      rcases setting?_allowed new with allowed | ⟨list, mark⟩
      · exact .inl allowed
      · exact .inr ⟨list, joins mark⟩
    · rw [others m same]
      exact vetted m

end Vetted

theorem bind_eq_ok {ε α β : Type} {x : Except ε α} {f : α → Except ε β} {b : β} (done : x >>= f = .ok b) :
    ∃ a, x = .ok a ∧ f a = .ok b := by
  cases x with
  | error e => cases done
  | ok a => exact ⟨a, rfl, done⟩

/-- What is read keeps every setting vetted. -/
theorem vetted_of_read {joined : OptionName → Prop} {p q : Progress} {words : List Word}
    (readable : Readable joined words) (vetted : Vetted joined p.options) (done : p.read words = .ok q) :
    Vetted joined q.options := by
  fun_induction Progress.read p words with
  | case1 p =>
    cases done
    exact vetted
  | case2 p text rest ih => exact ih readable.tail.tail (vetted.name text) done
  | case3 p text rest _ ih => exact ih readable.tail (vetted.name text) done
  | case4 p rest ih =>
    refine ih readable.tail ?_ done
    split <;> exact vetted
  | case5 p rest ih => exact ih readable.tail vetted done
  | case6 => cases done
  | case7 p word _ _ _ k cluster rest plain _ ih =>
    obtain ⟨turned, raised, done⟩ := bind_eq_ok done
    exact ih turned readable.tail (vetted.raise raised) done
  | case8 p word _ _ _ k cluster n text rest value _ ih =>
    obtain ⟨turned, raised, done⟩ := bind_eq_ok done
    obtain ⟨given, set, done⟩ := bind_eq_ok done
    have joins : text = ['-', '-'] → _ := fun mark => (readable.of_cluster cluster).1 n (mark ▸ value)
    exact ih given readable.tail ((vetted.raise raised).set joins set) done
  | case9 p word _ _ _ k cluster n text rest pending _ ih =>
    obtain ⟨turned, raised, done⟩ := bind_eq_ok done
    obtain ⟨given, set, done⟩ := bind_eq_ok done
    have other : text ≠ ['-', '-'] := (readable.of_cluster cluster).2 text rest rfl
    exact ih given readable.tail.tail ((vetted.raise raised).set (fun mark => absurd mark other) set) done
  | case10 => cases done

/-- Is the mark joined to an option in one of these words, before the mark itself? -/
def JoinedIn (words : List String) (n : OptionName) : Prop :=
  ∃ word ∈ words.takeWhile (· ≠ "--"), joined? word.toList = some n

theorem vetted_of_parse {words : List String} {o : Options} (parsed : parse words = .ok o) :
    Vetted (JoinedIn words) o := by
  have marks (word : String) : word.toList = ['-', '-'] ↔ word = "--" :=
    ⟨fun same => String.toList_injective same, fun same => same ▸ rfl⟩
  unfold parse at parsed
  split at parsed
  · cases parsed
  · next sorted classified =>
    have readable : Readable (JoinedIn words) sorted := by
      refine readable_of_sorted classified ?_
      intro text mem n joins
      simp only [List.takeWhile_map, List.mem_map, Function.comp_def, ne_eq, marks] at mem
      obtain ⟨word, mem, rfl⟩ := mem
      exact ⟨word, mem, joins⟩
    obtain ⟨p, read, done⟩ := bind_eq_ok parsed
    have vetted := vetted_of_read readable (.start _) read
    split at done
    · cases done
      exact vetted
    · cases done

/-! ## Sessions -/

def entry (o : Options) : Session.Entry → Setting
  | .filename => .text o.filename
  | .clockSpeed => o.setting .clockSpeed
  | .renderer => o.setting .renderer
  | .scale => o.setting .scale
  | .mute => o.setting .mute
  | .keymap => o.setting .keymap
  | .cursorMode => o.setting .cursorMode
  | .palette => o.setting .palette
  | .shift => o.setting .shift
  | .load => o.setting .load
  | .logic => o.setting .logic
  | .wrap => o.setting .wrap
  | .maxCycles => o.setting .maxCycles
  | .debug => o.setting .debug

theorem ofOptions_eq (o : Options) : Session.Arguments.ofOptions o = .ofEntries o.entry := rfl

/-- A clock speed that is let through is no number that is too small. -/
theorem fast_of_vetted {joined : OptionName → Prop} {o : Options} (vetted : Vetted joined o) :
    Session.Fast o.entry := by
  intro speed read
  change Session.clockSpeed (o.setting .clockSpeed) = .ok speed at read
  rcases vetted .clockSpeed with ⟨n, positive, same⟩ | ⟨same, -⟩
  · rw [same] at read
    cases read
    exact decide_eq_true (show (0 : Int) < n by omega)
  · rw [same] at read
    cases read

/-- Whatever command line is let through: every setting is one that its option allows, or it is the mark, joined to
    the option in its word before the mark itself. A session is handed all of its entries, each of which it needs
    to get ready. So it never misses an entry, and never tells of a clock. -/
theorem parse_vets {words : List String} {o : Options} (parsed : parse words = .ok o) :
    Vetted (JoinedIn words) o ∧
      Session.Arguments.ofOptions o = .ofEntries o.entry ∧
      (∀ w ready, Session.prepare w (.ofOptions o) = .ok ready →
        ∀ e, Session.Misses w ((Session.Arguments.ofOptions o).without e)) ∧
      ∀ w fuel, (Session.run fuel w (.ofOptions o)).Apart := by
  have vetted := vetted_of_parse parsed
  refine ⟨vetted, ofOptions_eq o, ?_, ?_⟩
  · intro w ready prepared
    exact Session.misses_without (s := o.entry) prepared
  · intro w fuel
    exact Session.run_apart (fast_of_vetted vetted) fuel

/-- Letters together, beginnings of names, a value given twice, and an option behind the file. -/
theorem parse_vets_of_short_words :
    let words := ["-dc5", "--ren=null", "game.ch8", "-m", "1", "-c=7"]
    ∃ o, parse words = .ok o ∧ o.clockSpeed = .given 7 ∧ (∀ n : OptionName, n.Allows (o.setting n)) ∧
      ∀ w fuel, (Session.run fuel w (.ofOptions o)).Apart := by
  intro words
  let o : Options := { filename := "game.ch8", clockSpeed := .given 7, renderer := some (.given "null"),
                       mute := some (.given 1), debug := true }
  have parsed : parse words = .ok o := by decide
  obtain ⟨vetted, -, -, apart⟩ := parse_vets parsed
  refine ⟨o, parsed, rfl, ?_, apart⟩
  have unjoined : ∀ word ∈ words, joined? word.toList = none := by decide
  intro n
  refine (vetted n).resolve_right ?_
  rintro ⟨-, word, mem, joins⟩
  cases (unjoined word ((List.takeWhile_sublist _).subset mem)).symm.trans joins

/-- An option that has the mark joined to it is let through, whatever it allows. -/
theorem parse_of_joined_mark :
    ∃ o, parse ["--clock_speed=--", "game.ch8"] = .ok o ∧ ¬OptionName.Allows .clockSpeed (o.setting .clockSpeed) := by
  refine ⟨{ filename := "game.ch8", clockSpeed := .mark }, by decide, ?_⟩
  rintro ⟨n, -, same⟩
  cases same

end Options

end Chip8
