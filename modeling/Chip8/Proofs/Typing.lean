/-
  Chip8.Proofs.Typing — the keys of a terminal are held for a while after they were typed.

  A character comes from the reader as the code of a small letter, and a keymap has such codes only, so that both
  read one letter in one way (`typedKey?_eq_some_iff`). A poll takes all that is in the queue (`Relay.drained`),
  and reads the clock once for all its keys, at the first of them (`sample_none`). One character sets the moment
  of its key and of no other (`until_handle`), and all characters of one batch set the same one (`until_heard`).
  So what a key has is the moment of the latest batch with its code, and the fifth of a second after it is over
  or not (`held_after`).
-/
import Chip8.Proofs.Polls
import Chip8.Proofs.Relaying

namespace Chip8

theorem Double.not_lt_of_le {a b : Double} (below : a.le b = true) : b.lt a = false := by
  cases a <;> cases b <;> simp_all [le, lt]

namespace Keypad

/-! ## Batches -/

/-- What one poll of a terminal takes: characters, each with what a clock showed, and what it showed at the end. -/
structure Batch where
  taken : List (Int × Double)
  now : Double
  deriving DecidableEq, Repr

namespace Batch

def codes (b : Batch) : List Int := b.taken.map Prod.fst

/-- The moment of a batch: what the clock showed at the first character that is a key. -/
def moment? (m : Keymap) (b : Batch) : Option Double :=
  (b.taken.find? fun p => (m.key? p.1).isSome).map Prod.snd

def signals (m : Keymap) (b : Batch) : Signals :=
  { Signals.quiet with codes := b.codes, moment := (b.moment? m).getD b.now, now := b.now }

section

variable {m : Keymap} {p : Int × Double} {rest : List (Int × Double)} {now : Double}

theorem moment_of_unmapped (unmapped : m.key? p.1 = none) :
    (signals m ⟨p :: rest, now⟩).moment = (signals m ⟨rest, now⟩).moment := by
  simp [signals, moment?, unmapped]

theorem moment_of_mapped {k : Fin 16} (mapped : m.key? p.1 = some k) :
    (signals m ⟨p :: rest, now⟩).moment = p.2 := by
  simp [signals, moment?, mapped]

end

theorem exists_moment {m : Keymap} {b : Batch} {code : Int} (mem : code ∈ b.codes) (mapped : (m.key? code).isSome) :
    ∃ T, b.moment? m = some T := by
  obtain ⟨p, taken, same⟩ := List.mem_map.mp mem
  have found : (b.taken.find? fun p => (m.key? p.1).isSome).isSome := by
    rw [List.find?_isSome]
    exact ⟨p, taken, same ▸ mapped⟩
  obtain ⟨first, here⟩ := Option.isSome_iff_exists.mp found
  exact ⟨first.2, by rw [moment?, here, Option.map_some]⟩

end Batch

namespace Relay

def drain (drained : List Batch × List (Int × Double)) : Act → List Batch × List (Int × Double)
  | .take code moment => (drained.1, drained.2 ++ [(code, moment)])
  | .leave now => (drained.1 ++ [⟨drained.2, now⟩], [])
  | .tell | .look _ | .read _ | .offer _ _ => drained

def drained (acts : List Act) : List Batch × List (Int × Double) := acts.foldl drain ([], [])

/-- Every character that was received is in one batch, in its place. -/
theorem drained_received (acts : List Act) :
    (drained acts).1.flatMap Batch.codes ++ (drained acts).2.map Prod.fst = acts.filterMap Act.received? := by
  induction acts using List.reverseRecOn with
  | nil => rfl
  | append_singleton before a ih =>
    rw [drained, List.foldl_append, List.filterMap_append, ← ih, ← drained]
    cases a with
    | take code moment => simp [drain, Act.received?]
    | leave now => simp [drain, Act.received?, Batch.codes]
    | tell | look | read | offer => simp [drain, Act.received?]

end Relay

namespace Terminal

variable {t : Terminal} {codes : Fin 16 → Int} {k : Fin 16} {moment : Double} {event : Option HostEvent} {code : Int}

/-! ## Typed keys -/

abbrev Controlled (t : Terminal) (codes : Fin 16 → Int) : Prop := t.keymap.Serves Controls.characters.codes codes

/-- The key that a typed character counts for, as it comes from the reader. -/
def typedKey? (t : Terminal) (character : Int) : Option (Fin 16) :=
  (Reader.put? character).bind fun p =>
    if (Controls.characters.event? p.code).isSome then none else t.keymap.key? p.code

theorem controlled_of_create {keymap : String} (made : create keymap = .ok t) :
    ∃ codes, Keymap.Defines true Controls.characters.codes keymap.toList codes ∧ t.Controlled codes ∧
      t.heldUntil = Vector.replicate 16 (.finite 0 0) := by
  cases parsed : Keymap.parse true Controls.characters.codes keymap.toList with
  | error e =>
    simp only [create, parsed] at made
    cases made
  | ok m =>
    simp only [create, parsed] at made
    cases made
    obtain ⟨codes, defines, serves⟩ := Keymap.serves_of_parse parsed
    exact ⟨codes, defines, serves, rfl⟩

/-- The code of a key is no control. -/
theorem Controlled.unasked (controlled : t.Controlled codes) (k : Fin 16) : request? (codes k) = none := by
  rw [← Controls.event?_characters, Controls.event?_eq_none_iff]
  exact controlled.unreserved k

theorem typedKey?_eq (t : Terminal) (character : Int) :
    t.typedKey? character =
      (Reader.typed? character).bind fun code => if (request? code).isSome then none else t.keymap.key? code := by
  rw [typedKey?, Reader.put?_eq]
  cases Reader.typed? character with
  | none => rfl
  | some code => simp only [Option.map_some, Option.bind_some, Controls.event?_characters]

theorem typedKey?_eq_some_iff (controlled : t.Controlled codes) {character : Int} (real : 0 ≤ character) :
    t.typedKey? character = some k ↔ Text.Latin.lower character = codes k := by
  rw [typedKey?_eq, Reader.typed?_of_nonneg real, Option.bind_some]
  split
  · next asks =>
    constructor
    · exact nofun
    · intro same
      rw [same, controlled.unasked] at asks
      cases asks
  · exact controlled.selects _ k

/-- A capital counts for the key of its small letter. -/
theorem typedKey?_small (t : Terminal) {character : Int} (capital : Text.Latin.isCapital character = true) :
    t.typedKey? (character + 32) = t.typedKey? character := by
  have real : 0 ≤ character := by
    simp only [Text.Latin.isCapital, Bool.or_eq_true, Bool.and_eq_true, decide_eq_true_eq] at capital
    omega
  have small : Text.Latin.lower character = character + 32 := if_pos capital
  have same : Text.Latin.lower (character + 32) = Text.Latin.lower character := by
    rw [← small, Text.Latin.lower_lower]
  rw [typedKey?_eq, typedKey?_eq, Reader.typed?_of_nonneg real, Reader.typed?_of_nonneg (by omega), same]

/-- A control counts for no key. -/
theorem typedKey?_of_request (t : Terminal) (asks : (request? code).isSome) : t.typedKey? code = none := by
  obtain ⟨e, asked⟩ := Option.isSome_iff_exists.mp asks
  rw [← Controls.event?_characters] at asked
  have kept := Controls.mem_codes_of_event? asked
  simp only [Controls.characters, Controls.codes, List.map_cons, List.map_nil, List.mem_cons, List.not_mem_nil,
    or_false] at kept
  rcases kept with rfl | rfl | rfl | rfl | rfl | rfl <;> rfl

/-! ## One character -/

theorem keymap_handle (t : Terminal) (moment : Double) (event : Option HostEvent) (code : Int) :
    (t.handle moment event code).1.keymap = t.keymap := by
  rw [handle]
  split
  · rfl
  · split <;> rfl

theorem Controlled.of_keymap {u : Terminal} (controlled : t.Controlled codes) (same : u.keymap = t.keymap) :
    u.Controlled codes := by
  rw [Controlled, same]
  exact controlled

/-- What a batch asked for before does not matter to the keys. -/
theorem handle_fst (t : Terminal) (moment : Double) (event : Option HostEvent) (code : Int) :
    (t.handle moment event code).1 = (t.handle moment none code).1 := by
  rw [handle, handle]
  split
  · rfl
  · split <;> rfl

theorem handle_snd (t : Terminal) (moment : Double) (event : Option HostEvent) (code : Int) :
    (t.handle moment event code).2 = (request? code).toList.foldl merge event := by
  rw [handle, Controls.event?_characters]
  cases request? code with
  | some e => rfl
  | none => cases t.keymap.key? code <;> rfl

/-- A character sets the moment of the key that has its code, and of no other. -/
theorem until_handle (controlled : t.Controlled codes) :
    (t.handle moment event code).1.heldUntil.get k =
      if code = codes k then moment.add holdTime else t.heldUntil.get k := by
  rw [handle, Controls.event?_characters]
  cases asked : request? code with
  | some e =>
    have other : code ≠ codes k := by
      intro same
      rw [same, controlled.unasked] at asked
      cases asked
    rw [if_neg other]
  | none =>
    cases selected : t.keymap.key? code with
    | none => rw [if_neg (controlled.ne_of_none selected k)]
    | some j =>
      show (t.heldUntil.setIfInBounds j.val (moment.add holdTime))[k.val] =
        if code = codes k then moment.add holdTime else t.heldUntil[k.val]
      simp only [Vector.getElem_setIfInBounds, Fin.val_inj, controlled.eq_iff selected]

/-! ## One batch -/

def heard (t : Terminal) (moment : Double) (typed : List Int) : Terminal :=
  typed.foldl (fun u code => (u.handle moment none code).1) t

theorem keymap_heard (t : Terminal) (moment : Double) (typed : List Int) :
    (t.heard moment typed).keymap = t.keymap := by
  induction typed generalizing t with
  | nil => rfl
  | cons code rest ih => exact (ih _).trans (t.keymap_handle moment none code)

theorem until_heard (controlled : t.Controlled codes) (typed : List Int) :
    (t.heard moment typed).heldUntil.get k =
      if codes k ∈ typed then moment.add holdTime else t.heldUntil.get k := by
  induction typed generalizing t with
  | nil => simp [heard]
  | cons code rest ih =>
    have still : (t.handle moment none code).1.Controlled codes :=
      controlled.of_keymap (t.keymap_handle moment none code)
    rw [heard, List.foldl_cons, ← heard, ih still, until_handle controlled]
    by_cases later : codes k ∈ rest
    · simp [later]
    · by_cases same : code = codes k
      · simp [same]
      · simp [later, same, Ne.symm same]

theorem handleAll_eq (t : Terminal) (moment : Double) (event : Option HostEvent) (typed : List Int) :
    t.handleAll moment event typed = (t.heard moment typed, (typed.filterMap request?).foldl merge event) := by
  induction typed generalizing t event with
  | nil => rfl
  | cons code rest ih =>
    rw [handleAll]
    simp only [ih, handle_snd, handle_fst t moment event]
    cases asked : request? code with
    | none => rw [List.filterMap_cons_none asked]; rfl
    | some e => rw [List.filterMap_cons_some asked]; rfl

theorem poll_eq (t : Terminal) (typed : List Int) (moment now : Double) :
    t.poll typed moment now =
      (t.heard moment typed, ⟨(t.heard moment typed).heldAt now, verdict (typed.filterMap request?)⟩) := by
  rw [poll, handleAll_eq, foldl_merge_none]

/-! ## The clock -/

/-- Takes characters one by one, and reads the clock at the first that is a key; the end of the hold that it set
    is that of all later ones. -/
def sample (t : Terminal) (hold : Option Double) (event : Option HostEvent) :
    List (Int × Double) → Terminal × Option HostEvent
  | [] => (t, event)
  | (code, clock) :: rest =>
    match Controls.characters.event? code with
    | some e => sample t hold (merge event e) rest
    | none =>
      match t.keymap.key? code with
      | none => sample t hold event rest
      | some k =>
        let last := hold.getD (clock.add holdTime)
        sample { t with heldUntil := t.heldUntil.setIfInBounds k.val last } (some last) event rest

/-- Once the clock was read, the batch has its moment. -/
theorem sample_some (t : Terminal) (moment : Double) (event : Option HostEvent) (taken : List (Int × Double)) :
    t.sample (some (moment.add holdTime)) event taken = t.handleAll moment event (taken.map Prod.fst) := by
  induction taken generalizing t event with
  | nil => rfl
  | cons p rest ih =>
    rw [sample, List.map_cons, handleAll, handle]
    cases Controls.characters.event? p.1 with
    | some e => exact ih t (merge event e)
    | none =>
      cases t.keymap.key? p.1 with
      | none => exact ih t event
      | some k => exact ih _ event

/-- So the signals of a batch are what a terminal gets that takes its characters one by one. -/
theorem sample_none (controlled : t.Controlled codes) (event : Option HostEvent) (b : Batch) :
    t.sample none event b.taken = t.handleAll (b.signals t.keymap).moment event b.codes := by
  obtain ⟨taken, now⟩ := b
  induction taken generalizing event with
  | nil => rfl
  | cons p rest ih =>
    rw [sample, Batch.codes, List.map_cons, handleAll, handle]
    cases asked : Controls.characters.event? p.1 with
    | some e =>
      have unmapped := controlled.free p.1 (Controls.mem_codes_of_event? asked)
      rw [Batch.moment_of_unmapped unmapped]
      exact ih (merge event e)
    | none =>
      cases selected : t.keymap.key? p.1 with
      | none =>
        rw [Batch.moment_of_unmapped selected]
        exact ih event
      | some k =>
        rw [Batch.moment_of_mapped selected]
        exact sample_some _ p.2 event rest

/-! ## Many batches -/

def after (t : Terminal) (signals : List Signals) : Terminal := signals.foldl (fun u s => u.heard s.moment s.codes) t

theorem after_append (t : Terminal) (before later : List Signals) :
    t.after (before ++ later) = (t.after before).after later := List.foldl_append

theorem keymap_after (t : Terminal) (signals : List Signals) : (t.after signals).keymap = t.keymap := by
  induction signals generalizing t with
  | nil => rfl
  | cons s rest ih => exact (ih _).trans (t.keymap_heard s.moment s.codes)

theorem pollAll_snd (t : Terminal) (signals : List Signals) :
    ((terminal t).pollAll signals).2 = terminal (t.after signals) := by
  induction signals generalizing t with
  | nil => rfl
  | cons s rest ih =>
    rw [after, List.foldl_cons, ← after, ← ih]
    simp only [pollAll, Keypad.poll, poll_eq]

/-- A key counts as held for a while after the moment of the latest batch with its code, and not before. -/
theorem held_after (controlled : t.Controlled codes) (unheld : t.heldUntil = Vector.replicate 16 (.finite 0 0))
    {now : Double} (late : (Double.finite 0 0).le now = true) (batches : List Batch) :
    now.lt ((t.after (batches.map (Batch.signals t.keymap))).heldUntil.get k) = true ↔
      ∃ b T, Latest (codes k ∈ ·.codes) batches b ∧ b.moment? t.keymap = some T ∧
        now.lt (T.add holdTime) = true := by
  induction batches using List.reverseRecOn with
  | nil =>
    have unset : (t.after []).heldUntil.get k = .finite 0 0 := by
      show t.heldUntil[k.val] = .finite 0 0
      rw [unheld, Vector.getElem_replicate]
    rw [List.map_nil, unset, Double.not_lt_of_le late]
    simp [not_latest_nil]
  | append_singleton before b ih =>
    have still : (t.after (before.map (Batch.signals t.keymap))).Controlled codes :=
      controlled.of_keymap (t.keymap_after _)
    rw [List.map_append, List.map_singleton, after_append, after, List.foldl_cons, List.foldl_nil, until_heard still]
    by_cases typed : codes k ∈ b.codes
    · have mapped : (t.keymap.key? (codes k)).isSome := by
        rw [(controlled.selects _ k).mpr rfl]
        rfl
      obtain ⟨T, moment⟩ := Batch.exists_moment typed mapped
      simp [latest_snoc, typed, Batch.signals, moment]
    · simp [latest_snoc, typed, Batch.signals, ih]

/-- From any keymap that is read: a typed character counts for the key of its small letter, the capital for the
    same key, and a control for none. Over any history of the reader and any polls, what the polls take was typed,
    in its order, and all of it if none was refused by the queue; a poll is over when the queue is empty. Each poll
    asks to quit if Escape or an interrupt is in its batch, and else for what the last control in it asks. At a
    moment of judgement that is not negative a key counts as held just if the latest batch with its code was,
    at its first character that is a key, less than a fifth of a second ago. -/
theorem terminal_holds_typed_keys {keymap : String} {t : Terminal} (made : create keymap = .ok t) :
    ∃ codes, Keymap.Defines true Controls.characters.codes keymap.toList codes ∧
      (∀ character k, 0 ≤ character →
        (t.typedKey? character = some k ↔
          (if character < 0x100 then Text.Latin.lower character else character) = codes k)) ∧
      (∀ character, Text.Latin.isCapital character = true →
        t.typedKey? (character + 32) = t.typedKey? character) ∧
      (∀ code, (request? code).isSome → t.typedKey? code = none) ∧
      ∀ acts r, Relay.start.after acts = some r →
        (Relay.drained acts).1.flatMap Batch.codes ++ (Relay.drained acts).2.map Prod.fst =
          acts.filterMap Relay.Act.received? ∧
        (acts.filterMap Relay.Act.received?).Sublist (acts.filterMap Relay.Act.typed?) ∧
        ((∀ code, Relay.Act.offer code false ∉ acts) →
          acts.filterMap Relay.Act.typed? = acts.filterMap Relay.Act.received? ++ r.queued ++ r.stage.codes) ∧
        (∀ before now later, acts = before ++ .leave now :: later →
          before.filterMap Relay.Act.put? = before.filterMap Relay.Act.received?) ∧
        ∀ before b later, (Relay.drained acts).1 = before ++ b :: later →
          ∃ input, ((terminal t).pollAll ((Relay.drained acts).1.map (Batch.signals t.keymap))).1[before.length]? =
              some input ∧
            input.event = verdict (b.codes.filterMap request?) ∧
            ((Double.finite 0 0).le b.now = true → ∀ k, input.keys.held k = true ↔
              ∃ u T, Latest (codes k ∈ ·.codes) (before ++ [b]) u ∧ u.moment? t.keymap = some T ∧
                b.now.lt (T.add holdTime) = true) := by
  obtain ⟨codes, defines, controlled, unheld⟩ := controlled_of_create made
  refine ⟨codes, defines, ?_, fun character => t.typedKey?_small, fun code => t.typedKey?_of_request, ?_⟩
  · intro character k real
    rw [typedKey?_eq_some_iff controlled real]
    split
    · rfl
    · next beyond => rw [Text.Latin.lower_of_outside (.inr (Int.not_lt.mp beyond))]
  · intro acts r ran
    refine ⟨Relay.drained_received acts, Relay.received_sublist_typed ran, ?_, ?_, ?_⟩
    · intro taken
      rw [Relay.codes_of_start ran, ← Relay.put?_eq_offered? taken, Relay.queued_of_start ran]
    · rintro before now later rfl
      obtain ⟨m, earlier, rest⟩ := Relay.after_append.mp ran
      obtain ⟨n, stepped, -⟩ := Relay.after_cons.mp rest
      obtain ⟨empty, -⟩ := Relay.step_leave.mp stepped
      rw [Relay.queued_of_start earlier, Relay.queued, empty]
      simp
    · intro before b later split
      rw [split]
      have answer := pollAll_at (terminal t) (before.map (Batch.signals t.keymap))
        (later.map (Batch.signals t.keymap)) (b.signals t.keymap)
      rw [List.length_map] at answer
      rw [List.map_append, List.map_cons]
      refine ⟨_, answer, ?_, ?_⟩
      · rw [pollAll_snd]
        simp only [Keypad.poll, poll_eq]
        rfl
      · intro late k
        rw [← held_after controlled unheld late, pollAll_snd, List.map_append, after_append]
        simp only [Keypad.poll, poll_eq, heldAt, Keys.held_ofPred]
        rfl

/-- The capital of a letter is typed, then Escape, and both are taken in one poll; a quarter of a second after the
    letter it is no longer held. -/
theorem terminal_holds_typed_keys_of_a_capital :
    ∃ t, create Keymap.standard = .ok t ∧
      let acts : List Relay.Act := [.look false, .read 88, .offer 120 true, .look false, .read (-1), .look false,
        .read 27, .offer 27 true, .take 120 (.finite 1 0), .take 27 (.finite 9 (-3)), .leave (.finite 9 (-3)),
        .leave (.finite 5 (-2))]
      (∃ r, Relay.start.after acts = some r) ∧ t.typedKey? 88 = t.typedKey? 120 ∧
      ∃ first second,
        ((terminal t).pollAll ((Relay.drained acts).1.map (Batch.signals t.keymap))).1 = [first, second] ∧
        first.event = some .quit ∧ first.keys.held 0 = true ∧
        second.event = none ∧ second.keys.held 0 = false := by
  obtain ⟨t, made, selected, moment⟩ : ∃ t, create Keymap.standard = .ok t ∧ t.typedKey? 88 = some 0 ∧
      Batch.moment? t.keymap ⟨[(120, .finite 1 0), (27, .finite 9 (-3))], .finite 9 (-3)⟩ = some (.finite 1 0) :=
    ⟨_, rfl, by decide, by decide⟩
  refine ⟨t, made, ?_⟩
  intro acts
  obtain ⟨r, ran⟩ : ∃ r, Relay.start.after acts = some r := ⟨_, rfl⟩
  obtain ⟨codes, -, selects, capitals, -, histories⟩ := terminal_holds_typed_keys made
  obtain ⟨-, -, -, -, answers⟩ := histories acts r ran
  let letter : Batch := ⟨[(120, .finite 1 0), (27, .finite 9 (-3))], .finite 9 (-3)⟩
  let nothing : Batch := ⟨[], .finite 5 (-2)⟩
  obtain ⟨first, early, asked, held⟩ := answers [] letter [nothing] rfl
  obtain ⟨second, late, unasked, unheld⟩ := answers [letter] nothing [] rfl
  have code : codes 0 = 120 := ((selects 88 0 (by decide)).mp selected).symm
  refine ⟨⟨r, ran⟩, (capitals 88 rfl).symm, first, second, ?_, asked, ?_, unasked, ?_⟩
  · rw [List.getElem?_eq_some_iff] at early late
    obtain ⟨-, rfl⟩ := early
    obtain ⟨-, rfl⟩ := late
    rfl
  · rw [held (by decide)]
    refine ⟨letter, .finite 1 0, ⟨[], [], rfl, ?_, nofun⟩, moment, by decide +kernel⟩
    rw [code]
    decide
  · rw [← Bool.not_eq_true, unheld (by decide)]
    rintro ⟨u, T, latest, sampled, still⟩
    have absent : codes 0 ∉ nothing.codes := List.not_mem_nil
    obtain ⟨same, -⟩ | ⟨-, earlier⟩ := latest_snoc.mp latest
    · exact absent same
    · have only : Latest (codes 0 ∈ ·.codes) ([] ++ [letter]) u := earlier
      obtain ⟨-, rfl⟩ | ⟨-, never⟩ := latest_snoc.mp only
      · obtain rfl : Double.finite 1 0 = T := Option.some.inj (moment.symm.trans sampled)
        revert still
        decide +kernel
      · exact not_latest_nil never

end Terminal

end Keypad

end Chip8
