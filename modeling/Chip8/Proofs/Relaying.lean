/-
  Chip8.Proofs.Relaying — a reader and its keypad at the two ends of a queue.

  The reader and the keypad act in turn in any order, and at any moment the reader may be told to end. Each act
  is one look, one character, one offer to the queue or one take from it, and what it finds is part of it
  (`Relay.step`). Two balances hold over every history: what was typed is what was offered and the code on its
  way (`codes_after`), and what was put into the queue is what was taken from it and what is in it
  (`queued_after`). So a code is lost only at a full queue. A reader that has ended acts no more (`ended_stays`),
  and one with a code that waits does nothing else before it (`carried_waits`). A reader that nobody disturbs
  does what `Reader.run` says (`after_run`).
-/
import Chip8.Keypad.Reader
import Chip8.Number.Double
import Chip8.Proofs.Keymaps
import Mathlib.Data.List.Basic
import Mathlib.Data.List.Induction

namespace Chip8.Keypad

/-! ## What characters ask for -/

/-- What a character asks of the emulator: to quit by Escape or an interrupt, to pause by a space, and to reset
    by what terminals send for Backspace. -/
def request? (code : Int) : Option HostEvent :=
  if code = 27 ∨ code = 3 then some .quit
  else if code = 32 then some .pause
  else if code = 8 ∨ code = 127 ∨ code = 263 then some .reset
  else none

theorem Controls.event?_characters (code : Int) : Controls.characters.event? code = request? code := by
  by_cases kept : code ∈ Controls.characters.codes
  · simp only [Controls.characters, Controls.codes, List.map_cons, List.map_nil, List.mem_cons, List.not_mem_nil,
      or_false] at kept
    rcases kept with rfl | rfl | rfl | rfl | rfl | rfl <;> rfl
  · rw [event?_eq_none_iff.mpr kept]
    simp only [Controls.characters, Controls.codes, List.map_cons, List.map_nil, List.mem_cons, List.not_mem_nil,
      or_false, not_or] at kept
    obtain ⟨notEscape, notInterrupt, notSpace, notBack, notDelete, notBackspace⟩ := kept
    simp [request?, notEscape, notInterrupt, notSpace, notBack, notDelete, notBackspace]

theorem request?_eq_quit {code : Int} : request? code = some .quit ↔ code = 27 ∨ code = 3 := by
  rw [request?]
  split
  · next asks => simp [asks]
  · next other =>
    split
    · simp [other]
    · split <;> simp [other]

/-! ## Offers to a queue -/

namespace Mailbox

variable {α : Type} (b : Mailbox α) (a : α)

theorem offer_eq : b.offer a = if b.items.size < b.capacity then (b.push a, true) else (b, false) := by
  by_cases room : b.items.size < b.capacity
  · simp [offer, isFull, room]
  · simp [offer, isFull, room, Nat.not_lt.mp room]

theorem capacity_offer : (b.offer a).1.capacity = b.capacity := by
  rw [offer_eq]
  split <;> rfl

theorem size_offer_le (room : b.items.size ≤ b.capacity) : (b.offer a).1.items.size ≤ b.capacity := by
  rw [offer_eq]
  split
  · next more =>
    rw [push, Array.size_push]
    exact more
  · exact room

/-- A queue with any room at all holds something after an offer. -/
theorem isEmpty_offer (length : 0 < b.capacity) : (b.offer a).1.items.isEmpty = false := by
  rw [offer_eq]
  split
  · simp [push]
  · next full => simp [Array.isEmpty, show b.items.size ≠ 0 by omega]

end Mailbox

/-! ## Typed characters -/

namespace Reader

/-- Where a reader stands: at the top of its loop, waiting for a character, with a code on its way into the
    queue, or at its end. -/
inductive Stage where
  | top
  | waiting
  | carrying (p : Put)
  | ended
  deriving DecidableEq, Repr

def Stage.codes : Stage → List Int
  | carrying p => [p.code]
  | top | waiting | ended => []

/-- What a character is typed for: its small letter if it is a Latin one, and nothing if it is negative. -/
def typed? (character : Int) : Option Int :=
  if character < 0 then none
  else some (if character < 0x100 then Text.Latin.lower character else character)

theorem typed?_eq_none {character : Int} : typed? character = none ↔ character < 0 := by
  rw [typed?]
  split
  · next failed => simp [failed]
  · next real => simp [real]

theorem typed?_of_nonneg {character : Int} (real : 0 ≤ character) :
    typed? character = some (Text.Latin.lower character) := by
  rw [typed?, if_neg (Int.not_lt.mpr real)]
  split
  · rfl
  · next beyond => rw [Text.Latin.lower_of_outside (.inr (Int.not_lt.mp beyond))]

theorem put?_eq (character : Int) :
    put? character = (typed? character).map fun code => ⟨code, decide (code = 27 ∨ code = 3)⟩ := by
  rw [put?]
  split
  · next failed => rw [typed?_eq_none.mpr failed, Option.map_none]
  · next real =>
    have waits (code : Int) :
        (Controls.characters.event? code == some .quit) = decide (code = 27 ∨ code = 3) := by
      rw [Bool.eq_iff_iff, beq_iff_eq, Controls.event?_characters, request?_eq_quit, decide_eq_true_iff]
    rw [typed?_of_nonneg (Int.not_lt.mp real), Option.map_some, ← waits]

theorem typed?_nonneg {character code : Int} (typed : typed? character = some code) : 0 ≤ code := by
  have real : ¬character < 0 := by
    rw [← typed?_eq_none, typed]
    exact nofun
  rw [typed?_of_nonneg (Int.not_lt.mp real), Option.some_inj] at typed
  rw [← typed, Text.Latin.lower]
  split <;> omega

/-- The characters that ask to quit have no case. -/
theorem typed?_quit {character : Int} (quits : character = 27 ∨ character = 3) :
    typed? character = some character := by
  rcases quits with rfl | rfl <;> rfl

end Reader

/-! ## Acts -/

/-- A reader, its queue, and the queue by which it is told to end. -/
structure Relay where
  stage : Reader.Stage
  queue : Mailbox Reader.Put
  ending : Mailbox Unit
  deriving DecidableEq, Repr

namespace Relay

inductive Act where
  /-- Somebody tells the reader to end. -/
  | tell
  /-- The reader looks whether it was told to end. -/
  | look (told : Bool)
  | read (character : Int)
  /-- The reader offers its code to the queue. -/
  | offer (code : Int) (taken : Bool)
  /-- The keypad takes the first code of the queue; this is what a clock shows. -/
  | take (code : Int) (moment : Double)
  /-- The keypad finds the queue empty, and its poll is over. -/
  | leave (now : Double)
  deriving DecidableEq, Repr

namespace Act

def isReaders : Act → Bool
  | look _ | read _ | offer _ _ => true
  | tell | take _ _ | leave _ => false

def character? : Act → Option Int
  | read character => some character
  | _ => none

def typed? : Act → Option Int
  | read character => Reader.typed? character
  | _ => none

def offered? : Act → Option Int
  | offer code _ => some code
  | _ => none

def put? : Act → Option Int
  | offer code true => some code
  | _ => none

def received? : Act → Option Int
  | take code _ => some code
  | _ => none

end Act

def start : Relay := ⟨.top, .empty queueLength, .empty endingLength⟩

def isTold (r : Relay) : Bool := !r.ending.items.isEmpty

/-- What an act leaves, where it is possible. A code that waits cannot be refused: its offer is possible only when
    the queue has room for it. -/
def step (r : Relay) : Act → Option Relay
  | .tell => some { r with ending := (r.ending.offer ()).1 }
  | .look told =>
    if r.stage = .top ∧ r.isTold = told then some { r with stage := if told then .ended else .waiting } else none
  | .read character =>
    if r.stage = .waiting then
      some { r with stage := match Reader.put? character with
        | none => .top
        | some p => .carrying p }
    else none
  | .offer code taken =>
    match r.stage with
    | .carrying p =>
      if p.code = code ∧ (r.queue.offer p).2 = taken ∧ (p.waits = true → taken = true) then
        some { r with stage := if p.waits then .ended else .top, queue := (r.queue.offer p).1 }
      else none
    | _ => none
  | .take code _ =>
    match r.queue.items.toList with
    | p :: rest =>
      if p.code = code then some { r with queue := { r.queue with items := rest.toArray } } else none
    | [] => none
  | .leave _ => if r.queue.items.isEmpty then some r else none

def after (r : Relay) (acts : List Act) : Option Relay := acts.foldlM step r

variable {r s : Relay} {acts : List Act} {code : Int} {taken told : Bool}

theorem step_look : r.step (.look told) = some s ↔
    r.stage = .top ∧ r.isTold = told ∧ s = { r with stage := if told then .ended else .waiting } := by
  rw [step, Option.ite_none_right_eq_some, Option.some_inj, and_assoc, eq_comm (b := s)]

theorem step_read {character : Int} : r.step (.read character) = some s ↔
    r.stage = .waiting ∧ s = { r with stage := match Reader.put? character with
      | none => .top
      | some p => .carrying p } := by
  rw [step, Option.ite_none_right_eq_some, Option.some_inj, eq_comm (b := s)]

theorem step_offer : r.step (.offer code taken) = some s ↔
    ∃ p, r.stage = .carrying p ∧ p.code = code ∧ (r.queue.offer p).2 = taken ∧ (p.waits = true → taken = true) ∧
      s = { r with stage := if p.waits then .ended else .top, queue := (r.queue.offer p).1 } := by
  rw [step]
  split
  · next p carrying =>
    rw [Option.ite_none_right_eq_some, Option.some_inj, eq_comm (b := s)]
    simp only [carrying, Reader.Stage.carrying.injEq, and_assoc, exists_eq_left']
  · next other =>
    constructor
    · exact nofun
    · rintro ⟨p, carrying, -⟩
      exact absurd carrying (other p)

theorem step_take {moment : Double} : r.step (.take code moment) = some s ↔
    ∃ p rest, r.queue.items.toList = p :: rest ∧ p.code = code ∧
      s = { r with queue := { r.queue with items := rest.toArray } } := by
  rw [step]
  split
  · next p rest front =>
    rw [Option.ite_none_right_eq_some, Option.some_inj, eq_comm (b := s)]
    simp only [front, List.cons.injEq]
    constructor
    · rintro ⟨same, rfl⟩
      exact ⟨p, rest, ⟨rfl, rfl⟩, same, rfl⟩
    · rintro ⟨_, _, ⟨rfl, rfl⟩, same, rfl⟩
      exact ⟨same, rfl⟩
  · next empty => simp [empty]

theorem step_leave {now : Double} : r.step (.leave now) = some s ↔ r.queue.items = #[] ∧ s = r := by
  rw [step, Option.ite_none_right_eq_some, Option.some_inj, eq_comm (b := s), Array.isEmpty_iff]

theorem after_nil : r.after [] = some s ↔ r = s := by
  simp [after]

theorem after_cons {a : Act} :
    r.after (a :: acts) = some s ↔ ∃ m, r.step a = some m ∧ m.after acts = some s := by
  simp [after, List.foldlM_cons, Option.bind_eq_some_iff]

theorem after_append {before later : List Act} :
    r.after (before ++ later) = some s ↔ ∃ m, r.after before = some m ∧ m.after later = some s := by
  simp [after, List.foldlM_append, Option.bind_eq_some_iff]

theorem after_snoc {a : Act} :
    r.after (acts ++ [a]) = some s ↔ ∃ m, r.after acts = some m ∧ m.step a = some s := by
  simp [after_append, after_cons, after_nil]

/-- The others do not move the reader. -/
theorem stage_step {a : Act} (others : a.isReaders = false) (stepped : r.step a = some s) :
    s.stage = r.stage := by
  cases a with
  | tell => cases stepped; rfl
  | look | read | offer => cases others
  | take code moment =>
    obtain ⟨p, rest, -, -, rfl⟩ := step_take.mp stepped
    rfl
  | leave now =>
    obtain ⟨-, rfl⟩ := step_leave.mp stepped
    rfl

/-! ## Where the reader stands -/

/-- A reader that has ended acts no more. -/
theorem ended_stays (ended : r.stage = .ended) (ran : r.after acts = some s) :
    acts.filter Act.isReaders = [] ∧ s.stage = .ended := by
  induction acts generalizing r with
  | nil =>
    obtain rfl := after_nil.mp ran
    exact ⟨rfl, ended⟩
  | cons a rest ih =>
    obtain ⟨m, stepped, later⟩ := after_cons.mp ran
    -- No act of the reader is possible at its end, so only the others act.
    cases mine : a.isReaders with
    | false =>
      rw [List.filter_cons_of_neg (by simp [mine])]
      exact ih ((stage_step mine stepped).trans ended) later
    | true =>
      cases a with
      | tell | take | leave => cases mine
      | look => simp [step_look, ended] at stepped
      | read => simp [step_read, ended] at stepped
      | offer => simp [step_offer, ended] at stepped

/-- A code that waits is the last one of its reader, and the reader does nothing else before it is taken. -/
theorem carried_waits (carrying : r.stage = .carrying ⟨code, true⟩) (ran : r.after acts = some s) :
    (acts.filter Act.isReaders = [] ∧ s.stage = .carrying ⟨code, true⟩) ∨
      (acts.filter Act.isReaders = [.offer code true] ∧ s.stage = .ended) := by
  induction acts generalizing r with
  | nil =>
    obtain rfl := after_nil.mp ran
    exact .inl ⟨rfl, carrying⟩
  | cons a rest ih =>
    obtain ⟨m, stepped, later⟩ := after_cons.mp ran
    -- The only act of the reader here is the offer of this code, which puts it and ends the reader.
    cases mine : a.isReaders with
    | false =>
      rw [List.filter_cons_of_neg (by simp [mine])]
      exact ih ((stage_step mine stepped).trans carrying) later
    | true =>
      cases a with
      | tell | take | leave => cases mine
      | look => simp [step_look, carrying] at stepped
      | read => simp [step_read, carrying] at stepped
      | offer other taken =>
        obtain ⟨p, same, rfl, -, waits, rfl⟩ := step_offer.mp stepped
        obtain rfl : p = ⟨code, true⟩ := by simpa [carrying, eq_comm] using same
        obtain ⟨none, ended⟩ := ended_stays rfl later
        rw [List.filter_cons_of_pos mine, none, waits rfl]
        exact .inr ⟨rfl, ended⟩

/-- A reader waits for a character just after it looked whether it was told to end. -/
theorem waiting_step {a : Act} (stepped : r.step a = some s) (waiting : s.stage = .waiting) :
    a = .look false ∨ (a.isReaders = false ∧ r.stage = .waiting) := by
  cases a with
  | tell | take | leave => exact .inr ⟨rfl, (stage_step rfl stepped).symm.trans waiting⟩
  | look told =>
    obtain ⟨-, -, rfl⟩ := step_look.mp stepped
    cases told with
    | false => exact .inl rfl
    | true => cases waiting
  | read character =>
    obtain ⟨-, rfl⟩ := step_read.mp stepped
    cases put : Reader.put? character <;> simp [put] at waiting
  | offer code taken =>
    obtain ⟨p, -, -, -, -, rfl⟩ := step_offer.mp stepped
    cases waits : p.waits <;> simp [waits] at waiting

/-- By induction from the end of the history: the acts of others since the look do not count. -/
theorem waiting_after (ran : start.after acts = some s) (waiting : s.stage = .waiting) :
    (acts.filter Act.isReaders).getLast? = some (.look false) := by
  induction acts using List.reverseRecOn generalizing s with
  | nil =>
    obtain rfl := after_nil.mp ran
    cases waiting
  | append_singleton before a ih =>
    obtain ⟨m, earlier, stepped⟩ := after_snoc.mp ran
    rcases waiting_step stepped waiting with rfl | ⟨others, still⟩
    · simp [Act.isReaders]
    · simpa [others] using ih earlier still

/-! ## The books -/

/-- What an act adds to the code on its way, it offers or leaves on its way. -/
theorem codes_step {a : Act} (stepped : r.step a = some s) :
    r.stage.codes ++ a.typed?.toList = a.offered?.toList ++ s.stage.codes := by
  cases a with
  | tell | take | leave =>
    rw [stage_step rfl stepped]
    simp [Act.typed?, Act.offered?]
  | look told =>
    obtain ⟨top, -, rfl⟩ := step_look.mp stepped
    cases told <;> simp [top, Reader.Stage.codes, Act.typed?, Act.offered?]
  | read character =>
    obtain ⟨waiting, rfl⟩ := step_read.mp stepped
    rw [Reader.put?_eq, waiting]
    cases typed : Reader.typed? character <;> simp [Reader.Stage.codes, Act.typed?, Act.offered?, typed]
  | offer code taken =>
    obtain ⟨p, carrying, rfl, -, -, rfl⟩ := step_offer.mp stepped
    cases p.waits <;> simp [carrying, Reader.Stage.codes, Act.typed?, Act.offered?]

def queued (r : Relay) : List Int := r.queue.items.toList.map Reader.Put.code

/-- What an act adds to the queue, it takes out of it or leaves in it. -/
theorem queued_step {a : Act} (stepped : r.step a = some s) :
    r.queued ++ a.put?.toList = a.received?.toList ++ s.queued := by
  cases a with
  | tell =>
    cases stepped
    simp [queued, Act.put?, Act.received?]
  | look told =>
    obtain ⟨-, -, rfl⟩ := step_look.mp stepped
    simp [queued, Act.put?, Act.received?]
  | read character =>
    obtain ⟨-, rfl⟩ := step_read.mp stepped
    simp [queued, Act.put?, Act.received?]
  | offer code taken =>
    obtain ⟨p, -, rfl, found, -, rfl⟩ := step_offer.mp stepped
    rw [Mailbox.offer_eq] at found
    rw [queued, queued, Mailbox.offer_eq]
    split at found
    · next room =>
      obtain rfl : true = taken := found
      simp [room, Mailbox.push, Act.put?, Act.received?]
    · next full =>
      obtain rfl : false = taken := found
      simp [full, Act.put?, Act.received?]
  | take code moment =>
    obtain ⟨p, rest, front, rfl, rfl⟩ := step_take.mp stepped
    simp [queued, front, Act.put?, Act.received?]
  | leave now =>
    obtain ⟨-, rfl⟩ := step_leave.mp stepped
    simp [queued, Act.put?, Act.received?]

/-- What balances over each act balances over a history. -/
theorem balance_after {gained lost : Act → Option Int} {kept : Relay → List Int}
    (law : ∀ r a s, r.step a = some s → kept r ++ (gained a).toList = (lost a).toList ++ kept s)
    (ran : r.after acts = some s) : kept r ++ acts.filterMap gained = acts.filterMap lost ++ kept s := by
  induction acts generalizing r with
  | nil =>
    obtain rfl := after_nil.mp ran
    simp
  | cons a rest ih =>
    obtain ⟨m, stepped, later⟩ := after_cons.mp ran
    -- `filterMap` splits off its head as a list of one item or none.
    have balanced := ih later
    simp only [List.filterMap_eq_flatMap_toList] at balanced ⊢
    rw [List.flatMap_cons, List.flatMap_cons, ← List.append_assoc, law r a m stepped, List.append_assoc, balanced,
      List.append_assoc]

/-- What was typed is offered in its order, up to the code on its way. -/
theorem codes_after (ran : r.after acts = some s) :
    r.stage.codes ++ acts.filterMap Act.typed? = acts.filterMap Act.offered? ++ s.stage.codes :=
  balance_after (fun _ _ _ => codes_step) ran

/-- What was put is received in its order, up to what the queue holds. -/
theorem queued_after (ran : r.after acts = some s) :
    r.queued ++ acts.filterMap Act.put? = acts.filterMap Act.received? ++ s.queued :=
  balance_after (fun _ _ _ => queued_step) ran

/-- What is put into the queue was offered to it. -/
theorem put?_sublist_offered? (acts : List Act) :
    (acts.filterMap Act.put?).Sublist (acts.filterMap Act.offered?) := by
  induction acts with
  | nil => exact List.Sublist.slnil
  | cons a rest ih =>
    cases a with
    | offer code taken =>
      cases taken with
      | true => exact ih.cons_cons code
      | false => exact ih.cons code
    | tell | look | read | take | leave => exact ih

/-- What is offered and not refused is put into the queue. -/
theorem put?_eq_offered? (taken : ∀ code, Act.offer code false ∉ acts) :
    acts.filterMap Act.put? = acts.filterMap Act.offered? := by
  refine List.filterMap_congr ?_
  intro a mem
  cases a with
  | offer code accepted =>
    cases accepted with
    | true => rfl
    | false => exact absurd mem (taken code)
  | tell | look | read | take | leave => rfl

theorem codes_of_start (ran : start.after acts = some r) :
    acts.filterMap Act.typed? = acts.filterMap Act.offered? ++ r.stage.codes := codes_after ran

theorem queued_of_start (ran : start.after acts = some r) :
    acts.filterMap Act.put? = acts.filterMap Act.received? ++ r.queued := queued_after ran

/-- What is received was typed, in this order. -/
theorem received_sublist_typed (ran : start.after acts = some r) :
    (acts.filterMap Act.received?).Sublist (acts.filterMap Act.typed?) := by
  have received : (acts.filterMap Act.received?).Sublist (acts.filterMap Act.put?) :=
    queued_of_start ran ▸ List.sublist_append_left _ _
  have offered : (acts.filterMap Act.offered?).Sublist (acts.filterMap Act.typed?) :=
    codes_of_start ran ▸ List.sublist_append_left _ _
  exact received.trans ((put?_sublist_offered? acts).trans offered)

/-! ## What holds at any moment -/

/-- A relay with queues of their lengths, and a code on its way that waits just if it asks to quit. -/
structure Sound (r : Relay) : Prop where
  waits : ∀ p, r.stage = .carrying p → (p.waits = true ↔ p.code = 27 ∨ p.code = 3)
  length : r.queue.capacity = queueLength
  room : r.queue.items.size ≤ queueLength
  ending : r.ending.capacity = endingLength

theorem sound_start : start.Sound := ⟨nofun, rfl, Nat.zero_le _, rfl⟩

theorem Sound.step {a : Act} (sound : r.Sound) (stepped : r.step a = some s) : s.Sound := by
  cases a with
  | tell =>
    cases stepped
    exact ⟨sound.waits, sound.length, sound.room, (Mailbox.capacity_offer _ _).trans sound.ending⟩
  | look told =>
    obtain ⟨-, -, rfl⟩ := step_look.mp stepped
    refine ⟨?_, sound.length, sound.room, sound.ending⟩
    cases told <;> exact nofun
  | read character =>
    obtain ⟨-, rfl⟩ := step_read.mp stepped
    refine ⟨?_, sound.length, sound.room, sound.ending⟩
    rw [Reader.put?_eq]
    cases Reader.typed? character with
    | none => exact nofun
    | some code =>
      rintro p ⟨⟩
      exact decide_eq_true_iff
  | offer code taken =>
    obtain ⟨p, -, -, -, -, rfl⟩ := step_offer.mp stepped
    refine ⟨?_, (Mailbox.capacity_offer _ _).trans sound.length, ?_, sound.ending⟩
    · cases p.waits <;> exact nofun
    · have room := sound.room
      rw [← sound.length] at room ⊢
      exact Mailbox.size_offer_le _ p room
  | take code moment =>
    obtain ⟨p, rest, front, -, rfl⟩ := step_take.mp stepped
    refine ⟨sound.waits, sound.length, ?_, sound.ending⟩
    have room := sound.room
    rw [← Array.length_toList, front, List.length_cons] at room
    exact Nat.le_of_succ_le room
  | leave now =>
    obtain ⟨-, rfl⟩ := step_leave.mp stepped
    exact sound

theorem Sound.after (sound : r.Sound) (ran : r.after acts = some s) : s.Sound := by
  induction acts generalizing r with
  | nil => exact after_nil.mp ran ▸ sound
  | cons a rest ih =>
    obtain ⟨m, stepped, later⟩ := after_cons.mp ran
    exact ih (sound.step stepped) later

/-- Only being told fills the queue by which a reader is told to end, and it has room for that. -/
theorem told_step {a : Act} (sound : r.Sound) (stepped : r.step a = some s) :
    s.isTold = true ↔ r.isTold = true ∨ a = .tell := by
  cases a with
  | tell =>
    cases stepped
    have length : 0 < r.ending.capacity := by
      rw [sound.ending]
      decide
    simp [isTold, Mailbox.isEmpty_offer _ _ length]
  | look told =>
    obtain ⟨-, -, rfl⟩ := step_look.mp stepped
    simp [isTold]
  | read character =>
    obtain ⟨-, rfl⟩ := step_read.mp stepped
    simp [isTold]
  | offer code taken =>
    obtain ⟨p, -, -, -, -, rfl⟩ := step_offer.mp stepped
    simp [isTold]
  | take code moment =>
    obtain ⟨p, rest, -, -, rfl⟩ := step_take.mp stepped
    simp [isTold]
  | leave now =>
    obtain ⟨-, rfl⟩ := step_leave.mp stepped
    simp

/-- A reader that was told to end stays so. -/
theorem told_after (sound : r.Sound) (ran : r.after acts = some s) :
    s.isTold = true ↔ r.isTold = true ∨ .tell ∈ acts := by
  induction acts generalizing r with
  | nil =>
    obtain rfl := after_nil.mp ran
    simp
  | cons a rest ih =>
    obtain ⟨m, stepped, later⟩ := after_cons.mp ran
    rw [ih (sound.step stepped) later, told_step sound stepped, List.mem_cons, or_assoc, eq_comm (a := a)]

/-! ## Whole histories -/

/-- A code on its way is offered as soon as there is room for it, and at once if it does not wait. -/
theorem offer_ready {p : Reader.Put} (carrying : r.stage = .carrying p)
    (room : p.waits = true → r.queue.items.size < r.queue.capacity) :
    r.step (.offer p.code (r.queue.offer p).2) =
      some { r with stage := if p.waits then .ended else .top, queue := (r.queue.offer p).1 } := by
  refine step_offer.mpr ⟨p, carrying, rfl, rfl, ?_, rfl⟩
  intro waits
  rw [Mailbox.offer_eq, if_pos (room waits)]

/-- Over any history of a reader, its keypad and the moment it is told to end: the keypad receives codes that were
    typed, in their order. What was typed is what was offered to the queue and the code on its way, and what the
    queue took is what was received and what it still holds. So a code is lost only when the queue does not take
    it, and then it holds sixteen codes and this one does not ask to quit. A character that asks to quit waits for
    its place, which is there as soon as the keypad takes a code; the reader does nothing before and nothing after
    it is put. A negative result is no code. A reader looks before each character whether it was told to end, and
    once it sees that it was, it acts no more. -/
theorem relay_keeps_codes (ran : start.after acts = some r) :
    (acts.filterMap Act.received?).Sublist (acts.filterMap Act.typed?) ∧
    acts.filterMap Act.typed? = acts.filterMap Act.offered? ++ r.stage.codes ∧
    acts.filterMap Act.put? = acts.filterMap Act.received? ++ r.queued ∧
    (∀ code ∈ acts.filterMap Act.offered?, 0 ≤ code) ∧
    (∀ before code later, acts = before ++ .offer code false :: later →
      code ≠ 27 ∧ code ≠ 3 ∧ ∃ m, start.after before = some m ∧ m.queue.items.size = 16) ∧
    (∀ before character later, acts = before ++ .read character :: later →
      (before.filter Act.isReaders).getLast? = some (.look false) ∧
      (character = 27 ∨ character = 3 →
        (later.filter Act.isReaders = [.offer character true] ∧ r.stage = .ended) ∨
          (later.filter Act.isReaders = [] ∧ r.stage = .carrying ⟨character, true⟩ ∧
            (r.queue.items.size < 16 → ∃ s, r.step (.offer character true) = some s)))) ∧
    ∀ before told later, acts = before ++ .look told :: later →
      (told = true ↔ .tell ∈ before) ∧ (told = true → later.filter Act.isReaders = []) := by
  refine ⟨received_sublist_typed ran, codes_of_start ran, queued_of_start ran, ?_, ?_, ?_, ?_⟩
  · intro code offered
    have typed : code ∈ acts.filterMap Act.typed? := codes_of_start ran ▸ List.mem_append_left _ offered
    obtain ⟨a, -, same⟩ := List.mem_filterMap.mp typed
    cases a with
    | read character => exact Reader.typed?_nonneg same
    | tell | look | offer | take | leave => cases same
  · -- A refused code did not wait, and the queue that refused it was full.
    rintro before code later rfl
    obtain ⟨m, earlier, rest⟩ := after_append.mp ran
    obtain ⟨n, stepped, -⟩ := after_cons.mp rest
    obtain ⟨p, carrying, rfl, dropped, waits, -⟩ := step_offer.mp stepped
    have sound : m.Sound := sound_start.after earlier
    have other : ¬(p.code = 27 ∨ p.code = 3) := by
      rw [← sound.waits p carrying]
      exact fun asks => Bool.false_ne_true (waits asks)
    rw [Mailbox.offer_eq] at dropped
    split at dropped
    · cases dropped
    · next full =>
      rw [sound.length] at full
      exact ⟨(other <| .inl ·), (other <| .inr ·), m, earlier, Nat.le_antisymm sound.room (Nat.not_lt.mp full)⟩
  · -- A character that asks to quit leaves the reader with a code that waits.
    rintro before character later rfl
    obtain ⟨m, earlier, rest⟩ := after_append.mp ran
    obtain ⟨n, stepped, others⟩ := after_cons.mp rest
    obtain ⟨waiting, rfl⟩ := step_read.mp stepped
    refine ⟨waiting_after earlier waiting, ?_⟩
    intro quits
    have put : Reader.put? character = some ⟨character, true⟩ := by
      rw [Reader.put?_eq, Reader.typed?_quit quits, Option.map_some, decide_eq_true quits]
    rw [put] at others
    rcases carried_waits rfl others with ⟨none, carrying⟩ | ⟨last, ended⟩
    · refine .inr ⟨none, carrying, ?_⟩
      intro room
      rw [show 16 = r.queue.capacity from (sound_start.after ran).length.symm] at room
      have ready := offer_ready carrying fun _ => room
      rw [Mailbox.offer_eq, if_pos room] at ready
      exact ⟨_, ready⟩
    · exact .inl ⟨last, ended⟩
  · rintro before told later rfl
    obtain ⟨m, earlier, rest⟩ := after_append.mp ran
    obtain ⟨n, stepped, others⟩ := after_cons.mp rest
    obtain ⟨-, rfl, rfl⟩ := step_look.mp stepped
    refine ⟨?_, ?_⟩
    · have untold : start.isTold = false := rfl
      simpa [untold] using told_after sound_start earlier
    · intro told
      exact (ended_stays (by simp [told]) others).1

/-- Sixteen letters fill the queue, and the next one is lost. The interrupt behind it waits until the keypad has
    taken a code, and then the reader ends, although it was told to only after its last look. -/
theorem relay_keeps_codes_in_a_full_queue :
    let typed (character code : Int) (taken : Bool) : List Act :=
      [.look false, .read character, .offer code taken]
    let filling := (List.replicate 16 (typed 88 120 true)).flatten
    let acts := filling ++ typed 89 121 false ++
      [.look false, .read (-1), .look false, .read 3, .tell, .take 120 (.finite 1 0), .offer 3 true]
    ∃ r, start.after acts = some r ∧ acts.filterMap Act.received? = [120] ∧
      r.queued = List.replicate 15 120 ++ [3] ∧
      (∃ m, start.after (filling ++ [.look false, .read 89]) = some m ∧ m.queue.items.size = 16) ∧
      r.stage = .ended := by
  intro typed filling acts
  obtain ⟨r, ran⟩ : ∃ r, start.after acts = some r := ⟨_, rfl⟩
  obtain ⟨-, -, puts, -, dropped, read, -⟩ := relay_keeps_codes ran
  refine ⟨r, ran, rfl, ?_, ?_, ?_⟩
  · have put : acts.filterMap Act.put? = acts.filterMap Act.received? ++ (List.replicate 15 120 ++ [3]) := rfl
    exact List.append_cancel_left (puts.symm.trans put)
  · obtain ⟨-, -, full⟩ := dropped (filling ++ [.look false, .read 89]) 121 _ rfl
    exact full
  · obtain ⟨-, waits⟩ := read (filling ++ typed 89 121 false ++ [.look false, .read (-1), .look false]) 3 _ rfl
    rcases waits (.inr rfl) with ⟨-, ended⟩ | ⟨none, -⟩
    · exact ended
    · cases none

/-! ## A reader on its own -/

theorem after_reading (top : r.stage = .top) (untold : r.isTold = false) (character : Int) :
    r.after [.look false, .read character] = some { r with stage := match Reader.put? character with
      | none => .top
      | some p => .carrying p } :=
  after_cons.mpr ⟨_, step_look.mpr ⟨top, untold, rfl⟩,
    after_cons.mpr ⟨_, step_read.mpr ⟨rfl, rfl⟩, after_nil.mpr rfl⟩⟩

/-- A reader that nobody disturbs, and whose codes that wait have room, does what `Reader.read` says. -/
theorem after_read (top : r.stage = .top) (untold : r.isTold = false) (characters : List Int)
    (room : (Reader.read r.queue characters).1.items.size ≤ r.queue.capacity) :
    ∃ acts s, (∀ a ∈ acts, a.isReaders = true) ∧ r.after acts = some s ∧
      s.queue = (Reader.read r.queue characters).1 ∧
      acts.filterMap Act.character? ++ (Reader.read r.queue characters).2 = characters := by
  induction characters generalizing r with
  | nil => exact ⟨[], r, by simp, after_nil.mpr rfl, rfl, rfl⟩
  | cons c rest ih =>
    have reading := after_reading top untold c
    rw [Reader.read] at room ⊢
    cases put : Reader.put? c with
    | none =>
      rw [put] at reading
      simp only [put] at room ⊢
      obtain ⟨acts, s, mine, ran, queue, all⟩ := ih (r := { r with stage := .top }) rfl untold room
      refine ⟨[.look false, .read c] ++ acts, s, ?_, after_append.mpr ⟨_, reading, ran⟩, queue, ?_⟩
      · simpa [Act.isReaders] using mine
      · exact congrArg (List.cons c) all
    | some p =>
      rw [put] at reading
      simp only [put] at room ⊢
      cases waits : p.waits with
      | true =>
        simp only [waits, if_true] at room ⊢
        rw [Mailbox.push, Array.size_push, Nat.succ_le_iff] at room
        have offered := offer_ready (r := { r with stage := .carrying p }) rfl fun _ => room
        have pushed : r.queue.offer p = (r.queue.push p, true) := by rw [Mailbox.offer_eq, if_pos room]
        refine ⟨[.look false, .read c] ++ [.offer p.code (r.queue.offer p).2], _, ?_,
          after_snoc.mpr ⟨_, reading, offered⟩, ?_, rfl⟩
        · simp [Act.isReaders]
        · rw [pushed]
      | false =>
        simp only [waits, Bool.false_eq_true, if_false] at room ⊢
        have offered := offer_ready (r := { r with stage := .carrying p }) rfl fun asks =>
          absurd (waits.symm.trans asks) Bool.false_ne_true
        rw [waits] at offered
        rw [← Mailbox.capacity_offer r.queue p] at room
        obtain ⟨acts, s, mine, ran, queue, all⟩ :=
          ih (r := { r with stage := .top, queue := (r.queue.offer p).1 }) rfl untold room
        refine ⟨[.look false, .read c] ++ .offer p.code (r.queue.offer p).2 :: acts, s, ?_,
          after_append.mpr ⟨_, reading, after_cons.mpr ⟨_, offered, ran⟩⟩, queue, ?_⟩
        · simpa [Act.isReaders] using mine
        · exact congrArg (List.cons c) all

/-- The same for `Reader.run`, which reads nothing if it was told to end before. -/
theorem after_run (top : r.stage = .top) (characters : List Int)
    (room : (Reader.run r.isTold r.queue characters).1.items.size ≤ r.queue.capacity) :
    ∃ acts s, (∀ a ∈ acts, a.isReaders = true) ∧ r.after acts = some s ∧
      s.queue = (Reader.run r.isTold r.queue characters).1 ∧
      acts.filterMap Act.character? ++ (Reader.run r.isTold r.queue characters).2 = characters := by
  cases told : r.isTold with
  | true =>
    have looked : r.after [.look true] = some { r with stage := .ended } :=
      after_cons.mpr ⟨_, step_look.mpr ⟨top, told, rfl⟩, after_nil.mpr rfl⟩
    exact ⟨[.look true], _, by simp [Act.isReaders], looked, rfl, rfl⟩
  | false =>
    rw [told] at room
    exact after_read top told characters room

end Relay

end Chip8.Keypad
