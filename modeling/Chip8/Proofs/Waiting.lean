/-
  Chip8.Proofs.Waiting — a wait for a key has no effect but the time that it takes.

  With no key held the wait for a key comes back to where it was, and nothing but the word in progress and
  its address tells that it ran (`cycle_awaitKey`). So while nobody presses a key, the machine may run as
  often as it likes between the counts of its timers and the frames that it hands out: only the counts and
  the mark of the screen get through (`waited_acts`), and whether it ran at all makes no difference
  (`alike_acts`). The first cycle with a key held puts the highest one into the register and goes on.
-/
import Chip8.Proofs.Footprints
import Chip8.Proofs.Reachable

namespace Chip8

/-! ## Keys -/

namespace Keys

variable {keys : Keys} {k : Fin 16}

theorem highest?_eq_none (free : ∀ k, keys.held k = false) : keys.highest? = Option.none := by
  unfold highest?
  rw [List.find?_eq_none]
  intro k _ held
  simp [free k] at held

def Highest (keys : Keys) (k : Fin 16) : Prop := keys.held k = true ∧ ∀ j, keys.held j = true → j ≤ k

theorem highest_of_eq_some (found : keys.highest? = some k) : keys.Highest k := by
  unfold highest? at found
  obtain ⟨held, above, below, split, free⟩ := List.find?_eq_some_iff_append.mp found
  refine ⟨held, ?_⟩
  intro j also
  have falling : (above ++ k :: below).Pairwise (· > ·) := by
    rw [← split, List.pairwise_reverse]
    exact List.pairwise_lt_finRange 16
  have mem : j ∈ above ++ k :: below := by
    rw [← split]
    simp
  rcases List.mem_append.mp mem with before | after
  · have unheld := free j before
    simp [also] at unheld
  · rcases List.mem_cons.mp after with rfl | lower
    · exact Fin.le_refl j
    · obtain ⟨-, ordered, -⟩ := List.pairwise_append.mp falling
      exact Fin.le_of_lt ((List.pairwise_cons.mp ordered).1 j lower)

theorem exists_highest? (held : ∃ j, keys.held j = true) : ∃ k, keys.highest? = some k := by
  obtain ⟨j, held⟩ := held
  cases found : keys.highest? with
  | none =>
    unfold highest? at found
    have free := List.find?_eq_none.mp found j (by simp)
    exact absurd held free
  | some k => exact ⟨k, rfl⟩

end Keys

namespace Machine

/-! ## What passes while nobody presses a key -/

namespace Action

/-- Does an action leave it to the machine to wait: a cycle with no key held, a count, or a frame? -/
def Idles : Action → Prop
  | tick keys _ => ∀ k, keys.held k = false
  | countDown | frame => True
  | boot | reset => False

def isTick : Action → Bool
  | tick _ _ => true
  | _ => false

def isCountDown : Action → Bool
  | countDown => true
  | _ => false

end Action

section

variable {rom : List UInt8} {m n p : Machine} {a : Action} {keys : Keys} {chance : UInt8} {i : Instruction}
  {x : Register}

/-- With no key held a wait is over as it began, but for the word in progress and its address. -/
theorem cycle_awaitKey (here : m.At (.awaitKey x)) (free : ∀ k, keys.held k = false) :
    (m.cycle keys chance).fault = none ∧
      (m.cycle keys chance).machine = { m with origin := m.pc, opcode := (Instruction.awaitKey x).encode } := by
  have back : m.pc + 2 - 2 = m.pc := by omega
  rw [cycle_at here]
  simp only [perform, execute, Keys.highest?_eq_none free, Effect.done, fetched, back, and_self]

/-- With a key held a wait is over. -/
theorem cycle_awaitKey_held {k : Fin 16} (here : m.At (.awaitKey x)) (found : keys.highest? = some k) :
    (m.cycle keys chance).fault = none ∧
      (m.cycle keys chance).machine =
        (m.fetched (Instruction.awaitKey x).encode).setRegister x (UInt8.ofNat k.val) := by
  rw [cycle_at here]
  simp only [perform, execute, found, Effect.done, and_self]

/-! ## What a wait leaves alone -/

/-- Is a machine the other one after a wait of so many counts? The timers have run down by as much, or to
    zero, and the mark of the screen and the word in progress may have changed. -/
structure Waited (m n : Machine) (counts : Nat) : Prop where
  memory : n.memory = m.memory
  stack : n.stack = m.stack
  screen : ∃ dirty, n.screen = { m.screen with dirty := dirty }
  dialect : n.dialect = m.dialect
  traced : n.traced = m.traced
  v : n.v = m.v
  index : n.index = m.index
  pc : n.pc = m.pc
  timers : ∀ timer : Timer, 0 ≤ timer.read m → timer.read n = max 0 (timer.read m - counts)

namespace Waited

variable {j k : Nat}

theorem timers_of_same (same : ∀ timer : Timer, timer.read n = timer.read m) (timer : Timer)
    (nonneg : 0 ≤ timer.read m) : timer.read n = max 0 (timer.read m - (0 : Nat)) := by
  rw [same timer]
  omega

theorem refl (m : Machine) : Waited m m 0 where
  memory := rfl
  stack := rfl
  screen := ⟨m.screen.dirty, rfl⟩
  dialect := rfl
  traced := rfl
  v := rfl
  index := rfl
  pc := rfl
  timers := timers_of_same fun _ => rfl

theorem trans (first : Waited m n j) (second : Waited n p k) : Waited m p (j + k) where
  memory := second.memory.trans first.memory
  stack := second.stack.trans first.stack
  screen := by
    obtain ⟨_, same⟩ := first.screen
    obtain ⟨dirty, after⟩ := second.screen
    rw [same] at after
    exact ⟨dirty, after⟩
  dialect := second.dialect.trans first.dialect
  traced := second.traced.trans first.traced
  v := second.v.trans first.v
  index := second.index.trans first.index
  pc := second.pc.trans first.pc
  timers timer nonneg := by
    have between := first.timers timer nonneg
    have after := second.timers timer (by omega)
    omega

theorem stays (waited : Waited m n k) (here : m.At i) : n.At i := by
  unfold At Machine.here at here ⊢
  rw [waited.memory, waited.pc]
  exact here

theorem countDown (m : Machine) : Waited m m.countDown 1 :=
  { refl m with
    timers := by
      intro timer nonneg
      rw [timer.read_countDown]
      split <;> omega }

theorem frame (m : Machine) : Waited m { m with screen := m.screen.frame.1 } 0 :=
  { refl m with
    screen := ⟨false, rfl⟩
    timers := timers_of_same fun timer => by cases timer <;> rfl }

theorem cycle (here : m.At (.awaitKey x)) (free : ∀ k, keys.held k = false) :
    Waited m (m.cycle keys chance).machine 0 := by
  rw [(cycle_awaitKey here free).2]
  exact { refl m with timers := timers_of_same fun timer => by cases timer <;> rfl }

end Waited

theorem waited_act (here : m.At (.awaitKey x)) (idle : a.Idles) :
    Waited m (m.act rom a) ([a].countP Action.isCountDown) := by
  cases a with
  | tick keys chance => exact .cycle here idle
  | countDown => exact .countDown m
  | frame => exact .frame m
  | boot | reset => exact idle.elim

/-- A machine at a wait has only waited after any idle actions. -/
theorem waited_acts (here : m.At (.awaitKey x)) {waiting : List Action} (idle : ∀ a ∈ waiting, a.Idles) :
    Waited m (m.acts rom waiting) (waiting.countP Action.isCountDown) := by
  induction waiting generalizing m with
  | nil => exact .refl m
  | cons a rest ih =>
    obtain ⟨first, others⟩ := List.forall_mem_cons.mp idle
    have acted : Waited m (m.act rom a) _ := waited_act here first
    have rested := ih (acted.stays here) others
    rw [acts_cons, ← List.singleton_append, List.countP_append]
    exact acted.trans rested

/-! ## How often a wait runs -/

def Alike (m n : Machine) : Prop := n = { m with origin := n.origin, opcode := n.opcode }

/-- A cycle takes in a word of its own. -/
theorem Alike.cycle (alike : Alike m n) : n.cycle keys chance = m.cycle keys chance := by
  rw [alike]
  rfl

theorem Alike.countDown (alike : Alike m n) : Alike m.countDown n.countDown := by
  rw [alike]
  rfl

theorem Alike.frame (alike : Alike m n) :
    Alike { m with screen := m.screen.frame.1 } { n with screen := n.screen.frame.1 } := by
  rw [alike]
  rfl

theorem Alike.tick (alike : Alike m n) (here : m.At (.awaitKey x)) (free : ∀ k, keys.held k = false) :
    Alike m (n.cycle keys chance).machine := by
  rw [alike.cycle, (cycle_awaitKey here free).2]
  rfl

/-- The cycles of a wait can be left out. -/
theorem alike_acts (alike : Alike m n) (here : m.At (.awaitKey x)) {waiting : List Action}
    (idle : ∀ a ∈ waiting, a.Idles) :
    Alike (m.acts rom (waiting.filter fun a => !a.isTick)) (n.acts rom waiting) := by
  induction waiting generalizing m n with
  | nil => exact alike
  | cons a rest ih =>
    obtain ⟨first, others⟩ := List.forall_mem_cons.mp idle
    have stays : ∀ b : Action, b.Idles → (m.act rom b).At (.awaitKey x) := by
      intro b idles
      exact (waited_act here idles).stays here
    cases a with
    | tick keys chance => exact ih (alike.tick here first) here others
    | countDown => exact ih alike.countDown (stays .countDown first) others
    | frame => exact ih alike.frame (stays .frame first) others
    | boot | reset => exact first.elim

end

/-- A machine at a wait for a key waits without an effect, whatever state it is in. After any cycles with no key
    held, any counts of the timers and any frames, in any order, no cycle has failed, the timers have run
    down by the counts, and the rest of the machine is as it was, but for the mark of the screen and the
    word in progress. A cycle with a key held then sets the register to the highest one, leaves the other
    registers alone, goes on behind the wait, and is the cycle that it would have been without any of the
    cycles before. -/
theorem awaitKey_waits (rom : List UInt8) {m : Machine} {x : Register} (here : m.At (.awaitKey x))
    {waiting : List Action} (idle : ∀ a ∈ waiting, a.Idles) :
    let n := m.acts rom waiting
    Waited m n (waiting.countP Action.isCountDown) ∧
      (∀ before keys chance after, waiting = before ++ .tick keys chance :: after →
        ((m.acts rom before).cycle keys chance).fault = none) ∧
      ∀ keys chance, (∃ j, Keys.held keys j = true) →
        let c := n.cycle keys chance
        (∃ k, keys.Highest k ∧ c.fault = none ∧
          c.machine = { n with
            origin := m.pc, opcode := m.here, pc := m.pc + 2, v := m.v.set x (UInt8.ofNat k.val) } ∧
          c.machine.v.get x = UInt8.ofNat k.val ∧ ∀ y, y ≠ x → c.machine.v.get y = m.v.get y) ∧
        c = (m.acts rom (waiting.filter fun a => !a.isTick)).cycle keys chance := by
  intro n
  have waited : Waited m n _ := waited_acts here idle
  refine ⟨waited, ?_, ?_⟩
  · rintro before keys chance after rfl
    obtain ⟨earlier, later⟩ := List.forall_mem_append.mp idle
    have free : ∀ k, keys.held k = false := (List.forall_mem_cons.mp later).1
    exact (cycle_awaitKey ((waited_acts here earlier).stays here) free).1
  · intro keys chance held c
    refine ⟨?_, (alike_acts (show Alike m m from rfl) here idle).cycle⟩
    obtain ⟨k, found⟩ := Keys.exists_highest? held
    have ends : c.fault = none ∧ c.machine = _ := cycle_awaitKey_held (waited.stays here) found
    obtain ⟨fine, machine⟩ := ends
    have after : c.machine = { n with
        origin := m.pc, opcode := m.here, pc := m.pc + 2, v := m.v.set x (UInt8.ofNat k.val) } := by
      rw [machine, here.2, ← waited.pc, ← waited.v]
      rfl
    refine ⟨k, Keys.highest_of_eq_some found, fine, after, ?_, ?_⟩
    · rw [after, Registers.get_set, if_pos rfl]
    · intro y other
      rw [after, Registers.get_set, if_neg other.symm]

/-- A wait of two cycles, two counts and a frame, and then keys 3 and 9. -/
theorem awaitKey_waits_through_a_count :
    let m := { holding [0xF5, 0x0A] with delay := 7, sound := 1 }
    let waiting : List Action := [.tick Keys.none 0, .countDown, .frame, .tick Keys.none 0, .countDown]
    let c := (m.acts [] waiting).cycle (Keys.ofList [3, 9]) 0
    c.fault = none ∧ c.machine.v.get 5 = 9 ∧ c.machine.pc = 2 ∧ c.machine.delay = 5 ∧ c.machine.sound = 0 := by
  intro m waiting c
  have here : m.At (.awaitKey 5) := ⟨by decide, by decide⟩
  have idle : ∀ a ∈ waiting, a.Idles := by
    simp [waiting, Action.Idles]
    decide
  obtain ⟨waited, -, ends⟩ := awaitKey_waits [] here idle
  obtain ⟨⟨k, highest, fine, after, value, -⟩, -⟩ := ends (Keys.ofList [3, 9]) 0 ⟨3, by decide⟩
  have ninth : k = 9 := by
    have unique : ∀ k, (Keys.ofList [3, 9]).held k = true → 9 ≤ k → k = 9 := by decide
    exact unique k highest.1 (highest.2 9 (by decide))
  subst ninth
  have delay := waited.timers .delay (by decide)
  have sound := waited.timers .sound (by decide)
  refine ⟨fine, value, ?_, ?_, ?_⟩
  · rw [after]
    rfl
  · rw [after]
    exact delay
  · rw [after]
    exact sound

end Machine

end Chip8
