/-
  Chip8.Proofs.Progress — a run that nobody touches comes to its end.

  Nothing in the program sees to it: it may go round in circles or wait for a key for ever. What does is the clock
  of the instructions. Its period is a number for every frequency of at least one (`exists_period`), and time that
  goes on by `d` from poll to poll passes a period within `⌈p / d⌉` polls. So the clock is due at the latest on
  the last of them (`Pending`), whatever the other clocks do. On that turn the instruction fails or the
  count of instructions goes up by one, and on any other the clock has waited for one more poll
  (`Pending.turn`).
-/
import Chip8.Proofs.Headless
import Chip8.Proofs.Timekeeping

namespace Chip8

/-! ## Periods of frequencies -/

/-- Is a number so large? An infinite one is, and what is no number is not. -/
def Number.AtLeast (bound : Int) : Number → Prop
  | .whole n => bound ≤ n
  | .real x => x = .infinite false ∨ ∃ v ∈ x.value?, (bound : ℚ) ≤ v

namespace Double

/-- The last place of a quotient of at most `2 ^ k`. -/
theorem lastPlace_le {num den k : Nat} (some : num ≠ 0) (small : num ≤ 2 ^ k * den) :
    lastPlace num den ≤ max ((k : Int) - 52) (-1074) := by
  have room : num < 2 ^ (k + den.log2 + 1) := by
    calc num ≤ 2 ^ k * den := small
      _ < 2 ^ k * 2 ^ (den.log2 + 1) := Nat.mul_lt_mul_of_pos_left Nat.lt_log2_self (Nat.two_pow_pos k)
      _ = 2 ^ (k + den.log2 + 1) := by rw [← Nat.pow_add, Nat.add_assoc]
  have places : num.log2 < k + den.log2 + 1 := (Nat.log2_lt some).mpr room
  unfold lastPlace
  simp only
  split <;> omega

/-- A quotient that is not too large is rounded to a number. -/
theorem value_of_ofRatio {num den : Nat} (small : num ≤ 2 ^ 20 * den) : ∃ p, (ofRatio num den).value? = some p := by
  by_cases none : num = 0
  · subst none
    exact ⟨_, rfl⟩
  · have low := lastPlace_le none small
    have fits : ¬(971 < lastPlace num den ∨ lastPlace num den = 971 ∧
        twoTo 53 ≤ nearest (num * twoTo (-lastPlace num den).toNat) (den * twoTo (lastPlace num den).toNat)) := by
      omega
    have nonzero : ¬((num : Int) = 0) := by omega
    rw [ofRatio, if_neg nonzero, Int.natAbs_natCast, magnitude?]
    simp only [if_neg fits]
    exact ⟨_, rfl⟩

/-- Mantissas over a common exponent stand for the same values. -/
theorem aligned_value (m₁ e₁ m₂ e₂ : Int) :
    ∃ a b e, aligned m₁ e₁ m₂ e₂ = (a, b, e) ∧ (a : ℚ) * 2 ^ e = m₁ * 2 ^ e₁ ∧ (b : ℚ) * 2 ^ e = m₂ * 2 ^ e₂ := by
  have shift (m e : Int) (low : min e₁ e₂ ≤ e) :
      ((m * twoTo (e - min e₁ e₂).toNat : Int) : ℚ) * 2 ^ min e₁ e₂ = m * 2 ^ e := by
    have gap : ((e - min e₁ e₂).toNat : Int) = e - min e₁ e₂ := by omega
    rw [Int.cast_mul, Int.cast_natCast, twoTo_cast, ← zpow_natCast, gap, mul_assoc, ← zpow_add₀ two_ne_zero,
      Int.sub_add_cancel]
  exact ⟨_, _, _, rfl, shift m₁ e₁ (min_le_left _ _), shift m₂ e₂ (min_le_right _ _)⟩

end Double

namespace Clock

theorem exists_period_of_finite {m e : Int} (large : (1 : ℚ) ≤ m * 2 ^ e) :
    ∃ p, (periodOf (.real (.finite m e))).value? = some p := by
  obtain ⟨m₁, e₁, second, million⟩ : ∃ m₁ e₁, Double.ofInt microsecondsPerSecond = .finite m₁ e₁ ∧
      (m₁ : ℚ) * 2 ^ e₁ = 1000000 := ⟨1000000 * 2 ^ 33, -33, rfl, by norm_num⟩
  obtain ⟨a, b, e', common, top, bottom⟩ := Double.aligned_value m₁ e₁ m e
  rw [periodOf, second, Double.div, common]
  have unit : (0 : ℚ) < 2 ^ e' := zpow_pos two_pos e'
  rw [million] at top
  rw [← bottom] at large
  have above : 0 < b := by exact_mod_cast (mul_pos_iff_of_pos_right unit).mp (zero_lt_one.trans_le large)
  have some : (0 : ℚ) ≤ a * 2 ^ e' := by linarith
  have nonneg : 0 ≤ a := by exact_mod_cast (mul_nonneg_iff_of_pos_right unit).mp some
  have ratio : a ≤ 2 ^ 20 * b := by
    have scaled : (a : ℚ) * 2 ^ e' ≤ (2 ^ 20 * b) * 2 ^ e' := by
      rw [top, mul_assoc]
      linarith
    exact_mod_cast le_of_mul_le_mul_right scaled unit
  simp only [if_neg above.le.not_gt]
  obtain ⟨num, rfl⟩ := Int.eq_ofNat_of_zero_le nonneg
  exact Double.value_of_ofRatio (by omega)

theorem positive_of_atLeast {speed : Number} (fast : speed.AtLeast 1) : speed.isPositive = true := by
  cases speed with
  | whole n =>
    have large : (1 : Int) ≤ n := fast
    simp only [Number.isPositive, decide_eq_true_iff]
    omega
  | real x =>
    rcases fast with rfl | ⟨v, exact, large⟩
    · rfl
    · cases x with
      | infinite _ | undefined => cases exact
      | finite m e =>
        cases exact
        obtain ⟨a, b, e', common, top, bottom⟩ := Double.aligned_value m e 0 0
        rw [Number.isPositive, Double.le, common, Bool.not_eq_true', decide_eq_false_iff_not]
        intro below
        have unit : (0 : ℚ) < 2 ^ e' := zpow_pos two_pos e'
        have order : (a : ℚ) * 2 ^ e' ≤ b * 2 ^ e' := mul_le_mul_of_nonneg_right (by exact_mod_cast below) unit.le
        rw [top, bottom, Int.cast_zero, zero_mul] at order
        have one : (1 : ℚ) ≤ m * 2 ^ e := by exact_mod_cast large
        linarith

/-- A frequency of at least one has a period. -/
theorem exists_period {speed : Number} (fast : speed.AtLeast 1) : ∃ p, (periodOf speed).value? = some p := by
  cases speed with
  | whole n =>
    have large : (1 : Int) ≤ n := fast
    have small : microsecondsPerSecond ≤ 2 ^ 20 * n.toNat := by
      have : 1 ≤ n.toNat := by omega
      simp only [microsecondsPerSecond]
      omega
    exact Double.value_of_ofRatio small
  | real x =>
    rcases fast with rfl | ⟨v, exact, large⟩
    · exact ⟨_, rfl⟩
    · cases x with
      | infinite _ | undefined => cases exact
      | finite m e =>
        cases exact
        exact exists_period_of_finite (by exact_mod_cast large)

end Clock

/-! ## Time that goes on -/

namespace Tape

/-- Is each time sample from a place on later, by so much, than every one before it? Where time never goes back that
    is to say, than the one before it (`Forward.advances`). -/
def Advances (time : Tape Int) (first : Nat) (d : ℚ) : Prop :=
  ∀ ⦃i j : Nat⦄, time.position ≤ i → i < j → first ≤ j → (time.cell i : ℚ) + d ≤ time.cell j

/-- Where time never goes back it is enough to look at the sample right before. -/
theorem Forward.advances {time : Tape Int} (forward : time.Forward) {first : Nat} {d : ℚ}
    (paced : ∀ k, first ≤ k + 1 → (time.cell k : ℚ) + d ≤ time.cell (k + 1)) : time.Advances first d := by
  intro i j _ before polled
  obtain ⟨k, rfl⟩ : ∃ k, j = k + 1 := ⟨j - 1, by omega⟩
  have earlier : (time.cell i : ℚ) ≤ time.cell k := by exact_mod_cast forward (Nat.le_of_lt_succ before)
  have step := paced k polled
  linarith

/-- Does the next sample come at least `n` times `d` after a moment, and each later one `d` after the one
    before? -/
def Since (time : Tape Int) (d : ℚ) (n : Nat) (since : Int) : Prop :=
  ∀ k : Nat, (since : ℚ) + (n + k : Nat) * d ≤ time.cell (time.position + k)

variable {time : Tape Int} {d : ℚ} {n first : Nat} {since : Int}

theorem Since.tail (waited : time.Since d n since) : time.tail.Since d (n + 1) since := by
  intro k
  have later := waited (k + 1)
  rw [show n + 1 + k = n + (k + 1) by omega]
  rwa [show time.tail.position + k = time.position + (k + 1) by simp only [Tape.tail]; omega]

/-- The count starts at any sample before the next one. -/
theorem Advances.starts (advances : time.Advances first d) {p q : Nat} (known : time.position ≤ p) (before : p < q)
    (polls : first ≤ q) : Since ⟨time.cell, q⟩ d 1 (time.cell p) := by
  intro k
  induction k with
  | zero => simpa using advances known before polls
  | succ k ih =>
    have step := advances (i := q + k) (j := q + (k + 1)) (by omega) (by omega) (by omega)
    have sum : ((1 + (k + 1) : Nat) : ℚ) * d = (1 + k : Nat) * d + d := by push_cast; ring
    simp only at ih ⊢
    rw [sum]
    linarith

end Tape

namespace Emulator

/-! ## A turn without a request -/

section

variable {r : Run} {m : Int} {input : Input}

theorem cycles_runMachine {e : Emulator} (running : e.paused = false) {due : List Activity} {keys : Keys}
    {random : Tape UInt8} (done : (e.runMachine due keys random).fault = none) :
    (e.runMachine due keys random).emulator.cycles = e.cycles + if .cpu ∈ due then 1 else 0 := by
  have counted (e : Emulator) : (e.runTimers due).cycles = e.cycles := by
    unfold runTimers
    split <;> rfl
  by_cases runs : .cpu ∈ due
  · cases faults : (e.machine.cycle keys random.head).fault with
    | some f => simp [runMachine, runCpu, running, runs, faults] at done
    | none => simp [runMachine, runCpu, running, runs, faults, setBuzzer_eq, counted]
  · simp [runMachine, runCpu, running, runs, setBuzzer_eq, counted]

theorem cycles_shown (e : Emulator) (due : List Activity) :
    ((e.runDisplay due).1.runPerformance due).1.cycles = e.cycles := by
  unfold runPerformance runDisplay
  split <;> split <;> rfl

theorem beat_of_unasked (e : Emulator) (time : Tape Int) (unasked : input.event = none) :
    e.beat? input time = some ⟨e, time.head⟩ := by
  rw [beat?, unasked]
  rfl

theorem Run.Quiet.after (q : r.Quiet (some m)) (unasked : input.event = none) :
    (r.after (r.emulator.turn input r.time r.random)).Quiet (some m) where
  running := (paused_turnOn r.emulator _ unasked r.time r.random).trans q.running
  limit := (r.emulator.turn_moves input r.time r.random).steady.1.trans q.limit
  sound := sound_turn q.sound input r.time r.random

/-- A turn in which the user asks for nothing polls the clocks once. Its instruction fails, or it counts its
    instruction and is the last one just at the limit. -/
theorem Run.Quiet.turn_of_unasked (q : r.Quiet (some m)) (unasked : input.event = none) :
    let t := r.emulator.turn input r.time r.random
    let ticks := .cpu ∈ r.emulator.clocks.due r.time.head
    t.time = r.time.tail ∧ t.emulator.clocks = r.emulator.clocks.polled r.time.head ∧
      ((∃ f, Machine.IsProgramFault f ∧ t.halt = some (.crash f)) ∨
        t.halt = none ∧ t.emulator.cycles = r.emulator.cycles + (if ticks then 1 else 0) ∧
          t.final = decide (m ≤ t.emulator.cycles)) := by
  intro t ticks
  have here := r.emulator.beat_of_unasked r.time unasked
  have read : t.time = _ := time_of_beat here r.random
  rw [unasked] at read
  refine ⟨read, (pace_of_beat here r.random).clocks, ?_⟩
  have limit : t.emulator.limit = _ := (q.after unasked).limit
  have found : r.emulator.dueIn input r.time = r.emulator.clocks.due r.time.head := by rw [dueIn, unasked]; rfl
  have turned : t = r.emulator.turnOn (r.emulator.clocks.due r.time.head) input r.time r.random := by
    rw [← found]
    rfl
  obtain ⟨fails, goes⟩ := r.emulator.turnOn_unasked unasked (r.emulator.clocks.due r.time.head) r.time r.random rfl
  rw [← turned] at fails goes
  have running : { r.emulator with clocks := r.emulator.clocks.polled r.time.head }.paused = false := q.running
  have polled := fault_runMachine running (r.emulator.clocks.due r.time.head) input.keys r.random
  cases faults : (runMachine { r.emulator with clocks := r.emulator.clocks.polled r.time.head }
      (r.emulator.clocks.due r.time.head) input.keys r.random).fault with
  | some f =>
    rw [faults] at polled
    split at polled
    · exact .inl ⟨f, q.sound.inRange.fault_of_cycle polled.symm, fails f faults⟩
    · cases polled
  | none =>
    obtain ⟨last, ends⟩ := goes faults
    rw [← last, limit, Limit.isReached_ofMost] at ends
    obtain ⟨on, final⟩ := ends _ rfl
    refine .inr ⟨on, ?_, ?_⟩
    · rw [last, cycles_shown]
      exact cycles_runMachine running faults
    · rw [final]
      simp

end

/-! ## The clock of the instructions -/

structure Paces (p : ℚ) (clocks : Scheduler Activity) (c : Clock Activity) : Prop where
  activity : c.activity = .cpu
  timed : c.Timed
  period : c.period.value? = some p
  only : ∃ others, clocks = c :: others ∧ ∀ b ∈ others, b.activity ≠ .cpu

namespace Paces

variable {p : ℚ} {clocks : Scheduler Activity} {c : Clock Activity}

theorem due_iff (paces : Paces p clocks c) (now : Int) : .cpu ∈ clocks.due now ↔ c.isDue now = true := by
  obtain ⟨others, rfl, idle⟩ := paces.only
  rw [Scheduler.due, List.mem_map]
  constructor
  · rintro ⟨b, found, activity⟩
    obtain ⟨mem, due⟩ := List.mem_filter.mp found
    rcases List.mem_cons.mp mem with rfl | other
    · exact due
    · exact absurd activity (idle b other)
  · intro due
    exact ⟨c, List.mem_filter.mpr ⟨List.mem_cons_self, due⟩, paces.activity⟩

theorem polled (paces : Paces p clocks c) (now : Int) : Paces p (clocks.polled now) (c.polled now) := by
  have kept (b : Clock Activity) : (b.polled now).activity = b.activity ∧ (b.polled now).period = b.period := by
    unfold Clock.polled
    split <;> exact ⟨rfl, rfl⟩
  obtain ⟨others, rfl, idle⟩ := paces.only
  refine ⟨(kept c).1.trans paces.activity, paces.timed.polled now, (kept c).2 ▸ paces.period, _, rfl, ?_⟩
  intro b mem
  obtain ⟨a, before, rfl⟩ := List.mem_map.mp mem
  exact (kept a).1 ▸ idle a before

end Paces

/-- Is the next poll of a run, on a tape that goes on, at least `n` times `d` after the clock of the instructions
    last fired or was registered? -/
structure Run.Pending (time : Tape Int) (first : Nat) (p d : ℚ) (n : Nat) (r : Run) : Prop where
  advances : time.Advances first d
  start : time.position ≤ first
  tape : ∃ q, first ≤ q ∧ r.time = ⟨time.cell, q⟩
  clock : ∃ c, Paces p r.emulator.clocks c ∧ r.time.Since d n c.since

namespace Run

variable {time : Tape Int} {first n N m : Nat} {p d : ℚ} {r : Run}

/-- A poll fires the clock, or it was too early for it and the clock has waited for one poll more. -/
theorem Pending.turn (pending : r.Pending time first p d n) {t : Turn} (read : t.time = r.time.tail)
    (polled : t.emulator.clocks = r.emulator.clocks.polled r.time.head) :
    (.cpu ∈ r.emulator.clocks.due r.time.head → (r.after t).Pending time first p d 1) ∧
      (.cpu ∉ r.emulator.clocks.due r.time.head → n * d < p ∧ (r.after t).Pending time first p d (n + 1)) := by
  obtain ⟨q, polls, tape⟩ := pending.tape
  obtain ⟨c, paces, waited⟩ := pending.clock
  have next : ∃ q, first ≤ q ∧ (r.after t).time = ⟨time.cell, q⟩ :=
    ⟨q + 1, by omega, by show t.time = _; rw [read, tape]; rfl⟩
  have paced : Paces p (r.after t).emulator.clocks (c.polled r.time.head) := by
    show Paces p t.emulator.clocks _
    exact polled ▸ paces.polled r.time.head
  rw [paces.due_iff]
  constructor
  · intro due
    refine ⟨pending.advances, pending.start, next, _, paced, ?_⟩
    have fired : (c.polled r.time.head).since = time.cell q := by
      rw [Clock.polled, if_pos due, tape]
      rfl
    show t.time.Since d 1 _
    rw [fired, read, tape]
    exact pending.advances.starts (pending.start.trans polls) (Nat.lt_succ_self q) (Nat.le_succ_of_le polls)
  · intro due
    have early : ((r.time.head - c.since : Int) : ℚ) < p := by
      by_contra late
      exact due ((paces.timed.isDue_iff r.time.head).mpr ⟨p, paces.period, not_lt.mp late⟩)
    have now : (c.since : ℚ) + n * d ≤ r.time.head := by simpa [Tape.head] using waited 0
    push_cast at early
    refine ⟨by linarith, pending.advances, pending.start, next, _, paced, ?_⟩
    rw [Clock.polled, if_neg due]
    show t.time.Since d (n + 1) _
    rw [read]
    exact waited.tail

/-! ## Runs -/

/-- Did a run end with an instruction that failed, or else with exactly so many completed? -/
def Ends (m : Nat) (ended : Run × Outcome) : Prop :=
  (∃ f, Machine.IsProgramFault f ∧ ended.2 = .halted (.crash f)) ∨
    ended.2 = .finished ∧ ended.1.emulator.cycles = m

theorem Ends.finished {ended : Run × Outcome} (ends : Ends m ended) : ended.2 ≠ .unfinished := by
  rcases ends with ⟨f, -, halted⟩ | ⟨finished, -⟩
  · rw [halted]
    nofun
  · rw [finished]
    nofun

theorem cycles_close (r : Run) : r.close.emulator.cycles = r.emulator.cycles := by
  simp only [close, setBuzzer_eq]
  rfl

/-- Where every period passes within `N` polls, there is one instruction in every `N` turns. -/
theorem Pending.ends (enough : p ≤ N * d) {inputs : Tape Input} (unasked : ∀ k, (inputs.cell k).event = none)
    (pending : r.Pending time first p d n) (begun : 1 ≤ n) (few : n ≤ N) (q : r.Quiet (some (m : Int))) {k fuel : Nat}
    (left : r.emulator.cycles + k + 1 = m) (room : k * N + (N + 1 - n) ≤ fuel) : Ends m (go fuel inputs r) := by
  -- the measure is the polls that are left: `N` for each instruction but the next, and `N + 1 - n` for that one
  induction fuel generalizing r inputs n k with
  | zero => omega
  | succ fuel ih =>
    have calm : inputs.head.event = none := unasked inputs.position
    have rest : ∀ k, (inputs.tail.cell k).event = none := unasked
    obtain ⟨read, polled, crashed | ⟨on, counted, final⟩⟩ := q.turn_of_unasked calm
    · obtain ⟨f, possible, halted⟩ := crashed
      refine .inl ⟨f, possible, ?_⟩
      simp only [go, halted]
    · have goes : go (fuel + 1) inputs r =
          if (r.emulator.turn inputs.head r.time r.random).final then
            ((r.after (r.emulator.turn inputs.head r.time r.random)).close, .finished)
          else go fuel inputs.tail (r.after (r.emulator.turn inputs.head r.time r.random)) := by
        simp only [go, on]
      obtain ⟨fires, waits⟩ := pending.turn read polled
      rw [goes, final]
      by_cases ticks : .cpu ∈ r.emulator.clocks.due r.time.head
      · rw [if_pos ticks] at counted
        cases k with
        | zero =>
          rw [if_pos (by simp; omega)]
          exact .inr ⟨rfl, (cycles_close _).trans (counted.trans (by omega))⟩
        | succ k =>
          rw [Nat.succ_mul] at room
          rw [if_neg (by simp; omega)]
          have left' : (r.emulator.turn inputs.head r.time r.random).emulator.cycles + k + 1 = m := by omega
          exact ih rest (fires ticks) (Nat.le_refl 1) (by omega) (q.after calm) left' (by omega)
      · rw [if_neg ticks] at counted
        obtain ⟨early, waiting⟩ := waits ticks
        have short : n < N := by
          rcases Nat.lt_or_eq_of_le few with less | rfl
          · exact less
          · exact absurd (early.trans_le enough) (lt_irrefl _)
        rw [if_neg (by simp; omega)]
        have left' : (r.emulator.turn inputs.head r.time r.random).emulator.cycles + k + 1 = m := by omega
        exact ih rest waiting (by omega) short (q.after calm) left' (by omega)

end Run

/-- A new emulator has read the time four times, first for the clock of the instructions. -/
theorem build_paces {s : Settings} (fast : s.speed.AtLeast 1) {p : ℚ}
    (period : (Clock.periodOf s.speed).value? = some p) (time : Tape Int) :
    ∃ e c, s.build time = .ok (e, time.drop 4) ∧ Paces p e.clocks c ∧ c.period = Clock.periodOf s.speed ∧
      c.since = time.head := by
  have positive := Clock.positive_of_atLeast fast
  obtain ⟨clocks, later, built⟩ := build_of_positive s positive time
  obtain ⟨a, first, -, registered⟩ := register_cons (register_of_build built).2
  obtain ⟨b, -, timers, registered⟩ := register_cons registered
  obtain ⟨c, -, display, registered⟩ := register_cons registered
  obtain ⟨d, -, performance, registered⟩ := register_cons registered
  cases registered
  rw [Clock.create?, if_pos positive] at first
  have timed := Clock.timed_of_create? ((if_pos positive).trans first)
  cases first
  refine ⟨_, _, built, ⟨rfl, timed, period, _, rfl, ?_⟩, rfl, rfl⟩
  simp only [Prod.mk.injEq] at timers display performance
  simp [timers, display, performance]

/-- A program that fits, a speed of at least one and a limit of at least one instruction: with nobody at the keypad
    and polls of the time that are at least `d` apart, a run ends within `m * max 1 ⌈p / d⌉` turns, where `p`
    is the period of the clock of the instructions. It ends with an instruction that fails, or else with exactly
    `m` completed. -/
theorem run_ends_in_time {s : Settings} {m : Nat} (fits : s.rom.length ≤ 3584) (fast : s.speed.AtLeast 1)
    (least : 1 ≤ m) (limit : s.limit = .after (.whole m)) {inputs : Tape Input}
    (unasked : ∀ k, (inputs.cell k).event = none) (time : Tape Int) (random : Tape UInt8) :
    ∃ e later c p, s.build time = .ok (e, later) ∧ c ∈ e.clocks ∧ c.activity = .cpu ∧
      c.period = Clock.periodOf s.speed ∧ c.period.value? = some p ∧
      ∀ d : ℚ, 0 < d → time.Advances later.position d →
        let most := m * max 1 ⌈p / d⌉₊
        let ended := e.run most inputs later random
        ((∃ f, Machine.IsProgramFault f ∧ ended.2 = .halted (.crash f)) ∨
          ended.2 = .finished ∧ ended.1.emulator.cycles = m) ∧
        ∀ fuel, most ≤ fuel → e.run fuel inputs later random = ended := by
  obtain ⟨p, period⟩ := Clock.exists_period fast
  obtain ⟨e, c, built, paces, same, since⟩ := build_paces fast period time
  obtain ⟨others, listed, -⟩ := paces.only
  refine ⟨e, _, c, p, built, listed ▸ List.mem_cons_self, paces.activity, same, paces.period, ?_⟩
  intro d positive advances most ended
  have most_eq : s.limit = .ofMost (some (m : Int)) := limit
  obtain ⟨boots, quiet, none⟩ := quiet_of_build fits most_eq built random
  have enough : p ≤ (max 1 ⌈p / d⌉₊ : Nat) * d := by
    rw [← div_le_iff₀ positive]
    exact (Nat.le_ceil _).trans (by exact_mod_cast le_max_right 1 ⌈p / d⌉₊)
  have pending : (e.started (time.drop 4) random).Pending time (time.position + 4) p d 1 := by
    refine ⟨advances, Nat.le_add_right _ _, ⟨time.position + 4, Nat.le_refl _, rfl⟩, c, ?_, ?_⟩
    · show Paces p e.boot.1.clocks c
      rw [e.boot_pace.clocks]
      exact paces
    · rw [since]
      exact advances.starts (Nat.le_refl _) (by omega) (Nat.le_refl _)
  have ends (fuel : Nat) (room : most ≤ fuel) : Run.Ends m (e.run fuel inputs (time.drop 4) random) := by
    obtain ⟨k, rfl⟩ : ∃ k, m = k + 1 := ⟨m - 1, by omega⟩
    rw [run_of_boots boots]
    refine pending.ends enough unasked (Nat.le_refl 1) (le_max_left 1 _) quiet (k := k) (by rw [none, Nat.zero_add]) ?_
    have : most = k * max 1 ⌈p / d⌉₊ + max 1 ⌈p / d⌉₊ := Nat.succ_mul k _
    omega
  refine ⟨ends most (Nat.le_refl _), ?_⟩
  intro fuel room
  obtain ⟨more, rfl⟩ := Nat.exists_eq_add_of_le room
  have ended' := (ends most (Nat.le_refl _)).finished
  simp only [ended, run_of_boots boots] at ended' ⊢
  exact go_more ended' more

/-- A program that waits for a key for ever, with two and a half polls to a period. -/
theorem run_ends_in_time_without_a_key :
    let s : Settings := ⟨{}, true, false, [0xF0, 0x0A], .whole 400, .after (.whole 2)⟩
    let time : Tape Int := .ofFn fun k => 1000 * k
    let random : Tape UInt8 := .ofFn fun _ => 0
    let inputs : Tape Input := .ofFn fun _ => .idle
    ∃ e later, s.build time = .ok (e, later) ∧
      let ended := e.run 6 inputs later random
      (∃ f, Machine.IsProgramFault f ∧ ended.2 = .halted (.crash f)) ∨
        ended.2 = .finished ∧ ended.1.emulator.cycles = 2 := by
  intro s time random inputs
  have forward : time.Forward := fun i j le => by show 1000 * (i : Int) ≤ 1000 * j; omega
  have paced (k : Nat) : (time.cell k : ℚ) + 1000 ≤ time.cell (k + 1) := by
    simp only [time, Tape.ofFn]
    push_cast
    linarith
  have fast : s.speed.AtLeast 1 := show (1 : Int) ≤ 400 by decide
  have unasked : ∀ k, (inputs.cell k).event = none := fun _ => rfl
  obtain ⟨e, later, c, p, built, -, -, same, period, ends⟩ :=
    run_ends_in_time (s := s) (m := 2) (by decide) fast (by decide) rfl unasked time random
  have value : (Clock.periodOf (.whole 400)).value? = some 2500 := by decide +kernel
  have third : ⌈(2500 : ℚ) / 1000⌉₊ = 3 := by norm_num [Nat.ceil_eq_iff]
  rw [same] at period
  cases value.symm.trans period
  obtain ⟨ended, -⟩ := ends 1000 (by norm_num) (forward.advances fun k _ => paced k)
  rw [third] at ended
  exact ⟨e, later, built, ended⟩

end Emulator

end Chip8
