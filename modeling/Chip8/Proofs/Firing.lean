/-
  Chip8.Proofs.Firing — when a clock fires, read off the history of the scheduler.

  A clock keeps one moment. It is the latest of its registration, its firings and the resets
  (`since_greatest`), so whether a poll reports the clock depends on the time since then and on nothing
  else, and no clock fires twice for one period that has passed. From there on it is arithmetic: firings
  are at least a period apart (`firings_spaced`), so there is room for only so many in a stretch of time
  (`spaced_length`), and a clock that is polled often enough is never late by more than the time between
  two polls (`firing_soon`).

  A period is exact: the rational value of a double (`Double.value?`). One that is infinite or no number
  never passes.
-/
import Chip8.Scheduler
import Mathlib.Data.Rat.Floor
import Mathlib.Order.Bounds.Defs
import Mathlib.Tactic.Linarith
import Mathlib.Tactic.NormNum

namespace Chip8

/-! ## Periods -/

namespace Double

def value? : Double → Option ℚ
  | finite m e => some (m * 2 ^ e)
  | _ => none

theorem twoTo_cast (k : Nat) : ((twoTo k : Nat) : ℚ) = 2 ^ k := by
  simp only [twoTo, Nat.pow_eq, Nat.cast_pow, Nat.cast_ofNat]

def Nonneg : Double → Prop
  | finite m _ => 0 ≤ m
  | infinite negative => negative = false
  | undefined => True

theorem Nonneg.value {x : Double} (nonneg : x.Nonneg) {p : ℚ} (exact : p ∈ x.value?) : 0 ≤ p := by
  cases x with
  | undefined | infinite _ => cases exact
  | finite m e =>
    cases exact
    exact mul_nonneg (Int.cast_nonneg nonneg) (zpow_nonneg (by norm_num) e)

/-- What is not below a double, unless that is the infinity below all numbers. -/
theorem Nonneg.le_iff_value {x : Double} (nonneg : x.Nonneg) (n : Int) :
    x.le (.finite n 0) = true ↔ ∃ p ∈ x.value?, p ≤ (n : ℚ) := by
  cases x with
  | undefined => simp [le, value?]
  | infinite negative =>
    cases negative with
    | false => simp [le, value?]
    | true => cases nonneg
  | finite m e =>
    simp only [value?, Option.mem_def, Option.some.injEq, exists_eq_left']
    rw [le, decide_eq_true_iff, aligned]
    rcases Int.le_total 0 e with up | down
    · obtain ⟨k, rfl⟩ := Int.eq_ofNat_of_zero_le up
      have low : min (k : Int) 0 = 0 := by omega
      have one : twoTo 0 = 1 := rfl
      simp only [low, Int.sub_zero, Int.toNat_natCast, Int.toNat_zero, zpow_natCast, ← twoTo_cast, one]
      norm_cast
      rw [Int.mul_one]
    · obtain ⟨k, rfl⟩ : ∃ k : Nat, e = -(k : Int) := ⟨e.natAbs, by omega⟩
      have low : min (-(k : Int)) 0 = -k := by omega
      have one : twoTo 0 = 1 := rfl
      have positive : (0 : ℚ) < (twoTo k : Nat) := by exact_mod_cast twoTo_pos k
      simp only [low, Int.sub_self, Int.toNat_zero, Int.zero_sub, Int.neg_neg, Int.toNat_natCast, one, zpow_neg,
        zpow_natCast, ← twoTo_cast]
      rw [← div_eq_mul_inv, div_le_iff₀ positive, Int.natCast_one, Int.mul_one]
      norm_cast

theorem ofRatio_nonneg {num : Int} (positive : 0 ≤ num) (den : Nat) : (ofRatio num den).Nonneg := by
  unfold ofRatio
  split
  · exact Int.le_refl 0
  · rw [decide_eq_false (Int.not_lt.mpr positive)]
    split
    · rfl
    · next m e _ =>
      rw [if_neg (Int.not_lt.mpr positive)]
      exact Int.natCast_nonneg m

end Double

namespace Clock

variable {α : Type}

/-- Does a clock have the period of a frequency that makes a clock? -/
structure Timed (c : Clock α) : Prop where
  positive : c.frequency.isPositive = true
  period : c.period = periodOf c.frequency

theorem timed_of_create? {frequency : Number} {activity : α} {now : Int} {c : Clock α}
    (made : create? frequency activity now = some c) : c.Timed := by
  unfold create? at made
  split at made
  · next positive =>
    cases made
    exact ⟨positive, rfl⟩
  · cases made

theorem periodOf_nonneg {frequency : Number} (positive : frequency.isPositive = true) :
    (periodOf frequency).Nonneg := by
  cases frequency with
  | whole n => exact Double.ofRatio_nonneg (by decide) n.toNat
  | real x =>
    obtain ⟨m, e, second, above⟩ : ∃ m e, Double.ofInt microsecondsPerSecond = .finite m e ∧ 0 < m :=
      ⟨_, _, rfl, by decide⟩
    rw [periodOf, second]
    cases x with
    | undefined => trivial
    | infinite _ => exact Int.le_refl 0
    | finite n f =>
      have top : 0 ≤ (Double.aligned m e n f).1 := Int.mul_nonneg (Int.le_of_lt above) (Int.natCast_nonneg _)
      have bottom : 0 ≤ (Double.aligned m e n f).2.1 := by
        refine Int.mul_nonneg ?_ (Int.natCast_nonneg _)
        by_contra below
        have small : Double.le (.finite n f) (.finite 0 0) = true := by
          rw [Double.le, decide_eq_true_iff, Double.aligned, Int.zero_mul]
          exact Int.mul_nonpos_of_nonpos_of_nonneg (by omega) (Int.natCast_nonneg _)
        simp [Number.isPositive, small] at positive
      rw [Double.div]
      simp only [Int.not_lt.mpr bottom, if_false]
      exact Double.ofRatio_nonneg top _

theorem Timed.isDue_iff {c : Clock α} (timed : c.Timed) (now : Int) :
    c.isDue now = true ↔ ∃ p ∈ c.period.value?, p ≤ ((now - c.since : Int) : ℚ) := by
  rw [isDue_eq]
  exact (timed.period ▸ periodOf_nonneg timed.positive : c.period.Nonneg).le_iff_value _

theorem Timed.rebase {c : Clock α} (timed : c.Timed) (now : Int) : (c.rebase now).Timed :=
  ⟨timed.positive, timed.period⟩

theorem Timed.polled {c : Clock α} (timed : c.Timed) (now : Int) : (c.polled now).Timed := by
  unfold Clock.polled
  split
  · exact timed.rebase now
  · exact timed

/-- No clock is due before its moment. -/
theorem Timed.since_le {c : Clock α} (timed : c.Timed) {now : Int} (due : c.isDue now = true) : c.since ≤ now := by
  obtain ⟨p, exact, waited⟩ := (timed.isDue_iff now).mp due
  have nonneg : 0 ≤ p := (timed.period ▸ periodOf_nonneg timed.positive : c.period.Nonneg).value exact
  exact Int.le_of_sub_nonneg (by exact_mod_cast nonneg.trans waited)

end Clock

namespace Scheduler

variable {α : Type}

/-! ## Histories -/

inductive Request (α : Type) where
  | add (now : Int) (frequency : Number) (activity : α)
  | poll (now : Int)
  | reset (now : Int)

def Request.time : Request α → Int
  | .add now _ _ => now
  | .poll now => now
  | .reset now => now

/-- The clocks after requests, the latest request first. A clock that is refused is not registered. -/
def after : List (Request α) → Scheduler α
  | [] => []
  | .add now frequency activity :: past => ((after past).add? frequency activity now).getD (after past)
  | .poll now :: past => (after past).polled now
  | .reset now :: past => (after past).rebase now

/-- The places of the clocks that a poll reports, in the order of registration. -/
def reported (s : Scheduler α) (now : Int) : List Nat :=
  (List.range s.length).filter fun k => s[k]?.any (·.isDue now)

/-- Does a request set the moment from which the period of the clock at a place counts? -/
inductive Marks (k : Nat) (past : List (Request α)) : Request α → Prop
  | registered {now : Int} {frequency : Number} {activity : α} : frequency.isPositive = true →
      (after past).length = k → Marks k past (.add now frequency activity)
  | fired {now : Int} : k ∈ (after past).reported now → Marks k past (.poll now)
  | reset {now : Int} : Marks k past (.reset now)

/-- When the clock at a place was registered, reported or reset. -/
def moments (k : Nat) (h : List (Request α)) : Set Int :=
  {t | ∃ r past, r :: past <:+ h ∧ Marks k past r ∧ r.time = t}

def firings (k : Nat) : List (Request α) → List Int
  | .poll now :: past => if k ∈ (after past).reported now then now :: firings k past else firings k past
  | _ :: past => firings k past
  | [] => []

def polls : List (Request α) → List Int
  | .poll now :: past => now :: polls past
  | _ :: past => polls past
  | [] => []

def InOrder (h : List (Request α)) : Prop := h.Pairwise fun later earlier => earlier.time ≤ later.time

/-! ## Reports -/

theorem mem_reported {s : Scheduler α} {k : Nat} {now : Int} :
    k ∈ s.reported now ↔ ∃ c, s[k]? = some c ∧ c.isDue now = true := by
  rw [reported, List.mem_filter, List.mem_range]
  cases place : s[k]? with
  | none => simp
  | some c =>
    have held := (List.getElem?_eq_some_iff.mp place).1
    simp [held]

/-- A poll reports each clock that is due once, in the order of registration. -/
theorem due_eq (s : Scheduler α) (now : Int) :
    s.due now = (s.reported now).filterMap fun k => s[k]?.map Clock.activity := by
  unfold due reported
  induction s with
  | nil => rfl
  | cons c rest ih =>
    rw [List.length_cons, List.range_succ_eq_map, List.filter_cons, List.filter_cons, List.filter_map]
    simp only [List.getElem?_cons_zero, Option.any_some, List.getElem?_cons_succ, Function.comp_def, Nat.succ_eq_add_one]
    split
    · simp only [List.map_cons, List.filterMap_cons, List.getElem?_cons_zero, Option.map_some, List.filterMap_map, ih,
        Function.comp_def, List.getElem?_cons_succ]
    · simp only [List.filterMap_map, ih, Function.comp_def, List.getElem?_cons_succ]

theorem reported_sorted (s : Scheduler α) (now : Int) : (s.reported now).Pairwise (· < ·) :=
  List.pairwise_lt_range.filter _

/-! ## One request -/

section

variable {k : Nat} {c : Clock α} {r : Request α} {past : List (Request α)}

theorem after_add (past : List (Request α)) (now : Int) (frequency : Number) (activity : α) :
    frequency.isPositive ≠ true ∧ after (.add now frequency activity :: past) = after past ∨
      ∃ made : Clock α, frequency.isPositive = true ∧ made.Timed ∧ made.since = now ∧
        after (.add now frequency activity :: past) = after past ++ [made] := by
  by_cases positive : frequency.isPositive = true
  · have made : Clock.create? frequency activity now = some ⟨activity, frequency, _, _, rfl, now⟩ := if_pos positive
    refine .inr ⟨_, positive, Clock.timed_of_create? made, rfl, ?_⟩
    simp only [after, add?, made, Option.map_some, Option.getD_some]
  · refine .inl ⟨positive, ?_⟩
    simp only [after, add?, Clock.create?, if_neg positive, Option.map_none, Option.getD_none]

/-- A request that marks a clock sets its moment, and any other leaves the clock as it is. -/
theorem clock_cons (now : (after (r :: past))[k]? = some c) :
    Marks k past r ∧ c.since = r.time ∨ ¬Marks k past r ∧ (after past)[k]? = some c := by
  cases r with
  | add moment frequency activity =>
    rcases after_add past moment frequency activity with ⟨refused, same⟩ | ⟨made, positive, -, since, grown⟩
    · refine .inr ⟨?_, same ▸ now⟩
      rintro ⟨positive, -⟩
      exact refused positive
    · rw [grown, List.getElem?_append] at now
      split at now
      · next old =>
        refine .inr ⟨?_, now⟩
        rintro ⟨-, new⟩
        omega
      · next new =>
        rw [List.getElem?_singleton] at now
        split at now <;> cases now
        exact .inl ⟨.registered positive (by omega), since⟩
  | poll moment =>
    simp only [after, polled, List.getElem?_map] at now
    obtain ⟨b, before, rfl⟩ := Option.map_eq_some_iff.mp now
    unfold Clock.polled
    split
    · next due => exact .inl ⟨.fired (mem_reported.mpr ⟨b, before, due⟩), rfl⟩
    · next notDue =>
      refine .inr ⟨?_, before⟩
      rintro (_ | fired)
      obtain ⟨_, same, due⟩ := mem_reported.mp fired
      cases before.symm.trans same
      exact notDue due
  | reset moment =>
    simp only [after, rebase, List.getElem?_map] at now
    obtain ⟨b, -, rfl⟩ := Option.map_eq_some_iff.mp now
    exact .inl ⟨.reset, rfl⟩

/-- A request keeps the clocks that are there, but for their moments. -/
theorem clock_kept (before : (after past)[k]? = some c) (r : Request α) :
    ∃ since, (after (r :: past))[k]? = some { c with since := since } := by
  cases r with
  | add now frequency activity =>
    rcases after_add past now frequency activity with ⟨-, same⟩ | ⟨made, -, -, -, grown⟩
    · exact ⟨c.since, by rw [same]; exact before⟩
    · have held := (List.getElem?_eq_some_iff.mp before).1
      exact ⟨c.since, by rw [grown, List.getElem?_append_left held]; exact before⟩
  | poll now =>
    simp only [after, polled, List.getElem?_map, before, Option.map_some, Clock.polled]
    split
    · exact ⟨now, rfl⟩
    · exact ⟨c.since, rfl⟩
  | reset now =>
    exact ⟨now, by simp only [after, rebase, List.getElem?_map, before, Option.map_some, Clock.rebase]⟩

theorem timed_after (h : List (Request α)) : ∀ c ∈ after h, c.Timed := by
  induction h with
  | nil => exact fun c mem => absurd mem List.not_mem_nil
  | cons r past ih =>
    intro c mem
    cases r with
    | add now frequency activity =>
      rcases after_add past now frequency activity with ⟨-, same⟩ | ⟨made, -, timed, -, grown⟩
      · exact ih c (same ▸ mem)
      · rw [grown, List.mem_append, List.mem_singleton] at mem
        rcases mem with old | rfl
        · exact ih c old
        · exact timed
    | poll now =>
      obtain ⟨b, before, rfl⟩ := List.mem_map.mp mem
      exact (ih b before).polled now
    | reset now =>
      obtain ⟨b, before, rfl⟩ := List.mem_map.mp mem
      exact (ih b before).rebase now

end

/-! ## Histories -/

section

variable {k : Nat} {c : Clock α} {h : List (Request α)}

theorem moments_cons (k : Nat) (r : Request α) (past : List (Request α)) :
    moments k (r :: past) = {t | Marks k past r ∧ r.time = t} ∪ moments k past := by
  ext t
  simp only [moments, List.suffix_cons_iff, Set.mem_union, Set.mem_ofPred_eq]
  constructor
  · rintro ⟨q, before, same | earlier, marks, time⟩
    · cases same
      exact .inl ⟨marks, time⟩
    · exact .inr ⟨q, before, earlier, marks, time⟩
  · rintro (⟨marks, time⟩ | ⟨q, before, earlier, marks, time⟩)
    · exact ⟨r, past, .inl rfl, marks, time⟩
    · exact ⟨q, before, .inr earlier, marks, time⟩

theorem moments_le {r : Request α} {past : List (Request α)} (ordered : InOrder (r :: past)) {t : Int}
    (moment : t ∈ moments k past) : t ≤ r.time := by
  obtain ⟨q, before, earlier, -, rfl⟩ := moment
  exact (List.pairwise_cons.mp ordered).1 q (earlier.subset List.mem_cons_self)

/-- A clock counts from the latest of its moments. -/
theorem since_greatest (ordered : InOrder h) (here : (after h)[k]? = some c) : IsGreatest (moments k h) c.since := by
  induction h with
  | nil => cases here
  | cons r past ih =>
    have before := (List.pairwise_cons.mp ordered).2
    rw [moments_cons]
    rcases clock_cons here with ⟨marks, since⟩ | ⟨unmarked, same⟩
    · refine ⟨.inl ⟨marks, since.symm⟩, ?_⟩
      rintro t (⟨-, time⟩ | earlier)
      · exact Int.le_of_eq (time.symm.trans since.symm)
      · exact since ▸ moments_le ordered earlier
    · obtain ⟨mem, latest⟩ := ih before same
      refine ⟨.inr mem, ?_⟩
      rintro t (⟨marks, -⟩ | earlier)
      · exact absurd marks unmarked
      · exact latest earlier

theorem reported_iff (here : (after h)[k]? = some c) (now : Int) :
    k ∈ (after h).reported now ↔ ∃ p ∈ c.period.value?, p ≤ ((now - c.since : Int) : ℚ) := by
  rw [mem_reported, ← (timed_after h c (List.mem_of_getElem? here)).isDue_iff]
  constructor
  · rintro ⟨b, same, due⟩
    cases here.symm.trans same
    exact due
  · exact fun due => ⟨c, here, due⟩

/-- A clock that is reported has waited for a period since all its moments. -/
theorem period_le_of_reported (ordered : InOrder h) (here : (after h)[k]? = some c) {p : ℚ}
    (exact : p ∈ c.period.value?) {now t : Int} (due : k ∈ (after h).reported now) (moment : t ∈ moments k h) :
    p ≤ ((now - t : Int) : ℚ) := by
  obtain ⟨q, same, waited⟩ := (reported_iff here now).mp due
  cases exact.symm.trans same
  have latest : t ≤ c.since := (since_greatest ordered here).2 moment
  have longer : ((now - c.since : Int) : ℚ) ≤ ((now - t : Int) : ℚ) := by exact_mod_cast Int.sub_le_sub_left latest now
  exact waited.trans longer

/-! ## Firings -/

theorem clock_since {b : Clock α} {past : List (Request α)} (earlier : past <:+ h) (before : (after past)[k]? = some b) :
    ∃ since, (after h)[k]? = some { b with since := since } := by
  induction h with
  | nil =>
    rw [List.suffix_nil.mp earlier] at before
    exact ⟨b.since, before⟩
  | cons r rest ih =>
    rcases List.suffix_cons_iff.mp earlier with rfl | inside
    · exact ⟨b.since, before⟩
    · obtain ⟨_, held⟩ := ih inside
      obtain ⟨since, kept⟩ := clock_kept held r
      exact ⟨since, kept⟩

theorem poll_of_firing {t : Int} (fired : t ∈ firings k h) :
    ∃ past, .poll t :: past <:+ h ∧ k ∈ (after past).reported t := by
  induction h with
  | nil => cases fired
  | cons r rest ih =>
    have inside (earlier : t ∈ firings k rest) : ∃ past, .poll t :: past <:+ r :: rest ∧ k ∈ (after past).reported t := by
      obtain ⟨past, suffix, due⟩ := ih earlier
      exact ⟨past, suffix.trans (List.suffix_cons r rest), due⟩
    cases r with
    | add | reset => exact inside fired
    | poll now =>
      rw [firings] at fired
      split at fired
      · next due =>
        rcases List.mem_cons.mp fired with rfl | earlier
        · exact ⟨rest, List.suffix_rfl, due⟩
        · exact inside earlier
      · exact inside fired

theorem moment_of_firing {t : Int} (fired : t ∈ firings k h) : t ∈ moments k h := by
  obtain ⟨past, earlier, due⟩ := poll_of_firing fired
  exact ⟨.poll t, past, earlier, .fired due, rfl⟩

/-- What fires is a clock of the history, with a period that can pass. -/
theorem clock_of_firing {t : Int} (fired : t ∈ firings k h) :
    ∃ c : Clock α, (after h)[k]? = some c ∧ ∃ p, p ∈ c.period.value? := by
  obtain ⟨past, earlier, due⟩ := poll_of_firing fired
  obtain ⟨b, before, -⟩ := mem_reported.mp due
  obtain ⟨p, period, -⟩ := (reported_iff before t).mp due
  obtain ⟨since, here⟩ := clock_since ((List.suffix_cons _ past).trans earlier) before
  exact ⟨_, here, p, period⟩

theorem firings_spaced (ordered : InOrder h) (here : (after h)[k]? = some c) {p : ℚ} (exact : p ∈ c.period.value?) :
    (firings k h).Pairwise fun later earlier => p ≤ ((later - earlier : Int) : ℚ) := by
  induction h generalizing c with
  | nil => exact .nil
  | cons r past ih =>
    have before := (List.pairwise_cons.mp ordered).2
    have spaced : (firings k past).Pairwise fun later earlier => p ≤ ((later - earlier : Int) : ℚ) := by
      cases place : (after past)[k]? with
      | none =>
        have none : firings k past = [] := by
          rw [List.eq_nil_iff_forall_not_mem]
          intro t fired
          obtain ⟨b, held, -⟩ := clock_of_firing fired
          cases place.symm.trans held
        rw [none]
        exact .nil
      | some b =>
        obtain ⟨since, kept⟩ := clock_kept place r
        cases here.symm.trans kept
        exact ih before place exact
    cases r with
    | add | reset => exact spaced
    | poll now =>
      rw [firings]
      split
      · next due =>
        obtain ⟨b, held, -⟩ := mem_reported.mp due
        obtain ⟨since, kept⟩ := clock_kept held (.poll now)
        cases here.symm.trans kept
        refine List.pairwise_cons.mpr ⟨?_, spaced⟩
        intro t fired
        exact period_le_of_reported before held exact due (moment_of_firing fired)
      · exact spaced

/-- Moments that are a period apart need as many periods as there are gaps between them. -/
theorem spaced_length {p : ℚ} {s x : Int} {rest : List Int}
    (spaced : (x :: rest).Pairwise fun later earlier => p ≤ ((later - earlier : Int) : ℚ))
    (since : ∀ u ∈ x :: rest, s ≤ u) : rest.length * p ≤ ((x - s : Int) : ℚ) := by
  induction rest generalizing x with
  | nil =>
    have low : s ≤ x := since x List.mem_cons_self
    rw [List.length_nil, Nat.cast_zero, zero_mul]
    exact_mod_cast Int.sub_nonneg_of_le low
  | cons y rest ih =>
    obtain ⟨first, others⟩ := List.pairwise_cons.mp spaced
    have gap := first y List.mem_cons_self
    have below := ih others fun u mem => since u (List.mem_cons_of_mem x mem)
    push_cast [List.length_cons] at gap below ⊢
    linarith

theorem length_firings_le {p : ℚ} (positive : 0 < p) {times : List Int}
    (spaced : times.Pairwise fun later earlier => p ≤ ((later - earlier : Int) : ℚ)) {s t : Int} (forward : s ≤ t) :
    ((times.filter fun u => s ≤ u ∧ u ≤ t).length : Int) ≤ ⌊((t - s : Int) : ℚ) / p⌋ + 1 := by
  have room : (0 : ℚ) ≤ ((t - s : Int) : ℚ) := by exact_mod_cast Int.sub_nonneg_of_le forward
  have within : ∀ u ∈ times.filter fun u => s ≤ u ∧ u ≤ t, s ≤ u ∧ u ≤ t := by
    intro u mem
    exact decide_eq_true_iff.mp (List.mem_filter.mp mem).2
  have apart := spaced.filter fun u => s ≤ u ∧ u ≤ t
  cases listed : times.filter fun u => s ≤ u ∧ u ≤ t with
  | nil =>
    have := Int.floor_nonneg.mpr (div_nonneg room positive.le)
    rw [List.length_nil]
    omega
  | cons x rest =>
    rw [listed] at within apart
    have gaps := spaced_length apart fun u mem => (within u mem).1
    have last : x ≤ t := (within x List.mem_cons_self).2
    have stretch : ((x - s : Int) : ℚ) ≤ ((t - s : Int) : ℚ) := by exact_mod_cast Int.sub_le_sub_right last s
    have fits : (rest.length : Int) ≤ ⌊((t - s : Int) : ℚ) / p⌋ := by
      rw [Int.le_floor, le_div_iff₀ positive]
      exact_mod_cast gaps.trans stretch
    rw [List.length_cons]
    omega

/-! ## Between two firings -/

theorem firings_suffix (between : List (Request α)) : firings k h <:+ firings k (between ++ h) := by
  induction between with
  | nil => exact List.suffix_rfl
  | cons r rest ih =>
    cases r with
    | add | reset => exact ih
    | poll now =>
      rw [List.cons_append, firings]
      split
      · exact ih.trans (List.suffix_cons now _)
      · exact ih

/-- Where a request adds no firing, there was none before it either, and it was no report. -/
theorem firings_quiet {r : Request α} {rest : List (Request α)}
    (quiet : firings k (r :: (rest ++ h)) = firings k h) :
    firings k (rest ++ h) = firings k h ∧ ∀ now, r = .poll now → k ∉ (after (rest ++ h)).reported now := by
  have behind := (firings_suffix (k := k) (h := h) rest).length_le
  cases r with
  | add | reset => exact ⟨quiet, fun _ other => nomatch other⟩
  | poll now =>
    rw [firings] at quiet
    split at quiet
    · have length := congrArg List.length quiet
      rw [List.length_cons] at length
      omega
    · next notDue =>
      refine ⟨quiet, ?_⟩
      rintro _ ⟨⟩
      exact notDue

/-- Without a reset and a firing a clock stays as it is. -/
theorem clock_quiet {between : List (Request α)} (here : (after h)[k]? = some c) (noReset : ∀ t, .reset t ∉ between)
    (quiet : firings k (between ++ h) = firings k h) : (after (between ++ h))[k]? = some c := by
  induction between with
  | nil => exact here
  | cons r rest ih =>
    obtain ⟨before, silent⟩ := firings_quiet quiet
    have held := ih (fun t mem => noReset t (List.mem_cons_of_mem r mem)) before
    obtain ⟨since, kept⟩ := clock_kept held r
    rcases clock_cons kept with ⟨marks, -⟩ | ⟨-, same⟩
    · cases marks with
      | registered _ new =>
        have old := (List.getElem?_eq_some_iff.mp held).1
        omega
      | fired due => exact absurd due (silent _ rfl)
      | reset => exact absurd List.mem_cons_self (noReset _)
    · rw [List.cons_append, kept, ← same, held]

/-- Since its last report a clock has waited less than its period and the longest time between two polls. -/
theorem firing_soon {earlier later : Int} {between past : List (Request α)} {p d : ℚ}
    (here : (after (.poll earlier :: past))[k]? = some c) (since : c.since = earlier) (exact : p ∈ c.period.value?)
    (positive : 0 < p) (noReset : ∀ t, .reset t ∉ between)
    (quiet : firings k (between ++ .poll earlier :: past) = firings k (.poll earlier :: past))
    (often : (later :: polls (between ++ [.poll earlier])).IsChain fun b a => ((b - a : Int) : ℚ) ≤ d) :
    ((later - earlier : Int) : ℚ) < p + d := by
  induction between with
  | nil =>
    have last := (List.isChain_cons_cons.mp often).1
    linarith
  | cons r rest ih =>
    obtain ⟨before, silent⟩ := firings_quiet quiet
    have calm : ∀ t, .reset t ∉ rest := fun t mem => noReset t (List.mem_cons_of_mem r mem)
    cases r with
    | add => exact ih calm before often
    | reset t => exact absurd List.mem_cons_self (noReset t)
    | poll u =>
      -- the last poll before: it came too early for the clock, and the next one follows soon
      have last := (List.isChain_cons_cons.mp often).1
      have held := clock_quiet here calm before
      have early : ¬p ≤ ((u - earlier : Int) : ℚ) := by
        intro waited
        refine silent u rfl ((reported_iff held u).mpr ⟨p, exact, ?_⟩)
        rw [since]
        exact waited
      push_cast at early last ⊢
      linarith

/-- A poll reports the clocks whose period has passed since the latest of their moments, each once and in the
    order of registration. So a report comes a period or more after a registration, a reset or another
    report; a stretch of time has room for only so many; and after a report and no reset a clock waits
    less than a period and the longest time between two polls. -/
theorem clock_fires_iff_period_passed (ordered : InOrder h) :
    (∀ now, (after h).due now = ((after h).reported now).filterMap (fun k => (after h)[k]?.map Clock.activity) ∧
      ((after h).reported now).Pairwise (· < ·)) ∧
    ∀ k c, (after h)[k]? = some c →
      (∃ since, IsGreatest (moments k h) since ∧
        ∀ now, k ∈ (after h).reported now ↔ ∃ p ∈ c.period.value?, p ≤ ((now - since : Int) : ℚ)) ∧
      (c.period.value? = none → firings k h = []) ∧
      ∀ p ∈ c.period.value?,
        (∀ now, k ∈ (after h).reported now → ∀ t ∈ moments k h, p ≤ ((now - t : Int) : ℚ)) ∧
        ((firings k h).Pairwise fun later earlier => p ≤ ((later - earlier : Int) : ℚ)) ∧
        (0 < p →
          (∀ s t, s ≤ t →
            (((firings k h).filter fun u => s ≤ u ∧ u ≤ t).length : Int) ≤ ⌊((t - s : Int) : ℚ) / p⌋ + 1) ∧
          ∀ (d : ℚ) later between earlier past, h = .poll later :: (between ++ .poll earlier :: past) →
            k ∈ (after past).reported earlier →
            firings k (between ++ .poll earlier :: past) = firings k (.poll earlier :: past) →
            (∀ t, .reset t ∉ between) →
            ((polls (.poll later :: (between ++ [.poll earlier]))).IsChain fun b a => ((b - a : Int) : ℚ) ≤ d) →
            ((later - earlier : Int) : ℚ) < p + d) := by
  refine ⟨fun now => ⟨due_eq _ now, reported_sorted _ now⟩, ?_⟩
  intro k c here
  refine ⟨⟨c.since, since_greatest ordered here, reported_iff here⟩, ?_, ?_⟩
  · intro endless
    rw [List.eq_nil_iff_forall_not_mem]
    intro t fired
    obtain ⟨b, held, p, exact⟩ := clock_of_firing fired
    cases here.symm.trans held
    cases endless.symm.trans exact
  · intro p exact
    have spaced := firings_spaced ordered here exact
    refine ⟨fun now due t moment => period_le_of_reported ordered here exact due moment, spaced, ?_⟩
    intro positive
    refine ⟨fun s t forward => length_firings_le positive spaced forward, ?_⟩
    rintro d later between earlier past rfl due quiet noReset often
    obtain ⟨b, before, _⟩ := mem_reported.mp due
    obtain ⟨since, fired⟩ := clock_kept before (.poll earlier)
    have marked : since = earlier := by
      rcases clock_cons fired with ⟨-, moment⟩ | ⟨unmarked, -⟩
      · exact moment
      · exact absurd (.fired due) unmarked
    obtain ⟨_, now⟩ := clock_since (List.suffix_cons (.poll later) _) (clock_quiet fired noReset quiet)
    cases here.symm.trans now
    exact firing_soon fired marked exact positive noReset quiet often

/-- Sixty times a second, reset early, reported late, and polled once in vain before the next report. -/
theorem clock_fires_late_then_soon :
    let past : List (Request Unit) := [.reset 3000, .poll 2000, .add 0 (.whole 60) ()]
    let h : List (Request Unit) := .poll 39000 :: ([.poll 38000] ++ .poll 22000 :: past)
    InOrder h ∧ firings 0 h = [39000, 22000] ∧
      ∃ p, (Clock.periodOf (.whole 60)).value? = some p ∧ 0 < p ∧ p ≤ 17000 ∧ 17000 < p + 16000 := by
  intro past h
  have ordered : InOrder h := by unfold InOrder; decide
  have fired : firings 0 h = [39000, 22000] := by decide +kernel
  obtain ⟨c, here, period⟩ : ∃ c, (after h)[0]? = some c ∧ c.period = Clock.periodOf (.whole 60) := ⟨_, rfl, rfl⟩
  obtain ⟨p, exact, positive⟩ : ∃ p, (Clock.periodOf (.whole 60)).value? = some p ∧ 0 < p := ⟨_, rfl, by decide +kernel⟩
  obtain ⟨-, law⟩ := clock_fires_iff_period_passed ordered
  obtain ⟨-, -, bounds⟩ := law 0 c here
  obtain ⟨-, spaced, late⟩ := bounds p (period ▸ exact)
  refine ⟨ordered, fired, p, exact, positive, ?_, ?_⟩
  · rw [fired] at spaced
    have gap := (List.pairwise_cons.mp spaced).1 22000 List.mem_cons_self
    norm_num at gap
    exact gap
  · have soon := (late positive).2 16000 39000 [.poll 38000] 22000 past rfl (by decide +kernel) (by decide +kernel)
      (by simp) (by simp only [polls, List.cons_append, List.nil_append]; norm_num)
    norm_num at soon
    linarith

end

end Scheduler

end Chip8
