/-
  Chip8.Proofs.Polls — what a keypad answers, poll by poll.

  A keypad answers each poll from the signals of that poll and from what it kept of the earlier ones
  (`pollAll_at`). Of the requests of one batch quitting is what counts, and else the last one (`verdict`). What
  was the last thing to happen to a key is the same question for every kind of keypad (`Latest`).
-/
import Chip8.Keypad

namespace Chip8

/-! ## The latest of a list -/

def Latest {α : Type} (p : α → Prop) (items : List α) (x : α) : Prop :=
  ∃ earlier later, items = earlier ++ x :: later ∧ p x ∧ ∀ y ∈ later, ¬p y

section

variable {α : Type} {p : α → Prop} {items : List α} {x y : α}

theorem not_latest_nil : ¬Latest p [] x := by
  rintro ⟨earlier, later, split, -⟩
  simp at split

/-- A new item with the property is the latest one; any other leaves the latest as it was. -/
theorem latest_snoc : Latest p (items ++ [y]) x ↔ (p y ∧ x = y) ∨ (¬p y ∧ Latest p items x) := by
  constructor
  · rintro ⟨earlier, later, split, has, others⟩
    rcases List.eq_nil_or_concat later with rfl | ⟨between, last, rfl⟩
    · obtain ⟨-, ends⟩ := List.append_inj' split rfl
      obtain rfl : y = x := List.singleton_inj.mp ends
      exact .inl ⟨has, rfl⟩
    · have whole : items ++ [y] = (earlier ++ x :: between) ++ [last] := by simpa using split
      obtain ⟨rfl, ends⟩ := List.append_inj' whole rfl
      obtain rfl : y = last := List.singleton_inj.mp ends
      refine .inr ⟨others y (by simp), earlier, between, rfl, has, ?_⟩
      intro z mem
      exact others z (by simp [mem])
  · rintro (⟨has, rfl⟩ | ⟨lacks, earlier, later, rfl, has, others⟩)
    · exact ⟨items, [], rfl, has, by simp⟩
    · refine ⟨earlier, later ++ [y], by simp, has, ?_⟩
      intro z mem
      rcases List.mem_append.mp mem with before | last
      · exact others z before
      · exact List.mem_singleton.mp last ▸ lacks

end

namespace Keypad

/-! ## Requests -/

/-- What the requests of a batch come to: to quit if one of them is that, and else the last one. -/
def verdict (requests : List HostEvent) : Option HostEvent :=
  if .quit ∈ requests then some .quit else requests.getLast?

theorem merge_verdict (requests : List HostEvent) (later : HostEvent) :
    merge (verdict requests) later = verdict (requests ++ [later]) := by
  by_cases quits : .quit ∈ requests
  · simp [merge, verdict, quits]
  · have other : requests.getLast? ≠ some .quit := fun last => quits (List.mem_of_getLast? last)
    cases later <;> simp [merge, verdict, quits, other]

/-- Taking requests one by one comes to the verdict on all of them. -/
theorem foldl_merge (before requests : List HostEvent) :
    requests.foldl merge (verdict before) = verdict (before ++ requests) := by
  induction requests generalizing before with
  | nil => simp
  | cons later rest ih =>
    rw [List.foldl_cons, merge_verdict, ih, List.append_assoc, List.singleton_append]

theorem foldl_merge_none (requests : List HostEvent) : requests.foldl merge none = verdict requests :=
  foldl_merge [] requests

/-! ## Polls in sequence -/

variable (k : Keypad)

theorem pollAll_append (before after : List Signals) :
    k.pollAll (before ++ after) =
      ((k.pollAll before).1 ++ ((k.pollAll before).2.pollAll after).1, ((k.pollAll before).2.pollAll after).2) := by
  induction before generalizing k with
  | nil => simp [pollAll]
  | cons s rest ih => simp [pollAll, ih]

theorem length_pollAll (signals : List Signals) : (k.pollAll signals).1.length = signals.length := by
  induction signals generalizing k with
  | nil => rfl
  | cons s rest ih => simp [pollAll, ih]

/-- The answer to a poll is that of the keypad after the polls before it. -/
theorem pollAll_at (before after : List Signals) (s : Signals) :
    (k.pollAll (before ++ s :: after)).1[before.length]? = some ((k.pollAll before).2.poll s).2 := by
  have past : (k.pollAll before).1.length ≤ before.length := Nat.le_of_eq (k.length_pollAll before)
  rw [pollAll_append, List.getElem?_append_right past, length_pollAll, Nat.sub_self]
  rfl

end Keypad

end Chip8
