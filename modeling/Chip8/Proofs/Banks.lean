/-
  Chip8.Proofs.Banks — a bank answers with the latest bytes, or names an address that it does not hold.

  Whatever is asked of a bank has a range of addresses, which may be empty, and bytes that it puts there, which may
  be none. Storing a byte, zeroing a range and zeroing the whole bank are all the storing of a block
  (`perform_store`), so there are four ways in which an access can end (`performed`): it strayed, there was no room
  for a new size, the bank is a new one, or the bytes were put and the answer is what the bank holds. A history of
  accesses, the latest first, tells the size of the bank and the latest byte at every address (`known_after`), and
  so it tells every answer.
-/
import Chip8.Proofs.Access
import Mathlib.Data.List.GetD

namespace Chip8.Memory

/-! ## Accesses -/

inductive Access where
  | read (a : Int)
  | readWord (a : Int)
  | readBlock (a : Int) (n : Nat)
  | write (a : Int) (b : UInt8)
  | writeBlock (a : Int) (block : List UInt8)
  | zeroBlock (a : Int) (n : Nat)
  | clear
  | resize (n : Nat)

inductive Answer where
  | byte (b : UInt8)
  | word (w : Nat)
  | block (bytes : List UInt8)
  | done
  deriving DecidableEq

def settle (m : Memory) : Except Fault Memory → Memory × Except Fault Answer
  | .ok bank => (bank, .ok .done)
  | .error f => (m, .error f)

/-- The bank after an access, and its answer, at a host with this room for a new one. -/
def perform (m : Memory) (room : Nat) : Access → Memory × Except Fault Answer
  | .read a => (m, (m.read a).map .byte)
  | .readWord a => (m, (m.readWord a).map .word)
  | .readBlock a n => (m, (m.readBlock a n).map .block)
  | .write a b => m.settle (m.write a b.toNat)
  | .writeBlock a block => m.settle (m.writeBlock a block)
  | .zeroBlock a n => m.settle (m.zeroBlock a n)
  | .clear => (m.cleared, .ok .done)
  | .resize n => m.settle (ofSize room n)

/-- The bank after accesses, the latest first. -/
def after (m : Memory) (room : Nat) : List Access → Memory
  | [] => m
  | o :: past => ((m.after room past).perform room o).1

namespace Access

def first : Access → Int
  | read a | readWord a | readBlock a _ | write a _ | writeBlock a _ | zeroBlock a _ => a
  | clear | resize _ => 0

def bytes (size : Nat) : Access → List UInt8
  | write _ b => [b]
  | writeBlock _ block => block
  | zeroBlock _ n => List.replicate n 0
  | clear => List.replicate size 0
  | read _ | readWord _ | readBlock _ _ | resize _ => []

def count (size : Nat) : Access → Nat
  | read _ => 1
  | readWord _ => 2
  | readBlock _ n => n
  | o => (o.bytes size).length

/-- Does an access touch an address outside a bank of a size? -/
def Strays (size : Nat) (o : Access) : Prop :=
  0 < o.count size ∧ ¬(0 ≤ o.first ∧ o.first + o.count size ≤ size)

instance (size : Nat) (o : Access) : Decidable (o.Strays size) := inferInstanceAs (Decidable (_ ∧ _))

def put (size : Nat) (o : Access) (a : Int) : Option UInt8 :=
  if o.first ≤ a then (o.bytes size)[(a - o.first).toNat]? else none

def reply (byteAt : Int → UInt8) : Access → Answer
  | read a => .byte (byteAt a)
  | readWord a => .word ((byteAt a).toNat * 256 + (byteAt (a + 1)).toNat)
  | readBlock a n => .block ((List.range n).map fun (k : Nat) => byteAt (a + k))
  | write _ _ | writeBlock _ _ | zeroBlock _ _ | clear | resize _ => .done

end Access

/-! ## Histories -/

/-- The size of a bank after accesses, the latest first: the latest one that there was room for. -/
def sizeAfter (room n : Nat) : List Access → Nat
  | [] => n
  | .resize k :: past => if Size.Fits room k then k else sizeAfter room n past
  | _ :: past => sizeAfter room n past

/-- The latest byte that was put at an address, and zero where none was since the bank had its size. An access that
    strays puts nothing. -/
def latest (room n : Nat) : List Access → Int → UInt8
  | [], _ => 0
  | .resize k :: past, a => if Size.Fits room k then 0 else latest room n past a
  | o :: past, a =>
    if o.Strays (sizeAfter room n past) then latest room n past a
    else (o.put (sizeAfter room n past) a).getD (latest room n past a)

/-! ## One access -/

inductive Performed (m : Memory) (room : Nat) (o : Access) : Memory × Except Fault Answer → Prop
  | strayed : o.Strays m.bytes.size →
      Performed m room o (m, .error (.outOfRange (m.outside o.first (o.count m.bytes.size))))
  | refused {n : Nat} {e : SizeError} : o = .resize n → ¬Size.Fits room n → Performed m room o (m, .error (.badSize e))
  | resized {n : Nat} : o = .resize n → Size.Fits room n → Performed m room o (zeros n, .ok .done)
  | done : ¬o.Strays m.bytes.size → (∀ n, o ≠ .resize n) →
      Performed m room o (m.withBlock o.first (o.bytes m.bytes.size), .ok (o.reply m.byteAt))

section

variable {m : Memory} {room : Nat} {o : Access} {a : Int}

theorem holds_one : m.Holds a 1 ↔ m.InBank a := by
  simp only [Holds, InBank]
  omega

theorem outside_one (m : Memory) (a : Int) : m.outside a 1 = a := by
  unfold outside
  split <;> omega

theorem write_eq (m : Memory) (a : Int) (b : UInt8) : m.write a b.toNat = m.writeBlock a [b] := by
  have byte : (0 : Int) ≤ b.toNat ∧ (b.toNat : Int) < 256 := by
    have := b.toNat_lt
    omega
  have block : m.writeBlock a [b] = if m.Holds a 1 then .ok (m.withBlock a [b]) else .error (.outOfRange (m.outside a 1)) :=
    writeBlock_eq (List.cons_ne_nil _ _)
  rw [block, outside_one]
  simp only [write, byte, and_self, if_true, Int.toNat_natCast, UInt8.ofNat_toNat]
  by_cases held : m.InBank a
  · rw [check_eq_ok held, if_pos (holds_one.mpr held)]
    rfl
  · rw [check_eq_error held, if_neg fun holds => held (holds_one.mp holds)]
    rfl

theorem zeroBlock_eq (m : Memory) (a : Int) (n : Nat) : m.zeroBlock a n = m.writeBlock a (List.replicate n 0) := by
  cases n with
  | zero => rfl
  | succ n =>
    have some : ¬((n + 1 : Nat) : Int) = 0 := by omega
    have sized : ¬((n + 1 : Nat) : Int) < 0 := by omega
    have length : (List.replicate (n + 1) (0 : UInt8)).length = n + 1 := List.length_replicate
    rw [writeBlock_eq (by simp), length]
    simp only [zeroBlock, some, sized, if_false, Int.toNat_natCast]
    rw [checkRange_eq (by omega)]
    split <;> rfl

theorem holds_all (m : Memory) : m.Holds 0 (List.replicate m.bytes.size (0 : UInt8)).length := by
  simp only [Holds, size, List.length_replicate]
  omega

theorem cleared_eq (m : Memory) : m.cleared = m.withBlock 0 (List.replicate m.bytes.size 0) := by
  refine eq_of_byteAt (by simp [cleared, withBlock]) ?_
  intro k within
  have inside : k < m.bytes.size := by simpa [cleared] using within
  have place : ((k : Int) - 0).toNat = k := by omega
  have reached : (0 : Int) ≤ k ∧ (k : Int) < 0 + (List.replicate m.bytes.size (0 : UInt8)).length := by
    rw [List.length_replicate]
    omega
  rw [byteAt_withBlock m.holds_all, if_pos reached, place, List.getD_replicate _ inside]
  exact byteAt_zeros m.bytes.size k

/-- A store of any kind is the store of a block. -/
theorem perform_store (stores : o.bytes m.bytes.size ≠ []) :
    m.perform room o = m.settle (m.writeBlock o.first (o.bytes m.bytes.size)) := by
  cases o with
  | write a b => exact congrArg m.settle (m.write_eq a b)
  | writeBlock a block => rfl
  | zeroBlock a n => exact congrArg m.settle (m.zeroBlock_eq a n)
  | clear =>
    show (m.cleared, _) = m.settle (m.writeBlock 0 (List.replicate m.bytes.size 0))
    rw [writeBlock_of_holds m.holds_all, cleared_eq]
    rfl
  | read | readWord | readBlock | resize => exact absurd rfl stores

theorem count_of_stores (stores : o.bytes m.bytes.size ≠ []) :
    o.count m.bytes.size = (o.bytes m.bytes.size).length := by
  cases o with
  | write | writeBlock | zeroBlock | clear => rfl
  | read | readWord | readBlock | resize => exact absurd rfl stores

/-- An access that touches something and does not stray is held by the bank. -/
theorem holds_of_not_strays (some : 0 < o.count m.bytes.size) (fits : ¬o.Strays m.bytes.size) :
    m.Holds o.first (o.count m.bytes.size) :=
  Decidable.byContradiction fun lost => fits ⟨some, lost⟩

theorem performed_store (stores : o.bytes m.bytes.size ≠ []) (stays : ∀ n, o ≠ .resize n) :
    Performed m room o (m.perform room o) := by
  have length := count_of_stores stores
  rw [perform_store stores, writeBlock_eq stores, ← length]
  by_cases held : m.Holds o.first (o.count m.bytes.size)
  · have answer : o.reply m.byteAt = .done := by
      cases o with
      | write | writeBlock | zeroBlock | clear | resize => rfl
      | read | readWord | readBlock => exact absurd rfl stores
    rw [if_pos held]
    have done : Performed m room o (m.withBlock o.first (o.bytes m.bytes.size), .ok (o.reply m.byteAt)) :=
      .done (fun strays => strays.2 held) stays
    rwa [answer] at done
  · have some : 0 < o.count m.bytes.size := by
      rw [length]
      exact List.length_pos_iff.mpr stores
    rw [if_neg held]
    exact .strayed ⟨some, held⟩

/-- A read is answered with what the bank holds, or it strays. -/
theorem performed_read {result : Except Fault Answer} (ran : m.perform room o = (m, result)) (stays : ∀ n, o ≠ .resize n)
    (reads : o.bytes m.bytes.size = []) (some : 0 < o.count m.bytes.size)
    (answer : result = if m.Holds o.first (o.count m.bytes.size) then .ok (o.reply m.byteAt)
      else .error (.outOfRange (m.outside o.first (o.count m.bytes.size)))) : Performed m room o (m.perform room o) := by
  rw [ran, answer]
  by_cases held : m.Holds o.first (o.count m.bytes.size)
  · have done : Performed m room o (m.withBlock o.first (o.bytes m.bytes.size), .ok (o.reply m.byteAt)) :=
      .done (fun strays => strays.2 held) stays
    rw [reads] at done
    rw [if_pos held]
    exact done
  · rw [if_neg held]
    exact .strayed ⟨some, held⟩

theorem performed (m : Memory) (room : Nat) (o : Access) : Performed m room o (m.perform room o) := by
  cases o with
  | read a =>
    refine performed_read rfl (fun _ => nofun) rfl Nat.one_pos ?_
    show Except.map Answer.byte (m.read a) = if m.Holds a 1 then _ else .error (.outOfRange (m.outside a 1))
    rw [read_eq, apply_ite (Except.map Answer.byte), outside_one]
    exact if_congr holds_one.symm rfl rfl
  | readWord a =>
    refine performed_read rfl (fun _ => nofun) rfl Nat.two_pos ?_
    rw [readWord_eq, apply_ite (Except.map Answer.word)]
    rfl
  | readBlock a n =>
    rcases Nat.eq_zero_or_pos n with rfl | some
    · exact .done (fun strays => Nat.lt_irrefl 0 strays.1) (fun _ => nofun)
    · refine performed_read rfl (fun _ => nofun) rfl some ?_
      rw [readBlock_eq some, apply_ite (Except.map Answer.block)]
      rfl
  | write a b => exact performed_store (List.cons_ne_nil _ _) (fun _ => nofun)
  | writeBlock a block =>
    by_cases none : block = []
    · subst none
      exact .done (fun strays => Nat.lt_irrefl 0 strays.1) (fun _ => nofun)
    · exact performed_store none (fun _ => nofun)
  | zeroBlock a n =>
    rcases Nat.eq_zero_or_pos n with rfl | some
    · exact .done (fun strays => Nat.lt_irrefl 0 strays.1) (fun _ => nofun)
    · exact performed_store (by simp [Access.bytes]; omega) (fun _ => nofun)
  | clear =>
    show Performed m room .clear (m.cleared, .ok .done)
    rw [cleared_eq]
    exact .done (fun strays => strays.2 m.holds_all) (fun _ => nofun)
  | resize n =>
    by_cases fits : Size.Fits room n
    · show Performed m room (.resize n) (m.settle (ofSize room n))
      rw [ofSize_of_fits fits]
      exact .resized rfl fits
    · obtain ⟨e, refused⟩ := ofSize_of_not_fits fits
      show Performed m room (.resize n) (m.settle (ofSize room n))
      rw [refused]
      exact .refused rfl fits

theorem resize_of_strays {size : Nat} (strays : o.Strays size) : ∀ n, o ≠ .resize n := by
  rintro n rfl
  exact Nat.lt_irrefl 0 strays.1

namespace Performed

variable {next : Memory} {answer : Except Fault Answer}

theorem strays_iff (ended : Performed m room o (next, answer)) :
    (∃ a, answer = .error (.outOfRange a)) ↔ o.Strays m.bytes.size := by
  cases ended with
  | strayed strays => exact ⟨fun _ => strays, fun _ => ⟨_, rfl⟩⟩
  | refused resized | resized resized =>
    constructor
    · rintro ⟨_, same⟩
      cases same
    · intro strays
      exact absurd resized (resize_of_strays strays _)
  | done fits =>
    constructor
    · rintro ⟨_, same⟩
      cases same
    · intro strays
      exact absurd strays fits

theorem of_strays (ended : Performed m room o (next, answer)) (strays : o.Strays m.bytes.size) :
    answer = .error (.outOfRange (m.outside o.first (o.count m.bytes.size))) := by
  cases ended with
  | strayed => rfl
  | refused resized | resized resized => exact absurd resized (resize_of_strays strays _)
  | done fits => exact absurd strays fits

theorem of_error {f : Fault} (ended : Performed m room o (next, answer)) (refused : answer = .error f) : next = m := by
  cases ended with
  | strayed | refused => rfl
  | resized | done => cases refused

theorem of_fits (ended : Performed m room o (next, answer)) (fits : ¬o.Strays m.bytes.size)
    (sized : ∀ n, o = .resize n → Size.Fits room n) : answer = .ok (o.reply m.byteAt) := by
  cases ended with
  | strayed strays => exact absurd strays fits
  | refused resized large => exact absurd (sized _ resized) large
  | resized resized =>
    subst resized
    rfl
  | done => rfl

theorem of_resize {n : Nat} {reply : Answer} (ended : Performed m room (.resize n) (next, answer))
    (granted : answer = .ok reply) : next = zeros n := by
  cases ended with
  | strayed | refused => cases granted
  | resized same =>
    cases same
    rfl
  | done _ stays => exact absurd rfl (stays n)

end Performed

/-- What an access puts is where it was put, and the rest is as it was. -/
theorem byteAt_put (fits : ¬o.Strays m.bytes.size) (a : Int) :
    (m.withBlock o.first (o.bytes m.bytes.size)).byteAt a = (o.put m.bytes.size a).getD (m.byteAt a) := by
  unfold Access.put
  by_cases none : o.bytes m.bytes.size = []
  · rw [none, List.getElem?_nil, ite_self]
    rfl
  · have length := count_of_stores none
    have held : m.Holds o.first (o.bytes m.bytes.size).length := by
      rw [← length]
      exact holds_of_not_strays (by rw [length]; exact List.length_pos_iff.mpr none) fits
    rw [byteAt_withBlock held]
    by_cases begun : o.first ≤ a
    · rw [if_pos begun]
      by_cases reached : a < o.first + (o.bytes m.bytes.size).length
      · have inside : (a - o.first).toNat < (o.bytes m.bytes.size).length := by omega
        rw [if_pos ⟨begun, reached⟩, List.getElem?_eq_getElem inside, Option.getD_some, List.getD_eq_getElem _ _ inside]
      · rw [if_neg fun range => reached range.2, List.getElem?_eq_none (by omega), Option.getD_none]
    · rw [if_neg begun, if_neg fun range => begun range.1, Option.getD_none]

theorem Performed.of_ok {next : Memory} {answer : Except Fault Answer} {reply : Answer}
    (ended : Performed m room o (next, answer)) (granted : answer = .ok reply) (stays : ∀ n, o ≠ .resize n) :
    next.bytes.size = m.bytes.size ∧ ∀ a, next.byteAt a = (o.put m.bytes.size a).getD (m.byteAt a) := by
  cases ended with
  | strayed | refused => cases granted
  | resized same => exact absurd same (stays _)
  | done fits => exact ⟨by simp [withBlock], byteAt_put fits⟩

end

/-! ## Many accesses -/

section

variable {room n : Nat} {past : List Access} {o : Access} {a : Int}

theorem sizeAfter_cons (stays : ∀ k, o ≠ .resize k) : sizeAfter room n (o :: past) = sizeAfter room n past := by
  cases o with
  | resize k => exact absurd rfl (stays k)
  | _ => rfl

theorem latest_cons (stays : ∀ k, o ≠ .resize k) : latest room n (o :: past) a =
    if o.Strays (sizeAfter room n past) then latest room n past a
    else (o.put (sizeAfter room n past) a).getD (latest room n past a) := by
  cases o with
  | resize k => exact absurd rfl (stays k)
  | _ => rfl

/-- A history tells the size of the bank and its bytes. -/
theorem known_after (room n : Nat) (past : List Access) :
    ((zeros n).after room past).bytes.size = sizeAfter room n past ∧
      ∀ a, ((zeros n).after room past).byteAt a = latest room n past a := by
  induction past with
  | nil => exact ⟨by simp [after, zeros, sizeAfter], byteAt_zeros n⟩
  | cons o past ih =>
    obtain ⟨size, bytes⟩ := ih
    have ended := performed ((zeros n).after room past) room o
    rw [after]
    generalize ((zeros n).after room past).perform room o = result at ended
    cases ended with
    | strayed strays =>
      have stays := resize_of_strays strays
      refine ⟨size.trans (sizeAfter_cons stays).symm, fun a => ?_⟩
      rw [latest_cons stays, if_pos (size ▸ strays)]
      exact bytes a
    | refused same large =>
      subst same
      simp only [sizeAfter, latest, if_neg large]
      exact ⟨size, bytes⟩
    | resized same fits =>
      subst same
      simp only [sizeAfter, latest, if_pos fits]
      exact ⟨by simp [zeros], byteAt_zeros _⟩
    | done fits stays =>
      refine ⟨?_, fun a => ?_⟩
      · rw [sizeAfter_cons stays, ← size]
        simp [withBlock]
      · rw [latest_cons stays, if_neg (size ▸ fits), ← bytes a, ← size]
        exact byteAt_put fits a

end

/-- After any accesses, whatever room the host has for a new bank, a bank has the size that it was last given. An
    access that strays is the only one that is refused with an address, the lower end of its range or else the upper
    one; one that is refused changes nothing. Any other is answered with the latest bytes, but for a size that there
    is no room for. It puts its own bytes at the addresses of its range, leaves the others and the size as they were,
    and a new size makes a new bank. -/
theorem accesses_answer_latest (room n : Nat) (past : List Access) (o : Access) :
    let m := (zeros n).after room past
    let next := (m.perform room o).1
    let answer := (m.perform room o).2
    let size := sizeAfter room n past
    m.bytes.size = size ∧
    ((∃ a, answer = .error (.outOfRange a)) ↔ o.Strays size) ∧
    (o.Strays size → answer = .error (.outOfRange (m.outside o.first (o.count size)))) ∧
    (∀ f, answer = .error f → next = m) ∧
    (¬o.Strays size → (∀ k, o = .resize k → Size.Fits room k) → answer = .ok (o.reply (latest room n past))) ∧
    (∀ reply, answer = .ok reply → (∀ k, o = .resize k → next = zeros k) ∧
      ((∀ k, o ≠ .resize k) → next.bytes.size = size ∧ ∀ a, next.byteAt a = (o.put size a).getD (m.byteAt a))) := by
  intro m next answer size
  obtain ⟨sized, bytes⟩ := known_after room n past
  have held : m.byteAt = latest room n past := funext bytes
  have ended : Performed m room o (next, answer) := performed m room o
  refine ⟨sized, ?_⟩
  rw [← show m.bytes.size = size from sized, ← held]
  refine ⟨ended.strays_iff, ended.of_strays, fun f refused => ended.of_error refused, ended.of_fits, ?_⟩
  intro reply granted
  refine ⟨?_, ended.of_ok granted⟩
  rintro k resized
  rw [resized] at ended
  exact ended.of_resize granted

/-- A block over the end of four bytes is refused, with the address behind it. A write inside is read again. There is
    no room for five bytes, but for two, and then the write is forgotten. -/
theorem accesses_answer_latest_over_the_end :
    let past : List Access := [.resize 5, .writeBlock 2 [7, 8, 9], .write 1 5]
    let m := (zeros 4).after 4 past
    (m.perform 4 (.writeBlock 2 [7, 8, 9])).2 = .error (.outOfRange 4) ∧
    (m.perform 4 (.readBlock 1 3)).2 = .ok (.block [5, 0, 0]) ∧
    (((zeros 4).after 4 (.resize 2 :: past)).perform 4 (.read 1)).2 = .ok (.byte 0) := by
  intro past m
  obtain ⟨-, -, named, -⟩ := accesses_answer_latest 4 4 past (.writeBlock 2 [7, 8, 9])
  obtain ⟨-, -, -, -, read, -⟩ := accesses_answer_latest 4 4 past (.readBlock 1 3)
  obtain ⟨-, -, -, -, fresh, -⟩ := accesses_answer_latest 4 4 (.resize 2 :: past) (.read 1)
  refine ⟨(named (by decide)).trans rfl, ?_, ?_⟩
  · exact (read (by decide) (fun _ => nofun)).trans rfl
  · exact (fresh (by decide) (fun _ => nofun)).trans rfl

end Chip8.Memory
