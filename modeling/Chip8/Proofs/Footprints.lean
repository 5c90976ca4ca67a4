/-
  Chip8.Proofs.Footprints — what an instruction may change.

  Each part of a machine has its table: which instructions may store to an address, draw, move the stack,
  set a timer, the index or a register, and where they may go on. A machine that differs from another in
  nothing but what the tables allow is in the instruction's footprint (`Footprint`). Taking in the word
  starts a footprint, and every effect stays inside (`footprint_execute`), so a cycle that is carried out
  leaves the rest of the machine alone, whatever the machine was (`cycle_keeps_footprint`).
-/
import Chip8.Emulator
import Chip8.Proofs.Calls

namespace Chip8

/-! ## The tables -/

inductive Timer where
  | delay
  | sound
  deriving DecidableEq, Repr

def Timer.read (m : Machine) : Timer → Int
  | .delay => m.delay
  | .sound => m.sound

theorem Timer.read_countDown (timer : Timer) (m : Machine) :
    timer.read m.countDown = if 0 < timer.read m then timer.read m - 1 else timer.read m := by
  cases timer <;> rfl

namespace Instruction

/-- May an instruction store to an address, with I at `index`? -/
def StoresTo (index a : Int) : Instruction → Prop
  | storeDecimal _ => index ≤ a ∧ a ≤ index + 2
  | store x => index ≤ a ∧ a ≤ index + x.val
  | _ => False

def Draws : Instruction → Prop
  | clearScreen | draw _ _ _ => True
  | _ => False

/-- Does an instruction turn these return addresses into those, the latest first, with the program counter at
    `pc`? -/
def MovesStack (pc : Int) (before after : List Int) : Instruction → Prop
  | call _ => after = (pc + 2) :: before
  | ret => ∃ a, before = a :: after
  | _ => after = before

def SetsTimer (timer : Timer) : Instruction → Prop
  | setDelay _ => timer = .delay
  | setSound _ => timer = .sound
  | _ => False

def SetsIndex (d : Dialect) : Instruction → Prop
  | setIndex _ | addIndex _ | setGlyph _ => True
  | store _ | load _ => d.advanceIndex = true
  | _ => False

def SetsRegister (d : Dialect) (k : Register) : Instruction → Prop
  | setByte x _ | addByte x _ | copy x _ | random x _ | readDelay x | awaitKey x => k = x
  | or x _ | and x _ | xor x _ => k = x ∨ d.clearFlag = true ∧ k = Registers.flag
  | add x _ | sub x _ | shiftRight x _ | subFrom x _ | shiftLeft x _ => k = x ∨ k = Registers.flag
  | draw _ _ _ => k = Registers.flag
  | load x => k ≤ x
  | _ => False

def GoesTo (pc next : Int) : Instruction → Prop
  | jump _ | call _ | jumpOffset _ | ret => True
  | skipEqByte _ _ | skipNeByte _ _ | skipEq _ _ | skipNe _ _ | skipHeld _ | skipFree _ =>
    next = pc + 2 ∨ next = pc + 4
  | awaitKey _ => next = pc ∨ next = pc + 2
  | _ => next = pc + 2

def AsksKeys : Instruction → Prop
  | skipHeld _ | skipFree _ | awaitKey _ => True
  | _ => False

end Instruction

namespace Machine

/-- Did a machine change by no more than an instruction may change? The word in progress and its address are the
    instruction's own. -/
structure Footprint (i : Instruction) (m n : Machine) : Prop where
  memory : ∀ a, n.memory.byteAt a ≠ m.memory.byteAt a → i.StoresTo m.index a
  size : n.memory.size = m.memory.size
  screen : n.screen = m.screen ∨
    i.Draws ∧ ∃ plane dirty, n.screen = { m.screen with plane := plane, dirty := dirty }
  stack : i.MovesStack m.pc m.stack.addresses n.stack.addresses
  limit : n.stack.limit = m.stack.limit
  timers : ∀ timer : Timer, timer.read n ≠ timer.read m → i.SetsTimer timer
  index : n.index ≠ m.index → i.SetsIndex m.dialect
  registers : ∀ k, n.v.get k ≠ m.v.get k → i.SetsRegister m.dialect k
  pc : i.GoesTo m.pc n.pc
  dialect : n.dialect = m.dialect
  traced : n.traced = m.traced
  origin : n.origin = m.pc
  opcode : n.opcode = i.encode

namespace Footprint

variable {i : Instruction} {m n : Machine}

/-- Taking in a word, moving the stack and going on somewhere is inside the footprint of an instruction that
    may do so. -/
theorem moved {stack : CallStack} {pc : Int} (moves : i.MovesStack m.pc m.stack.addresses stack.addresses)
    (limit : stack.limit = m.stack.limit) (goes : i.GoesTo m.pc pc) :
    Footprint i m { m.fetched i.encode with stack := stack, pc := pc } where
  memory a changed := absurd rfl changed
  size := rfl
  screen := .inl rfl
  stack := moves
  limit := limit
  timers timer changed := absurd (by cases timer <;> rfl) changed
  index changed := absurd rfl changed
  registers k changed := absurd rfl changed
  pc := goes
  dialect := rfl
  traced := rfl
  origin := rfl
  opcode := rfl

theorem fetched (m : Machine) (stays : i.MovesStack m.pc m.stack.addresses m.stack.addresses)
    (goes : i.GoesTo m.pc (m.pc + 2)) : Footprint i m (m.fetched i.encode) :=
  moved stays rfl goes

theorem skipIf (inside : Footprint i m n) (behind : i.GoesTo m.pc (n.pc + 2)) (condition : Bool) :
    Footprint i m (n.skipIf condition) := by
  unfold Machine.skipIf
  split
  · exact { inside with pc := behind }
  · exact inside

theorem registers_set (inside : Footprint i m n) {x : Register} (sets : i.SetsRegister m.dialect x) (b : UInt8) :
    ∀ k, (n.v.set x b).get k ≠ m.v.get k → i.SetsRegister m.dialect k := by
  intro k changed
  rw [Registers.get_set] at changed
  by_cases same : x = k
  · rw [← same]
    exact sets
  · rw [if_neg same] at changed
    exact inside.registers k changed

theorem setRegister (inside : Footprint i m n) {x : Register} (sets : i.SetsRegister m.dialect x) (b : UInt8) :
    Footprint i m (n.setRegister x b) :=
  { inside with registers := inside.registers_set sets b }

theorem setFlagged (inside : Footprint i m n) {x : Register} (sets : i.SetsRegister m.dialect x)
    (flags : i.SetsRegister m.dialect Registers.flag) (b : UInt8) (flagged : Bool) :
    Footprint i m (n.setFlagged x b flagged) :=
  (inside.setRegister sets b).setRegister flags (if flagged then 1 else 0)

theorem setLogic (inside : Footprint i m n) {x : Register} (sets : i.SetsRegister m.dialect x)
    (flags : m.dialect.clearFlag = true → i.SetsRegister m.dialect Registers.flag) (b : UInt8) :
    Footprint i m (n.setLogic x b) := by
  unfold Machine.setLogic
  split
  next clears => exact inside.setFlagged sets (flags (inside.dialect ▸ clears)) b false
  next => exact inside.setRegister sets b

theorem advanced (inside : Footprint i m n) (sets : m.dialect.advanceIndex = true → i.SetsIndex m.dialect)
    (x : Register) : Footprint i m (n.advanced x) := by
  unfold Machine.advanced
  split
  next advances => exact { inside with index := fun _ => sets (inside.dialect ▸ advances) }
  next => exact inside

/-- A block that is stored changes the addresses of the block and no others. -/
theorem withBlock {bank : Memory} {block : List UInt8} (inside : Footprint i m n)
    (written : n.memory.writeBlock m.index block = .ok bank)
    (stores : ∀ a, m.index ≤ a → a < m.index + block.length → i.StoresTo m.index a) :
    Footprint i m { n with memory := bank } := by
  refine { inside with size := (Memory.size_of_writeBlock written).trans inside.size, memory := ?_ }
  intro a changed
  by_cases reached : m.index ≤ a ∧ a < m.index + block.length
  · exact stores a reached.1 reached.2
  · rw [Memory.byteAt_of_writeBlock written, if_neg reached] at changed
    exact inside.memory a changed

theorem load (inside : Footprint i m n) (block : List UInt8)
    (sets : ∀ k : Register, k.val < block.length → i.SetsRegister m.dialect k) :
    Footprint i m { n with v := n.v.load block } := by
  refine { inside with registers := ?_ }
  intro k changed
  by_cases reached : k.val < block.length
  · exact sets k reached
  · have kept : block.getD k.val (n.v.get k) = n.v.get k := by
      rw [List.getD_eq_getElem?_getD, List.getElem?_eq_none (Nat.le_of_not_lt reached), Option.getD_none]
    rw [Registers.get_load, kept] at changed
    exact inside.registers k changed

theorem drawPoints (inside : Footprint i m n) (draws : i.Draws)
    (flags : i.SetsRegister m.dialect Registers.flag) (points : List (Int × Int)) :
    Footprint i m (n.drawPoints points).machine := by
  obtain ⟨plane, dirty, flipped⟩ := n.screen.flipAll_frame points
  have picture : ∃ plane dirty, n.screen = { m.screen with plane := plane, dirty := dirty } := by
    rcases inside.screen with same | ⟨_, drawn⟩
    · exact ⟨_, _, same⟩
    · exact drawn
  obtain ⟨_, _, same⟩ := picture
  unfold Machine.drawPoints
  rcases flips : n.screen.flipAll points with ⟨screen, hit, fault⟩
  rw [flips] at flipped
  refine { inside with screen := .inr ⟨draws, plane, dirty || fault.isNone, ?_⟩, registers := ?_ }
  · show { screen with dirty := screen.dirty || fault.isNone } = _
    rw [show screen = _ from flipped, same]
  · exact inside.registers_set flags _

end Footprint

/-! ## Effects -/

section

variable {m n : Machine} {i : Instruction} {keys : Keys} {chance : UInt8}

theorem footprint_drawSprite (inside : Footprint i m n) (draws : i.Draws)
    (flags : i.SetsRegister m.dialect Registers.flag) (x y : Register) (rows : Nat) :
    Footprint i m (n.drawSprite x y rows).machine := by
  unfold drawSprite
  split
  · exact inside
  · split
    · exact inside
    · exact inside.drawPoints draws flags _

theorem footprint_call {nnn : Address} (done : ((m.fetched (Instruction.call nnn).encode).execute keys chance
      (.call nnn)).fault = none) :
    Footprint (.call nnn) m ((m.fetched (Instruction.call nnn).encode).execute keys chance (.call nnn)).machine := by
  obtain ⟨stack, pushed, ran⟩ := Effect.ok_of_check done
  unfold CallStack.push at pushed
  split at pushed <;> cases pushed
  show Footprint (.call nnn) m (Effect.check _ _ _).machine
  rw [ran]
  exact .moved rfl rfl trivial

theorem footprint_ret (done : ((m.fetched Instruction.ret.encode).execute keys chance .ret).fault = none) :
    Footprint .ret m ((m.fetched Instruction.ret.encode).execute keys chance .ret).machine := by
  obtain ⟨⟨a, stack⟩, popped, ran⟩ := Effect.ok_of_check done
  unfold CallStack.pop at popped
  split at popped <;> cases popped
  next held =>
    show Footprint .ret m (Effect.check _ _ _).machine
    rw [ran]
    exact .moved ⟨a, held⟩ rfl trivial

/-- An effect that is carried out stays inside the footprint of its instruction. -/
theorem footprint_execute (m : Machine) (keys : Keys) (chance : UInt8) {i : Instruction}
    (done : ((m.fetched i.encode).execute keys chance i).fault = none) :
    Footprint i m ((m.fetched i.encode).execute keys chance i).machine := by
  have taken := Footprint.fetched (i := i) m
  cases i with
  | ret => exact footprint_ret done
  | call nnn => exact footprint_call done
  | clearScreen => exact { taken rfl rfl with screen := .inr ⟨trivial, _, _, rfl⟩ }
  | jump nnn | jumpOffset nnn => exact .moved rfl rfl trivial
  | skipEqByte | skipNeByte | skipEq | skipNe | skipHeld | skipFree =>
    exact (taken rfl (.inl rfl)).skipIf (.inr (by simp only [fetched]; omega)) _
  | setByte x | addByte x | copy x | random x => exact (taken rfl rfl).setRegister rfl _
  | or x | and x | xor x => exact (taken rfl rfl).setLogic (.inl rfl) (fun clears => .inr ⟨clears, rfl⟩) _
  | add x | sub x | shiftRight x | subFrom x | shiftLeft x =>
    exact (taken rfl rfl).setFlagged (.inl rfl) (.inr rfl) _ _
  | setIndex | addIndex | setGlyph => exact { taken rfl rfl with index := fun _ => trivial }
  | draw x y n => exact footprint_drawSprite (taken rfl rfl) trivial rfl x y n.val
  | readDelay x =>
    simp only [execute] at done ⊢
    split at done
    next byte =>
      rw [if_pos byte]
      exact (taken rfl rfl).setRegister rfl _
    next => cases done
  | awaitKey x =>
    simp only [execute]
    split
    next => exact { taken rfl (.inr rfl) with pc := .inl (by simp only [Effect.done, fetched]; omega) }
    next k _ => exact (taken rfl (.inr rfl)).setRegister rfl _
  | setDelay x =>
    refine { taken rfl rfl with timers := fun timer changed => ?_ }
    cases timer with
    | delay => rfl
    | sound => exact absurd rfl changed
  | setSound x =>
    refine { taken rfl rfl with timers := fun timer changed => ?_ }
    cases timer with
    | delay => exact absurd rfl changed
    | sound => rfl
  | storeDecimal x =>
    obtain ⟨bank, written, ran⟩ := Effect.ok_of_check done
    show Footprint _ m (Effect.check _ _ _).machine
    rw [ran]
    exact (taken rfl rfl).withBlock written (fun a low high => ⟨low, by simp [decimal] at high; omega⟩)
  | store x =>
    obtain ⟨bank, written, ran⟩ := Effect.ok_of_check done
    show Footprint _ m (Effect.check _ _ _).machine
    rw [ran]
    refine ((taken rfl rfl).withBlock written fun a low high => ⟨low, ?_⟩).advanced id x
    simp only [length_upTo] at high
    omega
  | load x =>
    obtain ⟨block, read, ran⟩ := Effect.ok_of_check done
    show Footprint _ m (Effect.check _ _ _).machine
    rw [ran]
    have length : block.length = x.val + 1 := Memory.length_of_readBlock read
    refine ((taken rfl rfl).load block fun k reached => ?_).advanced id x
    show k.val ≤ x.val
    omega

theorem execute_of_noKeys (noKeys : ¬i.AsksKeys) (others : Keys) :
    m.execute others chance i = m.execute keys chance i := by
  cases i with
  | skipHeld | skipFree | awaitKey => exact absurd trivial noKeys
  | _ => rfl

theorem execute_of_noChance (noChance : ∀ x kk, i ≠ .random x kk) (other : UInt8) :
    m.execute keys other i = m.execute keys chance i := by
  cases i with
  | random x kk => exact absurd rfl (noChance x kk)
  | _ => rfl

theorem drawsChance_iff : i.drawsChance = true ↔ ∃ x kk, i = .random x kk := by
  cases i <;> simp [Instruction.drawsChance]

/-! ## Cycles -/

theorem at_of_done (done : (m.cycle keys chance).fault = none) : ∃ i, m.At i := by
  by_cases held : m.memory.Holds m.pc 2
  · cases decoded : Instruction.decode? m.here with
    | none =>
      rw [cycle_of_none held decoded] at done
      cases done
    | some i => exact ⟨i, at_of_decode? held decoded⟩
  · rw [cycle_of_outside held] at done
    cases done

theorem footprint_cycle (here : m.At i) (done : (m.cycle keys chance).fault = none) :
    Footprint i m (m.cycle keys chance).machine := by
  rw [cycle_at here] at done ⊢
  exact footprint_execute m keys chance done

end

/-- A cycle that is carried out changes no more of a machine than its instruction may change, on every machine
    and in every dialect. Only the instruction that asks for chance reads the random byte, and then an emulator
    uses up one byte of its tape. The keys are given to a cycle and not given back, and only three instructions
    ask for them. -/
theorem cycle_keeps_footprint {m : Machine} {i : Instruction} {keys : Keys} {chance : UInt8} (here : m.At i)
    (done : (m.cycle keys chance).fault = none) :
    let c := m.cycle keys chance
    Footprint i m c.machine ∧
    (c.drew = true ↔ ∃ x kk, i = .random x kk) ∧
    ((∀ x kk, i ≠ .random x kk) → ∀ other, m.cycle keys other = c) ∧
    (¬i.AsksKeys → ∀ others, m.cycle others chance = c) ∧
    ∀ (e : Emulator) (due : List Activity) (bytes : Tape UInt8),
      e.machine = m → .cpu ∈ due → bytes.head = chance →
        (e.runCpu due keys bytes).emulator.machine = c.machine ∧
          ((∃ x kk, i = .random x kk) → (e.runCpu due keys bytes).random = bytes.tail) ∧
          ((∀ x kk, i ≠ .random x kk) → (e.runCpu due keys bytes).random = bytes) := by
  intro c
  have ran : c = (m.fetched i.encode).perform keys chance i := cycle_at here
  have drew : c.drew = i.drawsChance := by rw [ran]; rfl
  refine ⟨footprint_cycle here done, drew ▸ drawsChance_iff, ?_, ?_, ?_⟩
  · intro noChance other
    rw [ran, cycle_at here, perform, perform, execute_of_noChance noChance]
  · intro noKeys others
    rw [ran, cycle_at here, perform, perform, execute_of_noKeys noKeys]
  · rintro e due bytes rfl ticks rfl
    have work : e.runCpu due keys bytes =
        ⟨{ e with machine := c.machine, cycles := e.cycles + 1, instructions := e.instructions + 1 },
          if c.drew then bytes.tail else bytes, [], c.line, none⟩ := by
      simp only [Emulator.runCpu, if_pos ticks, done, c]
    rw [work]
    refine ⟨rfl, fun draws => if_pos (drew ▸ drawsChance_iff.mpr draws), fun never => if_neg ?_⟩
    intro draws
    obtain ⟨x, kk, same⟩ := drawsChance_iff.mp (drew ▸ draws)
    exact never x kk same

/-- A store over its own instruction. -/
theorem cycle_keeps_footprint_of_a_store :
    let m := holding [0xF1, 0x55, 0xAA, 0xBB]
    let c := m.cycle Keys.none 0
    m.At (.store 1) ∧ c.fault = none ∧ c.machine.memory.byteAt 0 ≠ m.memory.byteAt 0 ∧
      c.machine.memory.byteAt 2 = 0xAA ∧ c.machine.index = 0 ∧ c.machine.pc = 2 := by
  intro m c
  have here : m.At (.store 1) := ⟨by decide, by decide⟩
  have done : c.fault = none := by decide
  have facts : Machine.Footprint (.store 1) m c.machine := (cycle_keeps_footprint here done).1
  refine ⟨here, done, by decide, ?_, ?_, facts.pc⟩
  · apply Decidable.byContradiction
    intro changed
    exact absurd (facts.memory 2 changed).2 (by decide)
  · apply Decidable.byContradiction
    intro changed
    exact Bool.false_ne_true (facts.index changed)

end Machine

end Chip8
