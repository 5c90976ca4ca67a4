/-
  Chip8.Proofs.Reachable — the states that a machine can get into, and the bounds that they keep.

  The machine that runs programs is booted, runs cycles, counts its timers down, is reset and hands
  out frames, in any order and any number of times; a cycle that ended in a fault does not end the
  run. `InRange` holds of every state on the way. Within it the counter is at most 0xFFF + 0xFF, the
  farthest jump with an offset, and a cycle runs an effect only with the counter behind a word of
  memory, which is what keeps the returns and the skips in bounds. The main loop does nothing else to
  its machine (`Emulator.sound_run`).
-/
import Chip8.Proofs.Dispatch
import Chip8.Emulator
import Chip8.Session

namespace Chip8.Machine

/-! ## Runs -/

inductive Action where
  | boot
  | tick (keys : Keys) (chance : UInt8)
  | countDown
  | reset
  | frame

/-- The machine after an action, with a program to boot from. A fault leaves what it left. -/
def act (rom : List UInt8) (m : Machine) : Action → Machine
  | .boot => (Emulator.bootMachine m rom).1
  | .tick keys chance => (m.cycle keys chance).machine
  | .countDown => m.countDown
  | .reset => m.reset
  | .frame => { m with screen := m.screen.frame.1 }

def acts (rom : List UInt8) (m : Machine) (actions : List Action) : Machine := actions.foldl (act rom) m

theorem acts_cons (rom : List UInt8) (m : Machine) (a : Action) (rest : List Action) :
    m.acts rom (a :: rest) = (m.act rom a).acts rom rest := rfl

/-- The states of the machine that runs programs, in any dialect. -/
inductive Reachable (rom : List UInt8) : Machine → Prop
  | start (dialect : Dialect) (wrapping traced : Bool) : Reachable rom (.standard dialect wrapping traced)
  | act {m : Machine} (a : Action) : Reachable rom m → Reachable rom (m.act rom a)

/-! ## Bounds -/

structure InRange (m : Machine) : Prop where
  memory : m.memory.size = 0x1000
  screen : m.screen.Shaped 64 32
  binary : m.screen.Binary
  index : 0 ≤ m.index ∧ m.index ≤ 0xFFFF
  delay : 0 ≤ m.delay ∧ m.delay ≤ 0xFF
  sound : 0 ≤ m.sound ∧ m.sound ≤ 0xFF
  pc : 0 ≤ m.pc ∧ m.pc ≤ 0x10FE
  limit : m.stack.limit = 16
  depth : m.stack.depth ≤ 16
  returns : ∀ a ∈ m.stack.addresses, 2 ≤ a ∧ a ≤ 0x1000

namespace InRange

variable {m : Machine} {keys : Keys} {chance : UInt8}

theorem of_reset (memory : m.memory.size = 0x1000) (screen : m.screen.Shaped 64 32) (limit : m.stack.limit = 16) :
    m.reset.InRange where
  memory := memory
  screen := Screen.clear_shaped screen
  binary := m.screen.clear_binary
  index := show (0 : Int) ≤ 0 ∧ (0 : Int) ≤ 0xFFFF by decide
  delay := show (0 : Int) ≤ 0 ∧ (0 : Int) ≤ 0xFF by decide
  sound := show (0 : Int) ≤ 0 ∧ (0 : Int) ≤ 0xFF by decide
  pc := show (0 : Int) ≤ 0x200 ∧ (0x200 : Int) ≤ 0x10FE by decide
  limit := limit
  depth := Nat.zero_le 16
  returns := fun a mem => absurd mem List.not_mem_nil

theorem reset (r : m.InRange) : m.reset.InRange := of_reset r.memory r.screen r.limit

theorem standard (dialect : Dialect) (wrapping traced : Bool) : (Machine.standard dialect wrapping traced).InRange :=
  of_reset (Memory.size_zeros 0x1000) (Screen.blank_shaped 64 32 wrapping) rfl

theorem countDown (r : m.InRange) : m.countDown.InRange := by
  have delay := r.delay
  have sound := r.sound
  refine { r with delay := ?_, sound := ?_ }
  · simp only [Machine.countDown]
    split <;> omega
  · simp only [Machine.countDown]
    split <;> omega

theorem frame (r : m.InRange) : InRange { m with screen := m.screen.frame.1 } :=
  { r with screen := Screen.frame_shaped r.screen, binary := r.binary }

theorem withMemory (r : m.InRange) {bank : Memory} (size : bank.size = m.memory.size) :
    InRange { m with memory := bank } :=
  { r with memory := size.trans r.memory }

/-- A program that does not fit leaves memory with the font alone, and of the same size. -/
theorem loadProgram (r : m.InRange) (rom : List UInt8) : (Emulator.loadProgram m rom).1.InRange := by
  have cleared := m.memory.size_cleared
  unfold Emulator.loadProgram
  simp only
  split
  · exact r.withMemory cleared
  · next bank font =>
    have sized := (Memory.size_of_writeBlock font).trans cleared
    split
    · exact r.withMemory sized
    · next full program => exact r.withMemory ((Memory.size_of_writeBlock program).trans sized)

theorem boot (r : m.InRange) (rom : List UInt8) : (Emulator.bootMachine m rom).1.InRange := by
  have loaded := r.loadProgram rom
  unfold Emulator.bootMachine
  split
  · next result =>
    rw [result] at loaded
    exact loaded
  · next result =>
    rw [result] at loaded
    exact loaded.reset

/-! ## Effects -/

theorem withPc (r : m.InRange) {pc : Int} (low : 0 ≤ pc) (high : pc ≤ 0x10FE) : InRange { m with pc := pc } :=
  { r with pc := ⟨low, high⟩ }

theorem withRegisters (r : m.InRange) (v : Registers) : InRange { m with v := v } := { r with }

theorem withIndex (r : m.InRange) {index : Int} (low : 0 ≤ index) (high : index ≤ 0xFFFF) :
    InRange { m with index := index } :=
  { r with index := ⟨low, high⟩ }

theorem fetched (r : m.InRange) (held : m.memory.Holds m.pc 2) (word : Nat) :
    (m.fetched word).InRange ∧ 2 ≤ (m.fetched word).pc ∧ (m.fetched word).pc ≤ 0x1000 := by
  have low := held.1
  have high := held.2
  have size := r.memory
  have behind : 2 ≤ m.pc + 2 ∧ m.pc + 2 ≤ 0x1000 := by omega
  exact ⟨{ r with pc := ⟨show 0 ≤ m.pc + 2 by omega, show m.pc + 2 ≤ 0x10FE by omega⟩ }, behind⟩

theorem skipIf (r : m.InRange) (behind : 2 ≤ m.pc ∧ m.pc ≤ 0x1000) (condition : Bool) :
    (m.skipIf condition).InRange := by
  unfold Machine.skipIf
  split
  · exact r.withPc (by omega) (by omega)
  · exact r

theorem setLogic (r : m.InRange) (x : Register) (b : UInt8) : (m.setLogic x b).InRange := by
  unfold Machine.setLogic
  split
  · exact r.withRegisters _
  · exact r.withRegisters _

theorem advanced (r : m.InRange) (x : Register) : (m.advanced x).InRange := by
  unfold Machine.advanced
  split
  · exact r.withIndex (by omega) (by omega)
  · exact r

/-- A checked part of an effect leaves the machine as it was, or goes on. -/
theorem check {α : Type} (r : m.InRange) {result : Except Fault α} {next : α → Effect}
    (goes : ∀ a, result = .ok a → (next a).machine.InRange) : (Effect.check m result next).machine.InRange := by
  cases result with
  | error f => exact r
  | ok a => exact goes a rfl

theorem ret (r : m.InRange) : (m.execute keys chance .ret).machine.InRange := by
  refine r.check fun (address, stack) popped => ?_
  unfold CallStack.pop at popped
  split at popped
  · cases popped
  · next _ rest addresses =>
    cases popped
    have returns := r.returns
    have depth := r.depth
    rw [addresses] at returns
    simp only [CallStack.depth, addresses, List.length_cons] at depth
    have bounds := returns address List.mem_cons_self
    exact { r with
      pc := ⟨show 0 ≤ address by omega, show address ≤ 0x10FE by omega⟩
      depth := show rest.length ≤ 16 by omega
      returns := fun a mem => returns a (List.mem_cons_of_mem _ mem) }

theorem call (r : m.InRange) (behind : 2 ≤ m.pc ∧ m.pc ≤ 0x1000) (nnn : Fin 0x1000) :
    (m.execute keys chance (.call nnn)).machine.InRange := by
  refine r.check fun stack pushed => ?_
  unfold CallStack.push at pushed
  split at pushed
  · next room =>
    cases pushed
    have limit := r.limit
    exact { r with
      pc := ⟨show (0 : Int) ≤ nnn.val by omega, show (nnn.val : Int) ≤ 0x10FE by omega⟩
      limit := limit
      depth := show m.stack.depth + 1 ≤ 16 by omega
      returns := List.forall_mem_cons.mpr ⟨behind, r.returns⟩ }
  · cases pushed

theorem draw (r : m.InRange) (x y : Register) (n : Nat) : (m.drawSprite x y n).machine.InRange := by
  rw [drawSprite_eq r.screen (by decide) (by decide)]
  split
  · have shaped := Screen.flipAll_shaped r.screen (m.spritePoints 64 32 x y n)
    exact { r with
      screen := ⟨shaped.width, shaped.height, shaped.size⟩
      binary := Screen.flipAll_binary r.binary _ }
  · exact r

/-- Every effect keeps the bounds, carried out or not. -/
theorem execute (r : m.InRange) (behind : 2 ≤ m.pc ∧ m.pc ≤ 0x1000) (i : Instruction) :
    (m.execute keys chance i).machine.InRange := by
  cases i with
  | clearScreen => exact { r with screen := Screen.clear_shaped r.screen, binary := m.screen.clear_binary }
  | ret => exact r.ret
  | jump nnn => exact r.withPc (by omega) (by omega)
  | call nnn => exact r.call behind nnn
  | skipEqByte x kk | skipNeByte x kk | skipEq x y | skipNe x y | skipHeld x | skipFree x => exact r.skipIf behind _
  | or x y | and x y | xor x y => exact r.setLogic x _
  | setIndex nnn => exact r.withIndex (by omega) (by omega)
  | jumpOffset nnn =>
    have offset := (m.v.get Registers.offset).toNat_lt
    exact r.withPc (by omega) (by omega)
  | draw x y n => exact r.draw x y n
  | readDelay x =>
    simp only [Machine.execute]
    split
    · exact r.withRegisters _
    · exact r
  | awaitKey x =>
    -- Waiting winds the counter back to the instruction, which is where the fetch found it.
    simp only [Machine.execute]
    split
    · exact r.withPc (by omega) (by omega)
    · exact r.withRegisters _
  | setDelay x =>
    have byte := (m.v.get x).toNat_lt
    exact { r with delay := by constructor <;> simp only [Machine.execute, Effect.done] <;> omega }
  | setSound x =>
    have byte := (m.v.get x).toNat_lt
    exact { r with sound := by constructor <;> simp only [Machine.execute, Effect.done] <;> omega }
  | addIndex x => exact r.withIndex (by omega) (by omega)
  | setGlyph x =>
    have byte := (m.v.get x).toNat_lt
    exact r.withIndex (by simp only [Layout.fontStart, Layout.glyphSize]; omega)
      (by simp only [Layout.fontStart, Layout.glyphSize]; omega)
  | storeDecimal x => exact r.check fun bank written => r.withMemory (Memory.size_of_writeBlock written)
  | store x => exact r.check fun bank written => (r.withMemory (Memory.size_of_writeBlock written)).advanced x
  | load x => exact r.check fun block read => (r.withRegisters _).advanced x
  | _ => exact r.withRegisters _

/-! ## Cycles -/

theorem settles (r : m.InRange) (keys : Keys) (chance : UInt8) (i : Instruction) : m.Settles keys chance i :=
  execute_cases r.screen (by decide) (by decide) r.index.1 ⟨r.delay.1, Int.lt_of_le_of_lt r.delay.2 (by decide)⟩ i

theorem cycle (r : m.InRange) : (m.cycle keys chance).machine.InRange := by
  by_cases held : m.memory.Holds m.pc 2
  · obtain ⟨taken, behind⟩ := r.fetched held m.here
    cases decoded : Instruction.decode? m.here with
    | none =>
      rw [cycle_of_none held decoded]
      exact taken
    | some i =>
      rw [cycle_of_some held decoded]
      exact taken.execute behind i
  · rw [cycle_of_outside held]
    exact { r with }

end InRange

def IsProgramFault (f : Fault) : Prop :=
  (∃ a, f = .outOfRange a) ∨ (∃ word a, f = .notInstruction word a) ∨ f = .stackOverflow 16 ∨ f = .stackUnderflow

section

variable {m : Machine} {keys : Keys} {chance : UInt8} {f : Fault}

theorem Refuses.isProgramFault {i : Instruction} (limit : m.stack.limit = 16) (refused : m.Refuses i f) :
    IsProgramFault f := by
  cases refused with
  | ret => exact .inr (.inr (.inr rfl))
  | call => exact .inr (.inr (.inl (by rw [limit])))
  | draw | storeDecimal | store | load => exact .inl ⟨_, rfl⟩

theorem InRange.fault_of_cycle (r : m.InRange) (faults : (m.cycle keys chance).fault = some f) : IsProgramFault f := by
  by_cases held : m.memory.Holds m.pc 2
  · cases decoded : Instruction.decode? m.here with
    | none =>
      rw [cycle_of_none held decoded] at faults
      cases faults
      exact .inr (.inl ⟨_, _, rfl⟩)
    | some i =>
      rw [cycle_of_some held decoded] at faults
      obtain ⟨taken, -⟩ := r.fetched held m.here
      rcases taken.settles keys chance i with ⟨g, refused, effect⟩ | ⟨-, done⟩
      · simp only [perform, effect] at faults
        cases faults
        exact refused.isProgramFault taken.limit
      · simp only [perform, done] at faults
        cases faults
  · rw [cycle_of_outside held] at faults
    cases faults
    exact .inl ⟨_, rfl⟩

theorem IsProgramFault.reported (possible : IsProgramFault f) : f.isReported = true := by
  rcases possible with ⟨a, rfl⟩ | ⟨word, a, rfl⟩ | rfl | rfl <;> rfl

end

theorem InRange.act {m : Machine} (r : m.InRange) (rom : List UInt8) (a : Action) : (m.act rom a).InRange := by
  cases a with
  | boot => exact r.boot rom
  | tick keys chance => exact r.cycle
  | countDown => exact r.countDown
  | reset => exact r.reset
  | frame => exact r.frame

theorem Reachable.inRange {rom : List UInt8} {m : Machine} (reached : Reachable rom m) : m.InRange := by
  induction reached with
  | start dialect wrapping traced => exact InRange.standard dialect wrapping traced
  | act a _ r => exact r.act rom a

/-- Every state of every run is in range, with any program, and a cycle ends only in faults of the
    program itself, of which the user is told. -/
theorem run_stays_in_range {rom : List UInt8} {m : Machine} (reached : Reachable rom m) :
    m.InRange ∧ (∀ x, (m.v.get x).toNat ≤ 0xFF) ∧
    ∀ keys chance f, (m.cycle keys chance).fault = some f →
      IsProgramFault f ∧
      Session.troubleOf (m.cycle keys chance).machine (.crash f) =
        .refused ((m.cycle keys chance).machine.faultReport f) := by
  have r := reached.inRange
  refine ⟨r, fun x => ?_, fun keys chance f faults => ?_⟩
  · have := (m.v.get x).toNat_lt
    omega
  · have possible := r.fault_of_cycle faults
    exact ⟨possible, if_pos possible.reported⟩

/-- The machine after it booted an empty program and ran into its first word. -/
theorem run_stays_in_range_after_a_fault :
    let m := ((Machine.standard {} true false).act [] .boot).act [] (.tick Keys.none 0)
    m.InRange :=
  (run_stays_in_range (.act (.tick Keys.none 0) (.act .boot (.start {} true false)))).1

end Chip8.Machine

namespace Chip8.Emulator

/-! ## The main loop -/

def Sound (e : Emulator) : Prop := Machine.Reachable e.rom e.machine

theorem sound_setBuzzer {e : Emulator} (sound : e.Sound) (on : Bool) : (e.setBuzzer on).1.Sound := by
  unfold setBuzzer
  split <;> exact sound

theorem sound_boot {e : Emulator} (sound : e.Sound) : e.boot.1.Sound := by
  have booted : Machine.Reachable e.rom (bootMachine e.machine e.rom).1 := .act .boot sound
  unfold boot
  rcases result : bootMachine e.machine e.rom with ⟨m, _ | f⟩
  · rw [result] at booted
    exact sound_setBuzzer (e := { e with machine := m }) booted false
  · rw [result] at booted
    exact booted

theorem sound_togglePause {e : Emulator} (sound : e.Sound) (time : Tape Int) : (e.togglePause time).1.Sound := by
  unfold togglePause
  split
  · exact sound
  · exact sound_setBuzzer (e := { e with paused := true }) sound false

theorem sound_respond {e : Emulator} (sound : e.Sound) (time : Tape Int) (event : Option HostEvent) :
    (e.respond time event).1.Sound := by
  unfold respond
  split
  · exact sound_togglePause sound time
  · exact sound_boot sound
  · exact sound

theorem sound_runCpu {e : Emulator} (sound : e.Sound) (due : List Activity) (keys : Keys) (random : Tape UInt8) :
    (e.runCpu due keys random).emulator.Sound := by
  have ticked : Machine.Reachable e.rom (e.machine.cycle keys random.head).machine :=
    .act (.tick keys random.head) sound
  unfold runCpu
  split
  · simp only
    split <;> exact ticked
  · exact sound

theorem sound_runTimers {e : Emulator} (sound : e.Sound) (due : List Activity) : (e.runTimers due).Sound := by
  unfold runTimers
  split
  · exact .act .countDown sound
  · exact sound

theorem sound_runMachine {e : Emulator} (sound : e.Sound) (due : List Activity) (keys : Keys) (random : Tape UInt8) :
    (e.runMachine due keys random).emulator.Sound := by
  have worked := sound_runCpu sound due keys random
  unfold runMachine
  split
  · exact sound
  · simp only
    split
    · exact worked
    · exact sound_setBuzzer (sound_runTimers worked due) _

theorem sound_present {e : Emulator} (sound : e.Sound) : e.present.1.Sound := .act .frame sound

theorem sound_runDisplay {e : Emulator} (sound : e.Sound) (due : List Activity) : (e.runDisplay due).1.Sound := by
  have presented := sound_present sound
  unfold runDisplay
  split
  · exact presented
  · exact sound

theorem sound_runPerformance {e : Emulator} (sound : e.Sound) (due : List Activity) :
    (e.runPerformance due).1.Sound := by
  unfold runPerformance
  split <;> exact sound

/-- A turn of the main loop takes the machine through reachable states only. -/
theorem sound_turn {e : Emulator} (sound : e.Sound) (input : Input) (time : Tape Int) (random : Tape UInt8) :
    (e.turn input time random).emulator.Sound := by
  have responded := sound_respond sound time input.event
  unfold turn
  split
  · exact sound
  · rcases response : e.respond time input.event with ⟨after, later, asked, _ | f⟩
    · rw [response] at responded
      have polled : Sound { after with clocks := after.clocks.polled later.head } := responded
      have worked := sound_runMachine polled (after.clocks.due later.head) input.keys random
      simp only
      split
      · exact worked
      · have shown := sound_runPerformance (sound_runDisplay worked (after.clocks.due later.head))
          (after.clocks.due later.head)
        split <;> exact shown
    · rw [response] at responded
      exact responded

theorem sound_go {fuel : Nat} {inputs : Tape Input} {r : Run} (sound : r.emulator.Sound) :
    (Run.go fuel inputs r).1.emulator.Sound := by
  induction fuel generalizing inputs r with
  | zero => exact sound
  | succ fuel ih =>
    have turned := sound_turn sound inputs.head r.time r.random
    unfold Run.go
    simp only
    split
    · exact turned
    · split
      · exact sound_setBuzzer (sound_present turned) false
      · exact ih turned

/-- However a run ends, its machine is one that the program can reach. -/
theorem sound_run {e : Emulator} (sound : e.Sound) (fuel : Nat) (inputs : Tape Input) (time : Tape Int)
    (random : Tape UInt8) : (e.run fuel inputs time random).1.emulator.Sound := by
  have booted := sound_boot sound
  unfold run
  rcases start : e.boot with ⟨after, calls, _ | f⟩
  · rw [start] at booted
    exact sound_go booted
  · rw [start] at booted
    exact booted

end Chip8.Emulator
