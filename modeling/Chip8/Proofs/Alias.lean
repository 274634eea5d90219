import Chip8.Host.Script
import Chip8.Proofs.Console
import Mathlib.Data.List.Forall2

/-! Addresses that agree modulo the size of memory cannot be told apart: program counter, return
addresses and, where it sets no flag, the index register may be cut to twelve bits at any time.
-/

namespace Chip8

-----------------------------------------------------------------------------------------
-- Addresses of one cell
-----------------------------------------------------------------------------------------

/-- Two addresses select the same cell of memory. -/
def SameCell (left right : UInt16) : Prop :=
  left.toNat % 4096 = right.toNat % 4096

instance (left right : UInt16) : Decidable (SameCell left right) :=
  inferInstanceAs (Decidable (_ = _))

namespace SameCell

theorem refl (address : UInt16) : SameCell address address :=
  rfl

theorem cell {left right : UInt16} (h : SameCell left right)
    : Memory.cell left = Memory.cell right :=
  Fin.ext h

/-- Moving both addresses on by the same amount keeps them on one cell; the sixteen-bit
wrap is a multiple of the memory size.
-/
theorem add {left right : UInt16} (h : SameCell left right) (amount : UInt16)
    : SameCell (left + amount) (right + amount) := by
  simp only [SameCell, UInt16.toNat_add] at *
  omega

theorem sub {left right : UInt16} (h : SameCell left right) (amount : UInt16)
    : SameCell (left - amount) (right - amount) := by
  have small := amount.toNat_lt
  simp only [SameCell, UInt16.toNat_sub] at *
  omega

theorem mod {left right : UInt16} (h : SameCell left right) : left % 4096 = right % 4096 := by
  apply UInt16.toNat_inj.mp
  rw [UInt16.toNat_mod, UInt16.toNat_mod]
  exact h

theorem trans {left middle right : UInt16} (h : SameCell left middle)
    (next : SameCell middle right)
    : SameCell left right :=
  Eq.trans h next

/-- Lists of addresses compose address by address, by induction over the first two. -/
theorem trans_all {left middle right : List UInt16} (h : List.Forall₂ SameCell left middle)
    (next : List.Forall₂ SameCell middle right)
    : List.Forall₂ SameCell left right := by
  induction h generalizing right with
  | nil => exact next
  | cons first _ ih =>
      cases next with
      | cons second rest => exact .cons (first.trans second) (ih rest)

/-- Cutting an address to twelve bits does not move it to another cell. -/
theorem narrow (address : UInt16) : SameCell address (address % 4096) := by
  simp [SameCell]

end SameCell

namespace Memory

theorem read_congr (memory : Memory) {left right : UInt16} (h : SameCell left right)
    : memory.read left = memory.read right := by
  simp only [read, h.cell]

theorem write_congr (memory : Memory) {left right : UInt16} (h : SameCell left right)
    (byte : UInt8)
    : memory.write left byte = memory.write right byte := by
  simp only [write, h.cell]

theorem readRun_congr (memory : Memory) {left right : UInt16} (h : SameCell left right)
    (count : Nat)
    : memory.readRun left count = memory.readRun right count := by
  simp only [readRun, fun offset => memory.read_congr (h.add offset)]

/-- Runs written from one cell on are the same, by induction over their bytes. -/
theorem writeRun_congr (memory : Memory) {left right : UInt16} (h : SameCell left right)
    (bytes : List UInt8)
    : memory.writeRun left bytes = memory.writeRun right bytes := by
  induction bytes generalizing memory left right with
  | nil => rfl
  | cons byte rest ih => rw [writeRun, writeRun, memory.write_congr h, ih _ (h.add 1)]

end Memory

-----------------------------------------------------------------------------------------
-- Machines that differ in address bits that memory does not look at
-----------------------------------------------------------------------------------------

/-- Two machines that agree up to the upper bits of their addresses. The index register has
upper bits that matter as long as adding to it sets the flag.
-/
structure Machine.Aliased (left right : Machine) : Prop where
  memory : left.memory = right.memory
  display : left.display = right.display
  pc : SameCell left.pc right.pc
  index
    : left.index = right.index
      ∨ left.dialect.keepsFlagOnIndexAdd = true ∧ SameCell left.index right.index
  v : left.v = right.v
  stack : List.Forall₂ SameCell left.stack right.stack
  fetched : left.fetched = right.fetched
  delayTimer : left.delayTimer = right.delayTimer
  soundTimer : left.soundTimer = right.soundTimer
  dialect : left.dialect = right.dialect
  random : left.random = right.random

/-- Two turns that nobody can tell apart: the same calls, notes and fault, and machines that
are aliased again.
-/
structure Turn.Alike (left right : Turn) : Prop where
  machine : left.machine.Aliased right.machine
  calls : left.calls = right.calls
  notes : left.notes = right.notes
  fault? : left.fault? = right.fault?

namespace Machine.Aliased

variable {left right : Machine}

theorem sameIndex (h : left.Aliased right) : SameCell left.index right.index := by
  rcases h.index with equal | ⟨_, same⟩
  · rw [equal]
    exact .refl _
  · exact same

/-- Aliases of a machine are aliases of each other's aliases. The index registers stay equal
only if both steps keep them equal; otherwise the shared dialect sets no flag.
-/
theorem trans {left middle right : Machine} (h : left.Aliased middle)
    (next : middle.Aliased right)
    : left.Aliased right where
  memory := h.memory.trans next.memory
  display := h.display.trans next.display
  pc := h.pc.trans next.pc
  index := by
    have same := h.sameIndex.trans next.sameIndex
    rcases h.index with first | ⟨kept, _⟩
    · rcases next.index with second | ⟨kept, _⟩
      · exact .inl (first.trans second)
      · exact .inr ⟨h.dialect ▸ kept, same⟩
    · exact .inr ⟨kept, same⟩
  v := h.v.trans next.v
  stack := SameCell.trans_all h.stack next.stack
  fetched := h.fetched.trans next.fetched
  delayTimer := h.delayTimer.trans next.delayTimer
  soundTimer := h.soundTimer.trans next.soundTimer
  dialect := h.dialect.trans next.dialect
  random := h.random.trans next.random

theorem register (h : left.Aliased right) (x : Nibble) : left.register x = right.register x := by
  rw [Machine.register, Machine.register, h.v]

theorem rule (h : left.Aliased right) (rule : Dialect → Bool)
    : rule left.dialect = rule right.dialect := by
  rw [h.dialect]

theorem lastAddress (h : left.Aliased right) : left.lastAddress = right.lastAddress :=
  (h.pc.sub 2).mod

theorem setRegister (h : left.Aliased right) (x : Nibble) (byte : UInt8)
    : (left.setRegister x byte).Aliased (right.setRegister x byte) :=
  { h with v := congrArg (replaceAt · x byte) h.v }

theorem setRegisters (h : left.Aliased right) {v w : Vector UInt8 16} (equal : v = w)
    : { left with v := v }.Aliased { right with v := w } :=
  { h with v := equal }

theorem setFlag (h : left.Aliased right) (flag : Bool)
    : (left.setFlag flag).Aliased (right.setFlag flag) :=
  h.setRegister .flag flag.toUInt8

theorem moveBy (h : left.Aliased right) (amount : UInt16)
    : { left with pc := left.pc + amount }.Aliased { right with pc := right.pc + amount } :=
  { h with pc := h.pc.add amount }

theorem jump (h : left.Aliased right) (address : UInt16)
    : { left with pc := address }.Aliased { right with pc := address } :=
  { h with pc := .refl address }

theorem setDisplay (h : left.Aliased right) (frame : Frame)
    : { left with display := frame }.Aliased { right with display := frame } :=
  { h with display := rfl }

theorem setIndex (h : left.Aliased right) (address : UInt16)
    : { left with index := address }.Aliased { right with index := address } :=
  { h with index := .inl rfl }

theorem addToIndex (h : left.Aliased right) (amount : UInt16)
    : { left with index := left.index + amount }.Aliased
        { right with index := right.index + amount } := by
  refine { h with index := ?_ }
  rcases h.index with equal | ⟨kept, same⟩
  · exact .inl (congrArg (· + amount) equal)
  · exact .inr ⟨kept, same.add amount⟩

theorem fetch (h : left.Aliased right) : left.fetch.Aliased right.fetch := by
  refine { h with pc := h.pc.add 2, fetched := ?_ }
  simp only [Machine.fetch, h.memory, right.memory.read_congr h.pc,
    right.memory.read_congr (h.pc.add 1)]

theorem skipWhen (h : left.Aliased right) (condition : Bool)
    : (left.skipWhen condition).Aliased (right.skipWhen condition) := by
  cases condition with
  | false => exact h
  | true => exact h.moveBy 2

theorem applyAlu (h : left.Aliased right) (x y : Nibble) (op : AluOp)
    : (left.applyAlu x y op).Aliased (right.applyAlu x y op) := by
  simp only [Machine.applyAlu, h.register, h.rule Dialect.shiftsSecond]
  generalize op.apply (right.register x) (right.register y)
    (if right.dialect.shiftsSecond then right.register y else right.register x) = outcome
  cases outcome with
  | mk result flag? =>
      cases flag? with
      | none => exact h.setRegister x result
      | some flag => exact (h.setRegister x result).setFlag flag

/-- Adding to the index register looks at its upper bits only to set the flag, and where the
flag is set the index registers are equal.
-/
theorem advanceIndex (h : left.Aliased right) (x : Nibble)
    : (left.advanceIndex x).Aliased (right.advanceIndex x) := by
  simp only [Machine.advanceIndex, h.register]
  rcases h.index with equal | ⟨kept, _⟩
  · simp only [equal, h.rule Dialect.keepsFlagOnIndexAdd]
    split
    · exact h.setIndex _
    · exact (h.setIndex _).setFlag _
  · have kept' : right.dialect.keepsFlagOnIndexAdd = true := h.dialect ▸ kept
    simp only [kept, kept', if_true]
    exact h.addToIndex _

theorem drawSprite (h : left.Aliased right) (x y n : Nibble)
    : (left.drawSprite x y n).Aliased (right.drawSprite x y n) := by
  have rows : left.memory.readRun left.index n.val = right.memory.readRun right.index n.val := by
    rw [h.memory, right.memory.readRun_congr h.sameIndex]
  simp only [Machine.drawSprite, rows, h.display, h.register]
  exact (h.setDisplay _).setFlag _

theorem settleIndex (h : left.Aliased right) (x : Nibble)
    : (left.settleIndex x).Aliased (right.settleIndex x) := by
  simp only [Machine.settleIndex, h.rule Dialect.advancesIndex]
  split
  · exact h.addToIndex _
  · exact h

theorem writeRun (h : left.Aliased right) (bytes : List UInt8)
    : { left with memory := left.memory.writeRun left.index bytes }.Aliased
        { right with memory := right.memory.writeRun right.index bytes } := by
  refine { h with memory := ?_ }
  simp only [h.memory, right.memory.writeRun_congr h.sameIndex]

theorem storeRegisters (h : left.Aliased right) (x : Nibble)
    : (left.storeRegisters x).Aliased (right.storeRegisters x) := by
  have bytes : x.upTo.map left.register = x.upTo.map right.register :=
    List.map_congr_left fun y _ => h.register y
  simp only [Machine.storeRegisters, bytes]
  exact (h.writeRun _).settleIndex x

theorem loadRegisters (h : left.Aliased right) (x : Nibble)
    : (left.loadRegisters x).Aliased (right.loadRegisters x) := by
  have bytes : left.memory.readRun left.index (x.val + 1)
      = right.memory.readRun right.index (x.val + 1) := by
    rw [h.memory, right.memory.readRun_congr h.sameIndex]
  simp only [Machine.loadRegisters, bytes]
  exact (h.setRegisters (by rw [h.v])).settleIndex x

theorem takeKey (h : left.Aliased right) (x : Nibble) (keys : List Nibble)
    : (left.takeKey x keys).Aliased (right.takeKey x keys) := by
  cases keys with
  | nil => exact { h with pc := h.pc.sub 2 }
  | cons key _ => exact h.setRegister x key.toByte

-----------------------------------------------------------------------------------------
-- Turns of aliased machines
-----------------------------------------------------------------------------------------

theorem silent (h : left.Aliased right)
    : Turn.Alike { machine := left } { machine := right } :=
  ⟨h, rfl, rfl, rfl⟩

theorem publishing (h : left.Aliased right)
    : (Turn.publishing left).Alike (Turn.publishing right) :=
  ⟨h, by rw [Turn.publishing, Turn.publishing, h.display], rfl, rfl⟩

theorem polling (h : left.Aliased right) (report : List UInt8)
    : (Turn.polling report left).Alike (Turn.polling report right) :=
  ⟨h, rfl, rfl, rfl⟩

/-- A return takes the latest addresses of both stacks, which lie on one cell; if there are
none, both report the same address.
-/
theorem execute_ret (h : left.Aliased right) (report : List UInt8)
    : (left.execute .ret report).Alike (right.execute .ret report) := by
  have entries := h.stack
  simp only [Machine.execute]
  generalize left.stack = leftStack at entries
  generalize right.stack = rightStack at entries
  cases entries with
  | nil => exact ⟨h, rfl, rfl, by rw [h.lastAddress]⟩
  | cons first rest => exact silent { h with pc := first, stack := rest }

/-- Every instruction treats aliased machines alike, by cases over the instruction set. -/
theorem execute (h : left.Aliased right) (instruction : Instruction) (report : List UInt8)
    : (left.execute instruction report).Alike (right.execute instruction report) := by
  cases instruction with
  | ret => exact h.execute_ret report
  | clear => exact (h.setDisplay .blank).publishing
  | draw x y n => exact (h.drawSprite x y n).publishing
  | jump nnn => exact (h.jump _).silent
  | call nnn => exact silent { h with pc := .refl _, stack := .cons h.pc h.stack }
  | jumpOffset nnn =>
      simp only [Machine.execute, Machine.offsetRegister, h.register,
        h.rule Dialect.offsetByDigit]
      exact (h.jump _).silent
  | skipEqualByte x nn | skipUnequalByte x nn | skipEqual x y | skipUnequal x y =>
      simp only [Machine.execute, h.register]
      exact (h.skipWhen _).silent
  | setByte x nn => exact (h.setRegister x nn).silent
  | addByte x nn =>
      simp only [Machine.execute, h.register]
      exact (h.setRegister x _).silent
  | alu x y op => exact (h.applyAlu x y op).silent
  | setIndex nnn => exact (h.setIndex _).silent
  | random x nn =>
      simp only [Machine.execute, h.random]
      exact silent { h.setRegister x _ with random := rfl }
  | skipPressed x | skipReleased x =>
      simp only [Machine.execute, h.register]
      exact (h.skipWhen _).polling report
  | awaitKey x => exact (h.takeKey x _).polling report
  | readDelay x =>
      simp only [Machine.execute, h.delayTimer]
      exact (h.setRegister x _).silent
  | setDelay x => exact silent { h with delayTimer := h.register x }
  | setSound x => exact silent { h with soundTimer := h.register x }
  | addIndex x => exact (h.advanceIndex x).silent
  | pointGlyph x =>
      simp only [Machine.execute, h.register]
      exact (h.setIndex _).silent
  | storeDecimal x =>
      simp only [Machine.execute, h.register]
      exact (h.writeRun _).silent
  | store x => exact (h.storeRegisters x).silent
  | load x => exact (h.loadRegisters x).silent

/-- A cycle treats aliased machines alike: they fetch the same word at the same address. -/
theorem cycle (h : left.Aliased right) (report : List UInt8)
    : (left.cycle report).Alike (right.cycle report) := by
  have fetched := h.fetch
  simp only [Machine.cycle, fetched.fetched, fetched.lastAddress]
  cases Instruction.decode? right.fetch.fetched with
  | none => exact ⟨fetched, rfl, rfl, rfl⟩
  | some instruction =>
      have executed := fetched.execute instruction report
      exact { executed with notes := congrArg (_ :: ·) executed.notes }

/-- The timers do not look at an address. -/
theorem countDown (h : left.Aliased right) : left.countDown.Alike right.countDown := by
  simp only [Machine.countDown, Machine.beeping, h.soundTimer, h.delayTimer]
  exact ⟨{ h with delayTimer := rfl, soundTimer := rfl }, rfl, rfl, rfl⟩

/-- A tick treats aliased machines alike if their hosts are in the same state. -/
theorem turn {σ : Type} [Host σ] (h : left.Aliased right) (host : σ) (tick : Tick)
    : ((⟨left, host⟩ : Console σ).turn tick).Alike ((⟨right, host⟩ : Console σ).turn tick) := by
  cases tick with
  | instruction => exact h.cycle _
  | timer => exact h.countDown

end Machine.Aliased

-----------------------------------------------------------------------------------------
-- Runs of machines that are cut to twelve bits as they go
-----------------------------------------------------------------------------------------

/-- The machine with program counter and return addresses cut to twelve bits, and the index
register too where adding to it sets no flag.
-/
def Machine.narrow (machine : Machine) : Machine :=
  { machine with
    pc := machine.pc % 4096
    stack := machine.stack.map (· % 4096)
    index :=
      if machine.dialect.keepsFlagOnIndexAdd then machine.index % 4096 else machine.index }

/-- A narrow machine is an alias of the wide one, register by register. -/
theorem Machine.aliased_narrow (machine : Machine) : machine.Aliased machine.narrow := by
  refine ⟨rfl, rfl, .narrow machine.pc, ?_, rfl, ?_, rfl, rfl, rfl, rfl, rfl⟩
  · cases kept : machine.dialect.keepsFlagOnIndexAdd with
    | false => exact .inl (by simp [narrow, kept])
    | true => exact .inr ⟨rfl, by simpa [narrow, kept] using SameCell.narrow machine.index⟩
  · show List.Forall₂ SameCell machine.stack (machine.stack.map (· % 4096))
    induction machine.stack with
    | nil => exact .nil
    | cons address rest ih => exact .cons (.narrow address) ih

/-- The turn of a design that keeps its machine narrow: it ends by cutting the addresses. -/
def Console.narrowTurn {σ : Type} [Host σ] (console : Console σ) (tick : Tick) : Turn :=
  { console.turn tick with machine := (console.turn tick).machine.narrow }

/-- Cutting the machine of a turn leaves a turn that nobody can tell apart. -/
theorem Machine.Aliased.narrowTurn {σ : Type} [Host σ] {left right : Machine}
    (h : left.Aliased right) (host : σ) (tick : Tick)
    : ((⟨left, host⟩ : Console σ).turn tick).Alike
        ((⟨right, host⟩ : Console σ).narrowTurn tick) :=
  have alike := h.turn host tick
  { alike with machine := alike.machine.trans (aliased_narrow _) }

/-- Designs that treat aliased machines alike at one tick do so along every run against one host.
By induction over the ticks: equal calls leave the two hosts in one state, so the next tick
meets aliased machines again.
-/
theorem Machine.Aliased.turnsBy {σ : Type} [Host σ] {wide other : Console σ → Tick → Turn}
    (alike
      : ∀ {left right : Machine},
          left.Aliased right
          → ∀ host tick, (wide ⟨left, host⟩ tick).Alike (other ⟨right, host⟩ tick))
    {left right : Machine} (h : left.Aliased right) (host : σ) (ticks : List Tick)
    : List.Forall₂ Turn.Alike (Console.turnsBy wide ⟨left, host⟩ ticks)
        (Console.turnsBy other ⟨right, host⟩ ticks) := by
  induction ticks generalizing left right host with
  | nil => exact .nil
  | cons tick rest ih =>
      have head := alike h host tick
      have tail := ih head.machine (Host.receiveAll host (wide ⟨left, host⟩ tick).calls)
      refine .cons head ?_
      simpa only [Console.after, ← head.calls] using tail

/-- Machines that are equal up to address bits above the twelfth answer every finite sequence of
instruction and timer ticks with the same faults and the same calls in the same order, and stay
equal up to those bits; the index register counts whole while adding to it sets the flag. So a
design that cuts its addresses to twelve bits at every tick is indistinguishable from one that
never does.
-/
theorem addresses_count_modulo_memory {σ : Type} [Host σ] (host : σ) (ticks : List Tick)
    : (∀ left right : Machine,
        left.Aliased right
        → List.Forall₂ Turn.Alike ((⟨left, host⟩ : Console σ).turns ticks)
            ((⟨right, host⟩ : Console σ).turns ticks))
      ∧ ∀ machine : Machine,
          List.Forall₂ Turn.Alike ((⟨machine, host⟩ : Console σ).turns ticks)
            ((⟨machine.narrow, host⟩ : Console σ).turnsBy Console.narrowTurn ticks) := by
  constructor
  · intro left right aliased
    exact aliased.turnsBy Machine.Aliased.turn host ticks
  · intro machine
    exact machine.aliased_narrow.turnsBy Machine.Aliased.narrowTurn host ticks

theorem high_addresses_count_modulo_memory
    : Machine.Aliased
          { Machine.boot #[0x23, 0x00] .cosmacVip (.ofSeed 7) with stack := [0x0204] }
          { Machine.boot #[0x23, 0x00] .cosmacVip (.ofSeed 7) with
            pc := 0xF200, index := 0x3000, stack := [0x7204] }
      ∧ List.Forall₂ Turn.Alike
          (Console.turns
            (⟨{ Machine.boot #[0x23, 0x00] .cosmacVip (.ofSeed 7) with stack := [0x0204] },
              Script.holding [0x3]⟩ : Console Script)
            [.instruction, .timer, .instruction])
          (Console.turns
            (⟨{ Machine.boot #[0x23, 0x00] .cosmacVip (.ofSeed 7) with
                pc := 0xF200, index := 0x3000, stack := [0x7204] },
              Script.holding [0x3]⟩ : Console Script)
            [.instruction, .timer, .instruction]) := by
  have aliased
      : Machine.Aliased
          { Machine.boot #[0x23, 0x00] .cosmacVip (.ofSeed 7) with stack := [0x0204] }
          { Machine.boot #[0x23, 0x00] .cosmacVip (.ofSeed 7) with
            pc := 0xF200, index := 0x3000, stack := [0x7204] } :=
    ⟨rfl, rfl, by decide, .inr ⟨rfl, by decide⟩, rfl, .cons (by decide) .nil, rfl, rfl, rfl,
      rfl, rfl⟩
  exact ⟨aliased, (addresses_count_modulo_memory _ _).1 _ _ aliased⟩
end Chip8
