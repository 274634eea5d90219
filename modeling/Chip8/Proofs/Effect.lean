import Chip8.Machine.Cycle

/-! What loading leads to, what a cycle reads, what it tells the host, and how it can end. Every
instruction is looked at once here, so that later modules reason about kinds of instructions and
not about each of them.
-/

namespace Chip8

-----------------------------------------------------------------------------------------
-- Loading
-----------------------------------------------------------------------------------------

namespace Memory

theorem getElem_image (program : Array UInt8) (cell : Fin 4096)
    : (image program).cells[cell] = initial program cell := by
  simp [image]

theorem get_image (program : Array UInt8) (cell : Fin 4096)
    : (image program).cells.get cell = initial program cell :=
  getElem_image program cell

theorem rows_of_glyph (program : Array UInt8) {cell : Fin 4096}
    (h : 0x50 ≤ cell.val ∧ cell.val ≤ 0x9F)
    : Glyph.rows[cell.val - 0x50]? = some (initial program cell) := by
  have within : Glyph.base ≤ cell.val ∧ cell.val < Glyph.limit := by
    simp only [Glyph.base, Glyph.limit, Glyph.height]
    omega
  have place : cell.val - Glyph.base < Glyph.rows.toArray.size := by
    simp only [Glyph.base, Vector.size_toArray]
    omega
  rw [initial, if_pos within, Array.getD_eq_getD_getElem?, Array.getElem?_eq_getElem place,
    Option.getD_some]
  exact Vector.getElem?_eq_getElem place

theorem initial_of_program (program : Array UInt8) {cell : Fin 4096} (h : 0x200 ≤ cell.val)
    : initial program cell = program.getD (cell.val - 0x200) 0 := by
  have beyond : ¬(Glyph.base ≤ cell.val ∧ cell.val < Glyph.limit) := by
    simp only [Glyph.base, Glyph.limit, Glyph.height]
    omega
  have within : programStart ≤ cell.val := h
  rw [initial, if_neg beyond, if_pos within]
  rfl

/-- Below the glyphs, and between them and the program, there are zeros. -/
theorem initial_of_gap (program : Array UInt8) {cell : Fin 4096}
    (h : cell.val < 0x50 ∨ 0x9F < cell.val ∧ cell.val < 0x200)
    : initial program cell = 0 := by
  have apart : ¬(Glyph.base ≤ cell.val ∧ cell.val < Glyph.limit) := by
    simp only [Glyph.base, Glyph.limit, Glyph.height]
    omega
  have before : ¬programStart ≤ cell.val := by
    simp only [programStart]
    omega
  rw [initial, if_neg apart, if_neg before]

end Memory

namespace Machine

/-- A program is loaded exactly if it fits. -/
theorem load_eq_ok_iff {program : Array UInt8} {dialect : Dialect} {random : Generator}
    {machine : Machine}
    : load program dialect random = .ok machine
      ↔ program.size ≤ Memory.capacity ∧ machine = boot program dialect random := by
  rw [load]
  split
  · rename_i fits
    simp [fits, eq_comm]
  · rename_i large
    simp [large]

-----------------------------------------------------------------------------------------
-- Fetching
-----------------------------------------------------------------------------------------

/-- The two bytes at the program counter, each of their addresses reduced to the memory size. -/
def ahead (machine : Machine) : Word where
  high := machine.memory.cells[Fin.ofNat 4096 machine.pc.toNat]
  low := machine.memory.cells[Fin.ofNat 4096 (machine.pc.toNat + 1)]

/-- Fetching reads the two bytes ahead and moves on behind them. The second address wraps at
sixteen bits, which is a multiple of the memory size.
-/
theorem fetch_eq (machine : Machine)
    : machine.fetch
      = { machine with
          fetched := machine.ahead
          pc := UInt16.ofNat ((machine.pc.toNat + 2) % 65536) } := by
  have low : Memory.cell (machine.pc + 1) = Fin.ofNat 4096 (machine.pc.toNat + 1) := by
    apply Fin.ext
    simp only [Memory.cell, UInt16.toNat_add, Fin.ofNat]
    show (machine.pc.toNat + 1) % 65536 % 4096 = _
    omega
  have next : machine.pc + 2 = UInt16.ofNat ((machine.pc.toNat + 2) % 65536) := by
    apply UInt16.toNat_inj.mp
    simp [UInt16.toNat_add]
  simp only [fetch, ahead, Memory.read, low, next]
  rfl

/-- After a fetch, the address reported for the word is the program counter before it, reduced
to twelve bits; moving on and back cancels also where the counter wraps.
-/
theorem lastAddress_fetch (machine : Machine)
    : machine.fetch.lastAddress = UInt16.ofNat (machine.pc.toNat % 4096) := by
  have back : machine.pc + 2 - 2 = machine.pc := by simp
  apply UInt16.toNat_inj.mp
  simp only [lastAddress, fetch, back, UInt16.toNat_mod, UInt16.toNat_ofNat']
  show machine.pc.toNat % 4096 = _
  omega

-----------------------------------------------------------------------------------------
-- What the steps of an instruction leave alone
-----------------------------------------------------------------------------------------

theorem applyAlu_eq (machine : Machine) (x y : Nibble) (op : AluOp)
    : machine.applyAlu x y op = { machine with v := (machine.applyAlu x y op).v } := by
  simp only [applyAlu]
  split <;> rfl

theorem advanceIndex_eq (machine : Machine) (x : Nibble)
    : machine.advanceIndex x
      = { machine with
          index := (machine.advanceIndex x).index
          v := (machine.advanceIndex x).v } := by
  simp only [advanceIndex]
  split <;> rfl

theorem skipWhen_eq (machine : Machine) (condition : Bool)
    : machine.skipWhen condition = { machine with pc := (machine.skipWhen condition).pc } := by
  cases condition <;> rfl

theorem settleIndex_eq (machine : Machine) (x : Nibble)
    : machine.settleIndex x = { machine with index := (machine.settleIndex x).index } := by
  simp only [settleIndex]
  split <;> rfl

theorem takeKey_eq (machine : Machine) (x : Nibble) (keys : List Nibble)
    : machine.takeKey x keys
      = { machine with pc := (machine.takeKey x keys).pc, v := (machine.takeKey x keys).v } := by
  cases keys <;> rfl

theorem loadRegisters_eq (machine : Machine) (x : Nibble)
    : machine.loadRegisters x
      = { machine with
          v := (machine.loadRegisters x).v
          index := (machine.loadRegisters x).index } := by
  rw [loadRegisters, settleIndex_eq]

end Machine

-----------------------------------------------------------------------------------------
-- What an instruction changes
-----------------------------------------------------------------------------------------

/-- One of the two timers of a machine. -/
inductive Timer where
  | delay
  | sound
  deriving DecidableEq, Repr

def Machine.timer (machine : Machine) : Timer → UInt8
  | .delay => machine.delayTimer
  | .sound => machine.soundTimer

namespace Instruction

/-- Whether an instruction shows the display afterwards. -/
def publishes : Instruction → Bool
  | clear | draw _ _ _ => true
  | _ => false

/-- Whether an instruction asks which keys are held. -/
def polls : Instruction → Bool
  | skipPressed _ | skipReleased _ | awaitKey _ => true
  | _ => false

/-- Whether an instruction takes a random byte. -/
def draws : Instruction → Bool
  | random _ _ => true
  | _ => false

/-- The register that an instruction copies to a timer; for each timer one instruction copies. -/
def source? (timer : Timer) (instruction : Instruction) : Option Nibble :=
  match timer, instruction with
  | .delay, setDelay x => some x
  | .sound, setSound x => some x
  | _, _ => none

end Instruction

namespace Machine

/-- The bytes that an instruction stores from the index register on. -/
def stored (machine : Machine) : Instruction → List UInt8
  | .storeDecimal x => decimalDigits (machine.register x)
  | .store x => x.upTo.map machine.register
  | _ => []

/-- The return addresses that an instruction leaves; a return that has none to take leaves none. -/
def stackAfter (machine : Machine) : Instruction → List UInt16
  | .call _ => machine.pc :: machine.stack
  | .ret => machine.stack.tail
  | _ => machine.stack

theorem execute_ret_eq (machine : Machine) (report : List UInt8)
    : (machine.execute .ret report).machine
      = { machine with
          pc := (machine.execute .ret report).machine.pc
          stack := machine.stack.tail } := by
  obtain ⟨_, _, _, _, _, stack, _, _, _, _, _⟩ := machine
  cases stack <;> rfl

/-- What an instruction leaves of a machine: memory, return addresses, timers and generator are told
by the instruction, the display is another only if it is shown, and the dialect and the word
fetched stay. Program counter, index register and registers may be any. By cases over the
instruction set.
-/
theorem execute_frame (machine : Machine) (instruction : Instruction) (report : List UInt8)
    : ∃ display pc index v,
        (instruction.publishes = false → display = machine.display)
        ∧ (machine.execute instruction report).machine
          = { machine with
              memory := machine.memory.writeRun machine.index (machine.stored instruction)
              display := display
              pc := pc
              index := index
              v := v
              stack := machine.stackAfter instruction
              delayTimer :=
                (instruction.source? .delay).elim machine.delayTimer machine.register
              soundTimer :=
                (instruction.source? .sound).elim machine.soundTimer machine.register
              random := if instruction.draws then machine.random.advance else machine.random } := by
  cases instruction with
  | clear | draw x y n => exact ⟨_, _, _, _, nofun, rfl⟩
  | ret => exact ⟨_, _, _, _, fun _ => rfl, machine.execute_ret_eq report⟩
  | skipEqualByte x nn | skipUnequalByte x nn | skipEqual x y | skipUnequal x y
  | skipPressed x | skipReleased x =>
      exact ⟨_, _, _, _, fun _ => rfl, machine.skipWhen_eq _⟩
  | alu x y op => exact ⟨_, _, _, _, fun _ => rfl, machine.applyAlu_eq x y op⟩
  | addIndex x => exact ⟨_, _, _, _, fun _ => rfl, machine.advanceIndex_eq x⟩
  | awaitKey x => exact ⟨_, _, _, _, fun _ => rfl, machine.takeKey_eq x _⟩
  | store x => exact ⟨_, _, _, _, fun _ => rfl, settleIndex_eq _ x⟩
  | load x => exact ⟨_, _, _, _, fun _ => rfl, machine.loadRegisters_eq x⟩
  | _ => exact ⟨_, _, _, _, fun _ => rfl, rfl⟩

/-- Only an instruction that shows the display changes it. -/
theorem execute_display (machine : Machine) {instruction : Instruction} (report : List UInt8)
    (hidden : instruction.publishes = false)
    : (machine.execute instruction report).machine.display = machine.display := by
  obtain ⟨_, _, _, _, kept, frame⟩ := machine.execute_frame instruction report
  rw [frame]
  exact kept hidden

/-- An instruction that copies nothing to a timer leaves it alone. -/
theorem execute_timer (machine : Machine) (instruction : Instruction) (report : List UInt8)
    (timer : Timer)
    : (machine.execute instruction report).machine.timer timer
      = (instruction.source? timer).elim (machine.timer timer) machine.register := by
  obtain ⟨_, _, _, _, _, frame⟩ := machine.execute_frame instruction report
  rw [frame]
  cases timer <;> rfl

theorem execute_memory (machine : Machine) (instruction : Instruction) (report : List UInt8)
    : (machine.execute instruction report).machine.memory
      = machine.memory.writeRun machine.index (machine.stored instruction) := by
  obtain ⟨_, _, _, _, _, frame⟩ := machine.execute_frame instruction report
  rw [frame]

theorem execute_stack (machine : Machine) (instruction : Instruction) (report : List UInt8)
    : (machine.execute instruction report).machine.stack = machine.stackAfter instruction := by
  obtain ⟨_, _, _, _, _, frame⟩ := machine.execute_frame instruction report
  rw [frame]

theorem execute_random (machine : Machine) (instruction : Instruction) (report : List UInt8)
    : (machine.execute instruction report).machine.random
      = if instruction.draws then machine.random.advance else machine.random := by
  obtain ⟨_, _, _, _, _, frame⟩ := machine.execute_frame instruction report
  rw [frame]

theorem execute_dialect (machine : Machine) (instruction : Instruction) (report : List UInt8)
    : (machine.execute instruction report).machine.dialect = machine.dialect := by
  obtain ⟨_, _, _, _, _, frame⟩ := machine.execute_frame instruction report
  rw [frame]

-----------------------------------------------------------------------------------------
-- What an instruction tells the host, and how it ends
-----------------------------------------------------------------------------------------

/-- An instruction makes one call at most: it shows the display as it leaves it, or it asks for
the held keys, by cases over the instruction set.
-/
theorem execute_calls (machine : Machine) (instruction : Instruction) (report : List UInt8)
    : (machine.execute instruction report).calls
      = if instruction.publishes then
          [.publish (machine.execute instruction report).machine.display]
        else if instruction.polls then [.poll]
        else [] := by
  cases instruction with
  | ret =>
      cases stack : machine.stack <;>
        simp [execute, stack, Instruction.publishes, Instruction.polls]
  | _ => rfl

/-- The only instruction that faults is a return without a call to return from, and it changes
nothing then.
-/
theorem execute_fault? (machine : Machine) (instruction : Instruction) (report : List UInt8)
    : (machine.execute instruction report).fault?
      = if instruction = .ret ∧ machine.stack = [] then some (.emptyStack machine.lastAddress)
        else none := by
  cases instruction with
  | ret => cases stack : machine.stack <;> simp [execute, stack]
  | _ => rfl

-----------------------------------------------------------------------------------------
-- The two ways through a cycle
-----------------------------------------------------------------------------------------

@[simp] theorem fetched_fetch (machine : Machine) : machine.fetch.fetched = machine.ahead := by
  rw [fetch_eq]

/-- A word that stands for no instruction is fetched and reported, and that is all. -/
theorem cycle_of_none {machine : Machine} (report : List UInt8)
    (undecodable : Instruction.decode? machine.ahead = none)
    : machine.cycle report
      = { machine := machine.fetch
          fault? := some
            (.unknownInstruction (UInt16.ofNat (machine.pc.toNat % 4096)) machine.ahead) } := by
  simp only [cycle, fetched_fetch, lastAddress_fetch, undecodable]

/-- A word that stands for an instruction is fetched, noted and executed. -/
theorem cycle_of_some {machine : Machine} {instruction : Instruction} (report : List UInt8)
    (decodes : Instruction.decode? machine.ahead = some instruction)
    : machine.cycle report
      = { machine.fetch.execute instruction report with
          notes :=
            .executing (UInt16.ofNat (machine.pc.toNat % 4096)) instruction
              :: (machine.fetch.execute instruction report).notes } := by
  simp only [cycle, fetched_fetch, lastAddress_fetch, decodes]

/-- The machine of a cycle is the fetching one, behind the instruction ahead if there is one. -/
theorem machine_cycle (machine : Machine) (report : List UInt8)
    : (machine.cycle report).machine
      = (Instruction.decode? machine.ahead).elim machine.fetch fun instruction =>
          (machine.fetch.execute instruction report).machine := by
  cases decodes : Instruction.decode? machine.ahead with
  | none => rw [cycle_of_none report decodes, Option.elim_none]
  | some instruction => rw [cycle_of_some report decodes, Option.elim_some]

/-- A turn in which a machine executes an instruction: the instruction is handed to it, or a cycle
meets it.
-/
inductive Executes (machine : Machine) (instruction : Instruction) : Turn → Prop where
  | handed (report : List UInt8)
    : machine.Executes instruction (machine.execute instruction report)
  | met (report : List UInt8) (decodes : Instruction.decode? machine.ahead = some instruction)
    : machine.Executes instruction (machine.cycle report)

/-- Either way the instruction is executed on the machine as it is, but for what a fetch moves. -/
theorem Executes.turn_eq {machine : Machine} {instruction : Instruction} {turn : Turn}
    (executes : machine.Executes instruction turn)
    : ∃ fetched pc report notes,
        turn
        = { { machine with fetched := fetched, pc := pc }.execute instruction report with
            notes := notes } := by
  cases executes with
  | handed report => exact ⟨machine.fetched, machine.pc, report, _, rfl⟩
  | met report decodes => exact ⟨_, _, report, _, cycle_of_some report decodes⟩

end Machine

end Chip8
