import Chip8.Proofs.Provenance

/-! What a cycle can change, part by part of a machine, and what it tells its host. Each part is changed
by the instructions that are listed for it here and by no others; in memory and among the registers
also the places are listed.
-/

namespace Chip8

-----------------------------------------------------------------------------------------
-- What each instruction may change
-----------------------------------------------------------------------------------------

/-- Whether an operation gives a flag. -/
def AluOp.flags : AluOp → Bool
  | add | subtract | shiftRight | subtractFrom | shiftLeft => true
  | copy | or | and | xor => false

namespace Instruction

/-- The registers that an instruction may set. Whether one that awaits a key sets any depends on the
keys that are held.
-/
def written (dialect : Dialect) (report : List UInt8) : Instruction → List Nibble
  | setByte x _ | addByte x _ | random x _ | readDelay x => [x]
  | alu x _ op => if op.flags then [x, .flag] else [x]
  | addIndex _ => if dialect.keepsFlagOnIndexAdd then [] else [.flag]
  | draw _ _ _ => [.flag]
  | awaitKey x => if Keypad.held report = [] then [] else [x]
  | load x => x.upTo
  | _ => []

/-- Whether an instruction may set the index register. -/
def movesIndex (dialect : Dialect) : Instruction → Bool
  | setIndex _ | addIndex _ | pointGlyph _ => true
  | store _ | load _ => dialect.advancesIndex
  | _ => false

/-- How many cells an instruction stores into, from that of the index register on. -/
def reach : Instruction → Nat
  | storeDecimal _ => 3
  | store x => x.val + 1
  | _ => 0

end Instruction

namespace Machine

-----------------------------------------------------------------------------------------
-- The registers
-----------------------------------------------------------------------------------------

theorem register_setRegister_of_ne {x register : Nibble} (other : register ≠ x)
    (machine : Machine) (byte : UInt8)
    : (machine.setRegister x byte).register register = machine.register register := by
  rw [register_setRegister, if_neg other.symm]

theorem register_skipWhen (machine : Machine) (condition : Bool) (register : Nibble)
    : (machine.skipWhen condition).register register = machine.register register := by
  rw [skipWhen_eq]
  rfl

theorem register_settleIndex (machine : Machine) (x register : Nibble)
    : (machine.settleIndex x).register register = machine.register register := by
  rw [settleIndex_eq]
  rfl

theorem register_applyAlu_of_not_written {x y register : Nibble} {op : AluOp}
    (unwritten : register ∉ if op.flags then [x, .flag] else [x]) (machine : Machine)
    : (machine.applyAlu x y op).register register = machine.register register := by
  have result : register ≠ x := by
    intro same
    subst same
    cases op <;> exact unwritten (List.mem_cons_self ..)
  cases op with
  | copy | or | and | xor => exact register_setRegister_of_ne result _ _
  | add | subtract | shiftRight | subtractFrom | shiftLeft =>
      have unflagged : register ∉ [x, .flag] := unwritten
      have flag : register ≠ .flag := by
        rintro rfl
        exact unflagged (by simp)
      exact (register_setRegister_of_ne flag _ _).trans (register_setRegister_of_ne result _ _)

/-- Registers that are not listed keep their bytes, by induction over the list. -/
theorem get_foldl_replaceAt {entries : List (Nibble × UInt8)} {register : Nibble}
    (unlisted : register ∉ entries.map Prod.fst) (v : Vector UInt8 16)
    : (entries.foldl (fun v (x, byte) => replaceAt v x byte) v).get register
      = v.get register := by
  induction entries generalizing v with
  | nil => rfl
  | cons entry rest ih =>
      rw [List.map_cons, List.mem_cons, not_or] at unlisted
      obtain ⟨other, later⟩ := unlisted
      have places : entry.1.val ≠ register.val := fun same => other (Fin.ext same.symm)
      rw [List.foldl_cons, ih later]
      exact Vector.getElem_set_ne entry.1.isLt register.isLt places

theorem register_loadRegisters_of_not_mem {x register : Nibble} (beyond : register ∉ x.upTo)
    (machine : Machine)
    : (machine.loadRegisters x).register register = machine.register register := by
  rw [loadRegisters, register_settleIndex]
  apply get_foldl_replaceAt
  intro listed
  obtain ⟨entry, zipped, rfl⟩ := List.mem_map.mp listed
  exact beyond (List.of_mem_zip zipped).1

/-- An instruction leaves the registers alone that it is not listed for, by cases over the instruction
set.
-/
theorem execute_register {machine : Machine} {instruction : Instruction} {report : List UInt8}
    {register : Nibble} (unwritten : register ∉ instruction.written machine.dialect report)
    : (machine.execute instruction report).machine.register register
      = machine.register register := by
  cases instruction with
  | setByte x nn | addByte x nn | random x nn | readDelay x | draw x y n =>
      exact register_setRegister_of_ne (List.ne_of_not_mem_cons unwritten) _ _
  | skipEqualByte x nn | skipUnequalByte x nn | skipEqual x y | skipUnequal x y
  | skipPressed x | skipReleased x =>
      exact machine.register_skipWhen _ register
  | alu x y op => exact register_applyAlu_of_not_written unwritten machine
  | addIndex x =>
      simp only [Instruction.written] at unwritten
      simp only [execute, advanceIndex]
      split
      · rfl
      · next flags =>
        rw [if_neg flags] at unwritten
        exact register_setRegister_of_ne (List.ne_of_not_mem_cons unwritten) _ _
  | awaitKey x =>
      simp only [Instruction.written] at unwritten
      simp only [execute, Turn.polling]
      cases held : Keypad.held report with
      | nil => rfl
      | cons key rest =>
          rw [held, if_neg (List.cons_ne_nil key rest)] at unwritten
          exact register_setRegister_of_ne (List.ne_of_not_mem_cons unwritten) _ _
  | ret =>
      rw [execute_ret_eq]
      rfl
  | store x => exact register_settleIndex _ x register
  | load x => exact register_loadRegisters_of_not_mem unwritten machine
  | _ => rfl

-----------------------------------------------------------------------------------------
-- The index register and memory
-----------------------------------------------------------------------------------------

theorem index_skipWhen (machine : Machine) (condition : Bool)
    : (machine.skipWhen condition).index = machine.index := by
  rw [skipWhen_eq]

theorem index_applyAlu (machine : Machine) (x y : Nibble) (op : AluOp)
    : (machine.applyAlu x y op).index = machine.index := by
  rw [applyAlu_eq]

theorem index_takeKey (machine : Machine) (x : Nibble) (keys : List Nibble)
    : (machine.takeKey x keys).index = machine.index := by
  rw [takeKey_eq]

theorem index_settleIndex_of_stays {machine : Machine}
    (stays : machine.dialect.advancesIndex = false) (x : Nibble)
    : (machine.settleIndex x).index = machine.index := by
  simp only [settleIndex, stays, Bool.false_eq_true, if_false]

/-- An instruction leaves the index register alone that it is not listed for, by cases over the
instruction set.
-/
theorem execute_index (machine : Machine) {instruction : Instruction} (report : List UInt8)
    (still : instruction.movesIndex machine.dialect = false)
    : (machine.execute instruction report).machine.index = machine.index := by
  cases instruction with
  | setIndex nnn | addIndex x | pointGlyph x => contradiction
  | ret =>
      rw [execute_ret_eq]
  | skipEqualByte x nn | skipUnequalByte x nn | skipEqual x y | skipUnequal x y
  | skipPressed x | skipReleased x =>
      exact machine.index_skipWhen _
  | alu x y op => exact machine.index_applyAlu x y op
  | awaitKey x => exact machine.index_takeKey x _
  | store x | load x =>
      show (settleIndex _ x).index = _
      exact index_settleIndex_of_stays (by exact still) x
  | _ => rfl

theorem length_stored_eq (machine : Machine) (instruction : Instruction)
    : (machine.stored instruction).length = instruction.reach := by
  cases instruction with
  | store x =>
      rw [stored, List.length_map, Nibble.length_upTo]
      rfl
  | _ => rfl

end Machine

-----------------------------------------------------------------------------------------
-- Cycles
-----------------------------------------------------------------------------------------

/-- A turn leaves of a machine what an instruction has to leave, and makes the calls that it has to
make. The stack, the timers and the generator have one value that they can come to; memory,
display, index register and registers are left alone wherever the instruction is not listed for
them, and the program counter may come to any value.
-/
structure Turn.Confined (turn : Turn) (machine : Machine) (instruction : Instruction)
    (report : List UInt8)
    : Prop where
  fetched : turn.machine.fetched = machine.ahead
  memory
    : ∀ cell,
        (∀ offset < instruction.reach, Fin.ofNat 4096 (machine.index.toNat + offset) ≠ cell)
        → turn.machine.memory.cells.get cell = machine.memory.cells.get cell
  display : instruction.publishes = false → turn.machine.display = machine.display
  index
    : instruction.movesIndex machine.dialect = false → turn.machine.index = machine.index
  registers
    : ∀ register,
        register ∉ instruction.written machine.dialect report
        → turn.machine.register register = machine.register register
  stack
    : turn.machine.stack
      = match instruction with
        | .call _ => (machine.pc + 2) :: machine.stack
        | .ret => machine.stack.tail
        | _ => machine.stack
  timers
    : ∀ timer,
        turn.machine.timer timer
        = (instruction.source? timer).elim (machine.timer timer) machine.register
  random
    : turn.machine.random
      = if instruction.draws then machine.random.advance else machine.random
  dialect : turn.machine.dialect = machine.dialect
  calls
    : turn.calls
      = if instruction.publishes then [.publish turn.machine.display]
        else if instruction.polls then [.poll]
        else []

namespace Machine

theorem execute_fetched (machine : Machine) (instruction : Instruction) (report : List UInt8)
    : (machine.execute instruction report).machine.fetched = machine.fetched := by
  obtain ⟨_, _, _, _, _, frame⟩ := machine.execute_frame instruction report
  rw [frame]

theorem cycle_confined {machine : Machine} {instruction : Instruction}
    (decodes : Instruction.decode? machine.ahead = some instruction) (report : List UInt8)
    : (machine.cycle report).Confined machine instruction report := by
  rw [cycle_of_some report decodes]
  exact {
    fetched := (machine.fetch.execute_fetched instruction report).trans machine.fetched_fetch
    memory := by
      intro cell outside
      rw [execute_memory]
      apply Memory.get_writeRun_of_outside
      rw [length_stored_eq]
      exact outside
    display := machine.fetch.execute_display report
    index := machine.fetch.execute_index report
    registers := fun _ unwritten => execute_register unwritten
    stack := by
      rw [execute_stack]
      cases instruction <;> rfl
    timers := machine.fetch.execute_timer instruction report
    random := machine.fetch.execute_random instruction report
    dialect := machine.fetch.execute_dialect instruction report
    calls := machine.fetch.execute_calls instruction report
  }

end Machine

/-- Whatever the machine and the keys reported, a cycle that executes an instruction changes only what
this instruction is listed for: memory in the three cells of a decimal or the cells of the
registers stored, the registers up to the last one loaded, the flag register where there is a
flag. It shows the display or polls exactly if its instruction does, once, and calls nobody
otherwise. A count of the timers changes the two timers and makes one call, for the tone.
-/
theorem cycles_are_confined_to_their_instructions
    : (∀ (machine : Machine) (instruction : Instruction) (report : List UInt8),
        Instruction.decode? machine.ahead = some instruction
        → (machine.cycle report).Confined machine instruction report)
      ∧ ∀ machine : Machine,
          (∃ delay sound,
            machine.countDown.machine
            = { machine with delayTimer := delay, soundTimer := sound })
          ∧ ∃ call, machine.countDown.calls = [call] ∧ call.isTone = true := by
  constructor
  · exact fun machine instruction report decodes => Machine.cycle_confined decodes report
  · intro machine
    have tone := machine.calls_countDown
    refine ⟨⟨_, _, rfl⟩, _, tone, ?_⟩
    split <;> rfl

/-- Two registers are stored across the end of memory, which leaves the cell behind them and all that
is no memory.
-/
theorem store_across_wrap_is_confined
    : let machine : Machine :=
        { Machine.boot #[0xF1, 0x55] .modern (.ofSeed 0) with
          index := 0xFFFF, v := .replicate 16 0x2A }
      (machine.cycle []).Confined machine (.store 1) []
      ∧ (machine.cycle []).machine.memory.cells.get 0xFFF = 0x2A
      ∧ (machine.cycle []).machine.memory.cells.get 0x000 = 0x2A
      ∧ (machine.cycle []).machine.memory.cells.get 0x001 = 0x00
      ∧ (machine.cycle []).machine.index = 0xFFFF
      ∧ (machine.cycle []).calls = [] := by
  intro machine
  have confined : (machine.cycle []).Confined machine (.store 1) [] :=
    cycles_are_confined_to_their_instructions.1 machine (.store 1) [] (by decide +kernel)
  have behind : (machine.cycle []).machine.memory.cells.get 0x001 = 0x00 :=
    (confined.memory 0x001 (by decide +kernel)).trans (by decide +kernel)
  exact ⟨confined, by decide +kernel, by decide +kernel, behind, confined.index rfl,
    confined.calls⟩

end Chip8
