import Chip8.Host.Script
import Chip8.Proofs.History
import Mathlib.Data.Nat.Digits.Lemmas

/-! Where the byte in a cell of memory comes from: from the last instruction that stored into the
cell, or from loading if none did. What an instruction stores, and where, is said once; a run
then has a last store into each cell or none.
-/

namespace Chip8

-----------------------------------------------------------------------------------------
-- Runs of cells
-----------------------------------------------------------------------------------------

namespace Memory

theorem cell_eq_ofNat (address : UInt16) : cell address = Fin.ofNat 4096 address.toNat :=
  rfl

theorem val_cell_add (start : UInt16) (offset : Nat)
    : (cell (start + UInt16.ofNat offset)).val = (start.toNat + offset) % 4096 := by
  simp only [cell, UInt16.toNat_add, UInt16.toNat_ofNat']
  omega

theorem length_readRun (memory : Memory) (start : UInt16) (count : Nat)
    : (memory.readRun start count).length = count := by
  rw [readRun, List.length_map, List.length_range]

theorem get_write (memory : Memory) (address : UInt16) (byte : UInt8) (cell : Fin 4096)
    : (memory.write address byte).cells.get cell
      = if Fin.ofNat 4096 address.toNat = cell then byte else memory.cells.get cell := by
  have changed : (memory.write address byte).cells[cell.val]
      = if (Memory.cell address).val = cell.val then byte else memory.cells[cell.val] :=
    Vector.getElem_set (Memory.cell address).isLt cell.isLt
  simp only [Fin.val_inj, cell_eq_ofNat] at changed
  exact changed

/-- Moving on by one address moves on by one cell; the sixteen-bit wrap is a multiple of the memory
size.
-/
theorem ofNat_succ (start : UInt16) (offset : Nat)
    : Fin.ofNat 4096 ((start + 1).toNat + offset) = Fin.ofNat 4096 (start.toNat + (offset + 1)) := by
  apply Fin.ext
  simp only [Fin.ofNat, UInt16.toNat_add]
  show ((start.toNat + 1) % 65536 + offset) % 4096 = _
  omega

/-- A run leaves the cells alone that it does not reach, by induction over its bytes. -/
theorem get_writeRun_of_outside {bytes : List UInt8} {start : UInt16} {cell : Fin 4096}
    (outside : ∀ offset < bytes.length, Fin.ofNat 4096 (start.toNat + offset) ≠ cell)
    (memory : Memory)
    : (memory.writeRun start bytes).cells.get cell = memory.cells.get cell := by
  induction bytes generalizing memory start with
  | nil => rfl
  | cons byte rest ih =>
      have later : ∀ offset < rest.length, Fin.ofNat 4096 ((start + 1).toNat + offset) ≠ cell := by
        intro offset bound
        rw [ofNat_succ]
        exact outside (offset + 1) (Nat.succ_lt_succ bound)
      rw [writeRun, ih later, get_write]
      exact if_neg (outside 0 (Nat.zero_lt_succ _))

/-- A run no longer than memory puts each of its bytes into a cell of its own, by induction over its
bytes: the later ones lie beyond the first, and do not come round to it.
-/
theorem get_writeRun {bytes : List UInt8} (short : bytes.length ≤ 4096) {start : UInt16}
    {offset : Nat} {cell : Fin 4096} (place : Fin.ofNat 4096 (start.toNat + offset) = cell)
    {byte : UInt8} (listed : bytes[offset]? = some byte) (memory : Memory)
    : (memory.writeRun start bytes).cells.get cell = byte := by
  induction bytes generalizing memory start offset with
  | nil => contradiction
  | cons first rest ih =>
      rw [List.length_cons] at short
      cases offset with
      | zero =>
          obtain rfl : first = byte := Option.some.inj listed
          have beyond
              : ∀ offset < rest.length, Fin.ofNat 4096 ((start + 1).toNat + offset) ≠ cell := by
            intro offset bound same
            rw [ofNat_succ, ← place] at same
            have cells : (start.toNat + (offset + 1)) % 4096 = (start.toNat + 0) % 4096 :=
              congrArg Fin.val same
            omega
          rw [writeRun, get_writeRun_of_outside beyond, get_write]
          exact if_pos place
      | succ offset =>
          rw [writeRun]
          exact ih (Nat.le_of_succ_le short) (ofNat_succ start offset ▸ place) listed _

end Memory

-----------------------------------------------------------------------------------------
-- What one instruction stores
-----------------------------------------------------------------------------------------

namespace Nibble

theorem upTo_eq_take (bound : Nibble) : bound.upTo = (List.finRange 16).take (bound.val + 1) := by
  revert bound
  decide

theorem length_upTo (bound : Nibble) : bound.upTo.length = bound.val + 1 := by
  rw [upTo_eq_take, List.length_take, List.length_finRange]
  exact Nat.min_eq_left bound.isLt

theorem getElem?_upTo {bound : Nibble} {place : Nat} {register : Nibble}
    : bound.upTo[place]? = some register ↔ register.val = place ∧ register ≤ bound := by
  rw [upTo_eq_take, List.getElem?_take, Fin.le_def]
  split
  · rename_i within
    have inside : place < (List.finRange 16).length := by
      rw [List.length_finRange]
      omega
    rw [List.getElem?_eq_getElem inside, List.getElem_finRange, Option.some.injEq, Fin.ext_iff]
    show place = register.val ↔ _
    omega
  · simp only [reduceCtorEq, false_iff]
    omega

end Nibble

namespace Machine

/-- An instruction stores a byte into a cell: one of the decimal digits of a register, hundreds
first, or one of the registers up to a given one, as far behind the cell of the index register as
its place is.
-/
inductive Stores (machine : Machine) : Instruction → Fin 4096 → UInt8 → Prop where
  | digit (x : Nibble) (place : Fin 3)
    : machine.Stores (.storeDecimal x) (Fin.ofNat 4096 (machine.index.toNat + place.val))
        (UInt8.ofNat ((Nat.digits 10 (machine.register x).toNat).getD (2 - place.val) 0))
  | register (x place : Nibble) (within : place ≤ x)
    : machine.Stores (.store x) (Fin.ofNat 4096 (machine.index.toNat + place.val))
        (machine.register place)

theorem getElem?_decimalDigits (byte : UInt8) (place : Fin 3)
    : (decimalDigits byte)[place.val]?
      = some (UInt8.ofNat ((Nat.digits 10 byte.toNat).getD (2 - place.val) 0)) := by
  have bound := byte.toNat_lt
  rw [Nat.getD_digits _ _ (by decide)]
  match place with
  | 0 | 1 | 2 =>
      apply congrArg some
      apply UInt8.toNat_inj.mp
      simp [UInt8.toNat_div, UInt8.toNat_mod, UInt8.toNat_ofNat']
      omega

/-- What an instruction stores is the run of bytes that the machine writes, byte by byte. -/
theorem stores_iff {machine : Machine} {instruction : Instruction} {cell : Fin 4096} {byte : UInt8}
    : machine.Stores instruction cell byte
      ↔ ∃ offset,
          (machine.stored instruction)[offset]? = some byte
          ∧ Fin.ofNat 4096 (machine.index.toNat + offset) = cell := by
  constructor
  · rintro (⟨x, place⟩ | ⟨x, place, within⟩)
    · exact ⟨place.val, getElem?_decimalDigits (machine.register x) place, rfl⟩
    · have listed : x.upTo[place.val]? = some place := Nibble.getElem?_upTo.mpr ⟨rfl, within⟩
      refine ⟨place.val, ?_, rfl⟩
      rw [stored, List.getElem?_map, listed, Option.map_some]
  · rintro ⟨offset, listed, rfl⟩
    cases instruction with
    | storeDecimal x =>
        have small : offset < 3 := (List.getElem?_eq_some_iff.mp listed).1
        have digit := getElem?_decimalDigits (machine.register x) ⟨offset, small⟩
        obtain rfl := Option.some.inj (listed.symm.trans digit)
        exact .digit x ⟨offset, small⟩
    | store x =>
        rw [stored, List.getElem?_map] at listed
        obtain ⟨place, found, rfl⟩ := Option.map_eq_some_iff.mp listed
        obtain ⟨rfl, within⟩ := Nibble.getElem?_upTo.mp found
        exact .register x place within
    | _ => contradiction

theorem length_stored (machine : Machine) (instruction : Instruction)
    : (machine.stored instruction).length ≤ 4096 := by
  cases instruction with
  | store x =>
      rw [stored, List.length_map, Nibble.length_upTo]
      omega
  | storeDecimal x => exact Nat.le_of_ble_eq_true rfl
  | _ => exact Nat.zero_le _

theorem cycle_memory (machine : Machine) (report : List UInt8)
    : (machine.cycle report).machine.memory
      = machine.memory.writeRun machine.index
          ((Instruction.decode? machine.ahead).elim [] machine.stored) := by
  rw [machine_cycle]
  cases Instruction.decode? machine.ahead with
  | none => rfl
  | some instruction => exact machine.fetch.execute_memory instruction report

end Machine

-----------------------------------------------------------------------------------------
-- What one tick stores
-----------------------------------------------------------------------------------------

namespace Console

variable {σ : Type} [Host σ] {console : Console σ} {tick : Tick} {ticks : List Tick}
  {cell : Fin 4096} {byte : UInt8}

/-- A tick executes an instruction that stores a byte into a cell. -/
def Stores (console : Console σ) (tick : Tick) (cell : Fin 4096) (byte : UInt8) : Prop :=
  ∃ instruction,
    (console.turn tick).executed? = some instruction
    ∧ console.machine.Stores instruction cell byte

/-- None of the ticks of a run stores anything into a cell. -/
def Untouched (console : Console σ) (ticks : List Tick) (cell : Fin 4096) : Prop :=
  ∀ before tick since,
    ticks = before ++ tick :: since → ∀ byte, ¬(console.run before).Stores tick cell byte

theorem get_turn_of_stores (stores : console.Stores tick cell byte)
    : (console.turn tick).machine.memory.cells.get cell = byte := by
  obtain ⟨instruction, executes, stores⟩ := stores
  cases tick with
  | timer => contradiction
  | instruction =>
      obtain ⟨offset, listed, place⟩ := Machine.stores_iff.mp stores
      rw [executed?_turn] at executes
      rw [turn, Machine.cycle_memory, executes]
      exact Memory.get_writeRun (Machine.length_stored _ _) place listed _

theorem get_turn_of_not_stores (not : ∀ byte, ¬console.Stores tick cell byte)
    : (console.turn tick).machine.memory.cells.get cell
      = console.machine.memory.cells.get cell := by
  cases tick with
  | timer => rfl
  | instruction =>
      rw [turn, Machine.cycle_memory]
      cases decodes : Instruction.decode? console.machine.ahead with
      | none => rfl
      | some instruction =>
          apply Memory.get_writeRun_of_outside
          intro offset bound same
          have executes : (console.turn .instruction).executed? = some instruction :=
            console.executed?_turn.trans decodes
          have listed := List.getElem?_eq_getElem bound
          exact not _ ⟨instruction, executes, Machine.stores_iff.mpr ⟨offset, listed, same⟩⟩

-----------------------------------------------------------------------------------------
-- What a run stores
-----------------------------------------------------------------------------------------

theorem untouched_cons
    : console.Untouched (tick :: ticks) cell
      ↔ (∀ byte, ¬console.Stores tick cell byte)
        ∧ (console.after (console.turn tick)).Untouched ticks cell := by
  constructor
  · intro untouched
    refine ⟨untouched [] tick ticks rfl, ?_⟩
    intro before next since split
    exact untouched (tick :: before) next since (congrArg (tick :: ·) split)
  · rintro ⟨first, later⟩ before next since split
    cases before with
    | nil =>
        obtain ⟨rfl, _⟩ := List.cons.inj split
        exact first
    | cons other before =>
        obtain ⟨rfl, rest⟩ := List.cons.inj split
        exact later before next since rest

/-- A cell that no tick stores into keeps its byte, by induction over the ticks. -/
theorem get_run_of_untouched (untouched : console.Untouched ticks cell)
    : (console.run ticks).machine.memory.cells.get cell
      = console.machine.memory.cells.get cell := by
  induction ticks generalizing console with
  | nil => rfl
  | cons tick rest ih =>
      obtain ⟨first, later⟩ := untouched_cons.mp untouched
      rw [run_cons, ih later]
      exact get_turn_of_not_stores first

/-- The byte that was stored into a cell last along a run; if none was, the byte that the cell held
before it.
-/
inductive LastStored (console : Console σ) (ticks : List Tick) (cell : Fin 4096)
    : UInt8 → Prop where
  | never (untouched : console.Untouched ticks cell)
    : LastStored console ticks cell (console.machine.memory.cells.get cell)
  | at (before since : List Tick) (tick : Tick) (byte : UInt8)
      (split : ticks = before ++ tick :: since)
      (stores : (console.run before).Stores tick cell byte)
      (untouched : (console.run (before ++ [tick])).Untouched since cell)
    : LastStored console ticks cell byte

/-- Every run has a last store into a cell or none, by induction over its ticks: a tick at the front
is the last store if it stores and no later one does.
-/
theorem lastStored_total (console : Console σ) (ticks : List Tick) (cell : Fin 4096)
    : ∃ byte, console.LastStored ticks cell byte := by
  induction ticks generalizing console with
  | nil => exact ⟨_, .never fun _ _ _ split => by simp at split⟩
  | cons tick rest ih =>
      obtain ⟨byte, last⟩ := ih (console.after (console.turn tick))
      cases last with
      | «at» before since next byte split stores untouched =>
          exact ⟨byte, .at (tick :: before) since next byte (congrArg (tick :: ·) split) stores
            untouched⟩
      | never untouched =>
          by_cases stores : ∃ byte, console.Stores tick cell byte
          · obtain ⟨byte, stores⟩ := stores
            exact ⟨byte, .at [] rest tick byte rfl stores untouched⟩
          · exact ⟨_, .never (untouched_cons.mpr ⟨not_exists.mp stores, untouched⟩)⟩

theorem get_run_of_lastStored (last : console.LastStored ticks cell byte)
    : (console.run ticks).machine.memory.cells.get cell = byte := by
  cases last with
  | never untouched => exact get_run_of_untouched untouched
  | «at» before since tick byte split stores untouched =>
      have joined : ticks = (before ++ [tick]) ++ since := by
        rw [split, List.append_assoc]
        rfl
      rw [joined, run_append, get_run_of_untouched untouched, run_append]
      exact get_turn_of_stores stores

/-- A run has one last store into a cell, and the cell holds its byte. -/
theorem get_run_iff
    : (console.run ticks).machine.memory.cells.get cell = byte
      ↔ console.LastStored ticks cell byte := by
  constructor
  · rintro rfl
    obtain ⟨byte, last⟩ := console.lastStored_total ticks cell
    exact get_run_of_lastStored last ▸ last
  · exact get_run_of_lastStored

end Console

-----------------------------------------------------------------------------------------
-- Loaded memory and every run from it
-----------------------------------------------------------------------------------------

/-- What memory holds right after loading: the glyphs, the program at its start address, and zeros
elsewhere.
-/
structure Memory.Loaded (memory : Memory) (program : Array UInt8) : Prop where
  glyphs
    : ∀ (cell : Fin 4096) (_ : 0x50 ≤ cell.val ∧ cell.val ≤ 0x9F),
        Glyph.rows[cell.val - 0x50]? = some (memory.cells.get cell)
  bytes
    : ∀ (cell : Fin 4096) (_ : 0x200 ≤ cell.val ∧ cell.val < 0x200 + program.size),
        program[cell.val - 0x200]? = some (memory.cells.get cell)
  zeros
    : ∀ cell : Fin 4096,
        ¬(0x50 ≤ cell.val ∧ cell.val ≤ 0x9F)
        → ¬(0x200 ≤ cell.val ∧ cell.val < 0x200 + program.size)
        → memory.cells.get cell = 0

theorem Memory.loaded_image (program : Array UInt8) : (image program).Loaded program where
  glyphs cell within := by
    rw [get_image]
    exact rows_of_glyph program within
  bytes cell within := by
    have inside : cell.val - 0x200 < program.size := by omega
    rw [get_image, initial_of_program program within.1, Array.getD_eq_getD_getElem?,
      Array.getElem?_eq_getElem inside, Option.getD_some]
  zeros cell apart beyond := by
    rw [get_image]
    by_cases below : cell.val < 0x200
    · exact initial_of_gap program (by omega)
    · have outside : program.size ≤ cell.val - 0x200 := by omega
      rw [initial_of_program program (Nat.le_of_not_lt below), Array.getD_eq_getD_getElem?,
        Array.getElem?_eq_none outside, Option.getD_none]

/-- A program is refused exactly if it has more than 3584 bytes. Any other is loaded, and along
every run each cell then holds the byte that was stored into it last: a decimal digit or a
register, by the last instruction whose run of cells had this one in it; if there was none, what
loading put there.
-/
theorem memory_follows_its_stores (program : Array UInt8) (dialect : Dialect) (random : Generator)
    : (3584 < program.size
        → Machine.load program dialect random
          = .error (.programTooLarge program.size 3584))
      ∧ (program.size ≤ 3584
        → ∃ machine,
            Machine.load program dialect random = .ok machine
            ∧ machine.memory.Loaded program
            ∧ ∀ {σ : Type} [Host σ] (host : σ) (ticks : List Tick) (cell : Fin 4096)
                (byte : UInt8),
                ((⟨machine, host⟩ : Console σ).run ticks).machine.memory.cells.get cell = byte
                ↔ (⟨machine, host⟩ : Console σ).LastStored ticks cell byte) := by
  constructor
  · intro large
    exact if_neg (Nat.not_le_of_lt large)
  · intro fits
    refine ⟨.boot program dialect random, if_pos fits, Memory.loaded_image program, ?_⟩
    intro σ _ host ticks cell byte
    exact Console.get_run_iff

/-- Three digits are stored across the end of memory and two registers over the first two of them;
the third digit stays.
-/
theorem last_digit_outlives_registers
    : ∃ machine,
        Machine.load #[0x60, 0xFE, 0xAF, 0xFF, 0xF0, 0x33, 0xF1, 0x55] .modern (.ofSeed 0)
          = .ok machine
        ∧ let console : Console Script := ⟨machine, .holding []⟩
          let ticks : List Tick :=
            [.instruction, .instruction, .timer, .instruction, .instruction, .instruction]
          console.LastStored ticks ⟨0xFFF, by decide⟩ 0xFE
          ∧ console.LastStored ticks ⟨0x000, by decide⟩ 0
          ∧ console.LastStored ticks ⟨0x001, by decide⟩ 4 := by
  let program : Array UInt8 := #[0x60, 0xFE, 0xAF, 0xFF, 0xF0, 0x33, 0xF1, 0x55]
  obtain ⟨machine, loads, _, follows⟩ :=
    (memory_follows_its_stores program .modern (.ofSeed 0)).2 (by decide)
  obtain ⟨_, rfl⟩ := Machine.load_eq_ok_iff.mp loads
  exact ⟨_, loads, (follows _ _ _ _).mp (by decide +kernel),
    (follows _ _ _ _).mp (by decide +kernel), (follows _ _ _ _).mp (by decide +kernel)⟩

end Chip8
