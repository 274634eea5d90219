import Chip8.Proofs.Footprint

/-! Transfers between registers and memory. What is stored from the index register on is loaded from
there again, whether the run of cells wraps around or not, and decimal digits come to the number
that they were made of.
-/

namespace Chip8

-----------------------------------------------------------------------------------------
-- Runs of cells, read and written
-----------------------------------------------------------------------------------------

namespace Memory

theorem read_offset (memory : Memory) (start : UInt16) (offset : Nat)
    : memory.read (start + UInt16.ofNat offset)
      = memory.cells.get (Fin.ofNat 4096 (start.toNat + offset)) := by
  have place : cell (start + UInt16.ofNat offset) = Fin.ofNat 4096 (start.toNat + offset) :=
    Fin.ext (val_cell_add start offset)
  exact congrArg memory.cells.get place

theorem getElem?_readRun (memory : Memory) (start : UInt16) {count offset : Nat}
    (within : offset < count)
    : (memory.readRun start count)[offset]?
      = some (memory.cells.get (Fin.ofNat 4096 (start.toNat + offset))) := by
  rw [readRun, List.getElem?_map, List.getElem?_range within, Option.map_some, read_offset]

theorem write_of_held {memory : Memory} {address : UInt16} {byte : UInt8}
    (held : memory.cells.get (Fin.ofNat 4096 address.toNat) = byte)
    : memory.write address byte = memory := by
  apply congrArg Memory.mk
  subst held
  exact Vector.set_getElem_self _

/-- Writing what the cells hold changes nothing, by induction over the bytes. -/
theorem writeRun_of_held {memory : Memory} {bytes : List UInt8} {start : UInt16}
    (held
      : ∀ offset byte,
          bytes[offset]? = some byte
          → memory.cells.get (Fin.ofNat 4096 (start.toNat + offset)) = byte)
    : memory.writeRun start bytes = memory := by
  induction bytes generalizing start with
  | nil => rfl
  | cons byte rest ih =>
      rw [writeRun, write_of_held (held 0 byte rfl)]
      apply ih
      intro offset later listed
      rw [ofNat_succ]
      exact held (offset + 1) later listed

/-- The cells behind one another are apart, since memory is longer than there are registers. -/
theorem ofNat_add_injective (start : UInt16)
    : Function.Injective fun place : Nibble => Fin.ofNat 4096 (start.toNat + place.val) := by
  intro first second same
  have cells : (start.toNat + first.val) % 4096 = (start.toNat + second.val) % 4096 :=
    congrArg Fin.val same
  apply Fin.ext
  omega

end Memory

-----------------------------------------------------------------------------------------
-- Registers set one after the other
-----------------------------------------------------------------------------------------

namespace Machine

/-- A register that is listed once holds the byte listed for it, by induction over the list: later
entries are for other registers.
-/
theorem get_foldl_replaceAt_of_mem {entries : List (Nibble × UInt8)}
    (distinct : (entries.map Prod.fst).Nodup) {register : Nibble} {byte : UInt8}
    (listed : (register, byte) ∈ entries) (v : Vector UInt8 16)
    : (entries.foldl (fun v (x, byte) => replaceAt v x byte) v).get register = byte := by
  induction entries generalizing v with
  | nil => contradiction
  | cons entry rest ih =>
      obtain ⟨fresh, distinct⟩ := List.nodup_cons.mp distinct
      rcases List.mem_cons.mp listed with rfl | later
      · rw [List.foldl_cons, get_foldl_replaceAt fresh]
        exact Vector.getElem_set_self register.isLt
      · exact ih distinct later _

/-- The bytes that a load reads, each with the register that it goes to. -/
theorem mem_zip_readRun {x register : Nibble} (within : register ≤ x) (memory : Memory)
    (start : UInt16)
    : (register, memory.cells.get (Fin.ofNat 4096 (start.toNat + register.val)))
      ∈ x.upTo.zip (memory.readRun start (x.val + 1)) := by
  have place : register.val < x.val + 1 := Nat.lt_succ_of_le within
  apply List.mem_of_getElem? (i := register.val)
  rw [List.getElem?_zip_eq_some]
  exact ⟨Nibble.getElem?_upTo.mpr ⟨rfl, within⟩, memory.getElem?_readRun start place⟩

theorem nodup_zip_readRun (x : Nibble) (memory : Memory) (start : UInt16)
    : ((x.upTo.zip (memory.readRun start (x.val + 1))).map Prod.fst).Nodup := by
  have lengths : x.upTo.length ≤ (memory.readRun start (x.val + 1)).length := by
    rw [Nibble.length_upTo, Memory.length_readRun]
  rw [List.map_fst_zip lengths]
  exact (List.nodup_finRange 16).filter _

theorem register_loadRegisters {x register : Nibble} (within : register ≤ x) (machine : Machine)
    : (machine.loadRegisters x).register register
      = machine.memory.cells.get (Fin.ofNat 4096 (machine.index.toNat + register.val)) := by
  rw [loadRegisters, register_settleIndex]
  exact get_foldl_replaceAt_of_mem (nodup_zip_readRun x machine.memory machine.index)
    (mem_zip_readRun within machine.memory machine.index) machine.v

theorem toNat_index_settleIndex (machine : Machine) (x : Nibble)
    : (machine.settleIndex x).index.toNat
      = if machine.dialect.advancesIndex then (machine.index.toNat + x.val) % 65536
        else machine.index.toNat := by
  rw [settleIndex]
  split
  · show (machine.index + UInt16.ofNat x.val).toNat = _
    rw [UInt16.toNat_add, UInt16.toNat_ofNat']
    omega
  · rfl

-----------------------------------------------------------------------------------------
-- Turns that transfer
-----------------------------------------------------------------------------------------

section Turns

variable {machine : Machine} {instruction : Instruction} {turn : Turn}

theorem Executes.memory (executes : machine.Executes instruction turn)
    : turn.machine.memory = machine.memory.writeRun machine.index (machine.stored instruction) := by
  obtain ⟨fetched, pc, report, notes, rfl⟩ := executes.turn_eq
  exact execute_memory _ instruction report

theorem Executes.get_of_stored (executes : machine.Executes instruction turn) {offset : Nat}
    {byte : UInt8} (listed : (machine.stored instruction)[offset]? = some byte)
    : turn.machine.memory.cells.get (Fin.ofNat 4096 (machine.index.toNat + offset)) = byte := by
  rw [executes.memory]
  exact Memory.get_writeRun (machine.length_stored instruction) rfl listed machine.memory

/-- An instruction that stores no further than up to a place leaves the cells alone that are apart
from these.
-/
theorem Executes.get_of_outside (executes : machine.Executes instruction turn) {bound : Nibble}
    (reach : instruction.reach = bound.val + 1) {cell : Fin 4096}
    (outside : ∀ place ≤ bound, Fin.ofNat 4096 (machine.index.toNat + place.val) ≠ cell)
    : turn.machine.memory.cells.get cell = machine.memory.cells.get cell := by
  rw [executes.memory]
  apply Memory.get_writeRun_of_outside
  rw [length_stored_eq, reach]
  intro offset within
  have small : offset < 16 := Nat.lt_of_lt_of_le within bound.isLt
  exact outside ⟨offset, small⟩ (Nat.le_of_lt_succ within)

theorem getElem?_stored_store {x place : Nibble} (within : place ≤ x) (machine : Machine)
    : (machine.stored (.store x))[place.val]? = some (machine.register place) := by
  have listed : x.upTo[place.val]? = some place := Nibble.getElem?_upTo.mpr ⟨rfl, within⟩
  rw [stored, List.getElem?_map, listed, Option.map_some]

variable {x : Nibble}

theorem Executes.register_of_load (executes : machine.Executes (.load x) turn) {register : Nibble}
    (within : register ≤ x)
    : turn.machine.register register
      = machine.memory.cells.get (Fin.ofNat 4096 (machine.index.toNat + register.val)) := by
  obtain ⟨fetched, pc, report, notes, rfl⟩ := executes.turn_eq
  exact register_loadRegisters within _

theorem Executes.register_beyond_load (executes : machine.Executes (.load x) turn)
    {register : Nibble} (beyond : x < register)
    : turn.machine.register register = machine.register register := by
  obtain ⟨fetched, pc, report, notes, rfl⟩ := executes.turn_eq
  exact register_loadRegisters_of_not_mem (by simpa using beyond) _

theorem Executes.index_of_transfer (executes : machine.Executes instruction turn)
    (transfers : instruction = .store x ∨ instruction = .load x)
    : turn.machine.index.toNat
      = if machine.dialect.advancesIndex then (machine.index.toNat + x.val) % 65536
        else machine.index.toNat := by
  obtain ⟨fetched, pc, report, notes, rfl⟩ := executes.turn_eq
  rcases transfers with rfl | rfl <;> exact toNat_index_settleIndex _ x

/-- Behind a store, the registers stored are loaded from the same cells. -/
theorem Executes.register_of_save (saves : machine.Executes (.store x) turn) {between : Machine}
    {load : Turn} (memory : between.memory = turn.machine.memory)
    (index : between.index = machine.index) (loads : between.Executes (.load x) load)
    {register : Nibble} (within : register ≤ x)
    : load.machine.register register = machine.register register := by
  rw [loads.register_of_load within, memory, index]
  exact saves.get_of_stored (getElem?_stored_store within machine)

theorem Executes.memory_of_load (executes : machine.Executes (.load x) turn)
    : turn.machine.memory = machine.memory :=
  executes.memory

/-- Behind a load, a store into the same cells writes what they hold. -/
theorem Executes.memory_of_restore (loads : machine.Executes (.load x) turn) {between : Machine}
    {save : Turn} (memory : between.memory = turn.machine.memory)
    (v : between.v = turn.machine.v) (index : between.index = machine.index)
    (saves : between.Executes (.store x) save)
    : save.machine.memory = machine.memory := by
  rw [saves.memory, index, memory, loads.memory_of_load]
  apply Memory.writeRun_of_held
  intro offset byte listed
  rw [stored, List.getElem?_map] at listed
  obtain ⟨register, found, rfl⟩ := Option.map_eq_some_iff.mp listed
  obtain ⟨rfl, within⟩ := Nibble.getElem?_upTo.mp found
  have same : between.register register = turn.machine.register register :=
    congrArg (Vector.get · register) v
  rw [same, loads.register_of_load within]

end Turns

end Machine

/-- Registers that are stored come back when they are loaded at the same address from the memory
that the store left, whatever the registers hold by then, and those that are not loaded keep what
they hold by then. The store changes only the cells behind one another from the index register on,
one for each register and all of them apart, and the load changes none. A store behind a load, with
the registers as loaded and at the same address, leaves memory as it was. Either moves the index
register on by the number of the last register if the dialect does so, and leaves it alone if not.
-/
theorem saved_registers_come_back (x : Nibble)
    : (∀ (machine between : Machine) (save load : Turn),
        machine.Executes (.store x) save
        → between.memory = save.machine.memory
        → between.index = machine.index
        → between.Executes (.load x) load
        → (∀ register ≤ x, load.machine.register register = machine.register register)
          ∧ (∀ register, x < register
            → load.machine.register register = between.register register)
          ∧ load.machine.memory = save.machine.memory
          ∧ (∀ cell,
              (∀ place ≤ x, Fin.ofNat 4096 (machine.index.toNat + place.val) ≠ cell)
              → save.machine.memory.cells.get cell = machine.memory.cells.get cell)
          ∧ Function.Injective
              fun place : Nibble => Fin.ofNat 4096 (machine.index.toNat + place.val))
      ∧ (∀ (machine between : Machine) (load save : Turn),
          machine.Executes (.load x) load
          → between.memory = load.machine.memory
          → between.v = load.machine.v
          → between.index = machine.index
          → between.Executes (.store x) save
          → save.machine.memory = machine.memory)
      ∧ ∀ (machine : Machine) (instruction : Instruction) (turn : Turn),
          instruction = .store x ∨ instruction = .load x
          → machine.Executes instruction turn
          → turn.machine.index.toNat
            = if machine.dialect.advancesIndex then (machine.index.toNat + x.val) % 65536
              else machine.index.toNat := by
  refine ⟨?_, ?_, ?_⟩
  · intro machine between save load saves memory index loads
    refine ⟨fun register within => saves.register_of_save memory index loads within,
      fun register beyond => loads.register_beyond_load beyond,
      loads.memory_of_load.trans memory, fun cell outside => saves.get_of_outside rfl outside,
      Memory.ofNat_add_injective machine.index⟩
  · intro machine between load save loads memory v index saves
    exact loads.memory_of_restore memory v index saves
  · intro machine instruction turn transfers executes
    exact executes.index_of_transfer transfers

/-- Three registers are stored across the end of memory and come back behind cycles, after all
registers were set to zero and the index register went back; then they are stored where they are.
-/
theorem registers_come_back_across_wrap
    : let machine : Machine :=
        { Machine.boot #[0xF2, 0x55, 0xF2, 0x65, 0xF2, 0x55] .cosmacVip (.ofSeed 0) with
          index := 0xFFFE
          v := (Vector.replicate 16 0x0A).set 1 0x0B }
      let save := machine.cycle []
      let between := { save.machine with v := .replicate 16 0, index := machine.index }
      let load := between.cycle []
      let restored := { load.machine with index := machine.index }
      let again := restored.cycle []
      load.machine.register 0 = 0x0A
      ∧ load.machine.register 1 = 0x0B
      ∧ load.machine.register 3 = 0
      ∧ load.machine.index = 0x0000
      ∧ save.machine.memory.cells.get 0x001 = 0
      ∧ again.machine.memory = between.memory := by
  intro machine save between load restored again
  have saves : machine.Executes (.store 2) save := .met [] (by decide +kernel)
  have loads : between.Executes (.load 2) load := .met [] (by decide +kernel)
  have saves' : restored.Executes (.store 2) again := .met [] (by decide +kernel)
  obtain ⟨loaded, beyond, _, outside, _⟩ :=
    (saved_registers_come_back 2).1 machine between save load saves rfl rfl loads
  have moved := (saved_registers_come_back 2).2.2 between _ load (.inr rfl) loads
  exact ⟨loaded 0 (by decide), loaded 1 (by decide), beyond 3 (by decide),
    UInt16.toNat_inj.mp (moved.trans (by decide +kernel)),
    (outside 0x001 (by decide +kernel)).trans (by decide +kernel),
    (saved_registers_come_back 2).2.1 between restored load again loads rfl rfl rfl saves'⟩

-----------------------------------------------------------------------------------------
-- Decimal digits
-----------------------------------------------------------------------------------------

namespace Machine

/-- The three digits of a byte are digits and come to the byte. -/
theorem digits_of_byte (byte : UInt8)
    : (byte / 100).toNat ≤ 9
      ∧ (byte / 10 % 10).toNat ≤ 9
      ∧ (byte % 10).toNat ≤ 9
      ∧ 100 * (byte / 100).toNat + 10 * (byte / 10 % 10).toNat + (byte % 10).toNat
        = byte.toNat := by
  have bound := byte.toNat_lt
  simp only [UInt8.toNat_div, UInt8.toNat_mod, UInt8.reduceToNat]
  omega

variable {machine : Machine} {x : Nibble} {turn : Turn}

theorem Executes.index_of_storeDecimal (executes : machine.Executes (.storeDecimal x) turn)
    : turn.machine.index = machine.index := by
  obtain ⟨fetched, pc, report, notes, rfl⟩ := executes.turn_eq
  rfl

theorem Executes.register_of_storeDecimal (executes : machine.Executes (.storeDecimal x) turn)
    (register : Nibble)
    : turn.machine.register register = machine.register register := by
  obtain ⟨fetched, pc, report, notes, rfl⟩ := executes.turn_eq
  rfl

end Machine

/-- The decimal digits of a register, stored from the index register on and loaded from there into
the first three registers, are digits and come to what the register held, also if it is one of
these three. The other registers keep their bytes, and between the two only the cells that hold the
digits have changed.
-/
theorem loaded_digits_come_to_their_byte {machine : Machine} {x : Nibble} {write load : Turn}
    (writes : machine.Executes (.storeDecimal x) write)
    (loads : write.machine.Executes (.load 2) load)
    : (∀ register ≤ (2 : Nibble), (load.machine.register register).toNat ≤ 9)
      ∧ 100 * (load.machine.register 0).toNat + 10 * (load.machine.register 1).toNat
          + (load.machine.register 2).toNat
        = (machine.register x).toNat
      ∧ (∀ register, 2 < register
        → load.machine.register register = machine.register register)
      ∧ (∀ cell,
          (∀ place ≤ (2 : Nibble), Fin.ofNat 4096 (machine.index.toNat + place.val) ≠ cell)
          → write.machine.memory.cells.get cell = machine.memory.cells.get cell)
      ∧ ∀ place ≤ (2 : Nibble),
          write.machine.memory.cells.get (Fin.ofNat 4096 (machine.index.toNat + place.val))
          = load.machine.register place := by
  have held
      : ∀ place ≤ (2 : Nibble),
          write.machine.memory.cells.get (Fin.ofNat 4096 (machine.index.toNat + place.val))
          = load.machine.register place := by
    intro place within
    rw [loads.register_of_load within, writes.index_of_storeDecimal]
  have hundreds : load.machine.register 0 = machine.register x / 100 :=
    (held 0 (by decide)).symm.trans (writes.get_of_stored rfl)
  have tens : load.machine.register 1 = machine.register x / 10 % 10 :=
    (held 1 (by decide)).symm.trans (writes.get_of_stored rfl)
  have ones : load.machine.register 2 = machine.register x % 10 :=
    (held 2 (by decide)).symm.trans (writes.get_of_stored rfl)
  obtain ⟨first, second, third, sum⟩ := Machine.digits_of_byte (machine.register x)
  rw [← hundreds, ← tens, ← ones] at sum
  rw [← hundreds] at first
  rw [← tens] at second
  rw [← ones] at third
  have three : ∀ register ≤ (2 : Nibble), register = 0 ∨ register = 1 ∨ register = 2 := by
    decide
  refine ⟨?_, sum, ?_, fun cell outside => writes.get_of_outside rfl outside, held⟩
  · intro register within
    rcases three register within with rfl | rfl | rfl
    · exact first
    · exact second
    · exact third
  · intro register beyond
    rw [loads.register_beyond_load beyond, writes.register_of_storeDecimal]

/-- The digits of 254 are stored across the end of memory from one of the registers that they are
loaded into.
-/
theorem digits_of_overwritten_register_come_to_its_byte
    : let machine : Machine :=
        { Machine.boot #[0xF1, 0x33, 0xF2, 0x65] .modern (.ofSeed 0) with
          index := 0xFFFF
          v := .replicate 16 0xFE }
      let write := machine.cycle []
      let load := write.machine.cycle []
      100 * (load.machine.register 0).toNat + 10 * (load.machine.register 1).toNat
          + (load.machine.register 2).toNat
        = 254
      ∧ load.machine.register 3 = 0xFE
      ∧ write.machine.memory.cells.get 0x001 = load.machine.register 2
      ∧ write.machine.memory.cells.get 0x002 = 0 := by
  intro machine write load
  have writes : machine.Executes (.storeDecimal 1) write := .met [] (by decide +kernel)
  have loads : write.machine.Executes (.load 2) load := .met [] (by decide +kernel)
  obtain ⟨_, sum, others, outside, held⟩ := loaded_digits_come_to_their_byte writes loads
  have third : Fin.ofNat 4096 (machine.index.toNat + (2 : Nibble).val) = 0x001 := by
    decide +kernel
  exact ⟨sum, others 3 (by decide), third ▸ held 2 (by decide),
    (outside 0x002 (by decide +kernel)).trans (by decide +kernel)⟩

end Chip8
