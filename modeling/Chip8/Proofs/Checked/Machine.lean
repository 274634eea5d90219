import Chip8.Proofs.Checked.Basic
import Chip8.Proofs.Provenance

/-! A machine all of whose operations are checked. Each function here takes the steps that an
interpreter without bounds in its types takes, one checked operation after the other, and is shown
to come to what the machine itself comes to: no check ever refuses anything.
-/

namespace Chip8.Checked

-----------------------------------------------------------------------------------------
-- Memory
-----------------------------------------------------------------------------------------

/-- Reads the cell that the low twelve bits of an address select. -/
def read (memory : Memory) (address : UInt16) : Checked UInt8 :=
  entry memory.cells (address &&& 0x0FFF).toNat

def write (memory : Memory) (address : UInt16) (byte : UInt8) : Checked Memory := do
  return { cells := ← replace memory.cells (address &&& 0x0FFF).toNat byte }

theorem toNat_mask (address : UInt16) : (address &&& 0x0FFF).toNat = (Memory.cell address).val := by
  rw [UInt16.toNat_and]
  exact Nat.and_two_pow_sub_one_eq_mod address.toNat 12

@[simp] theorem read_eq (memory : Memory) (address : UInt16)
    : read memory address = .ok (memory.read address) := by
  rw [read, toNat_mask, entry_fin]
  rfl

@[simp] theorem write_eq (memory : Memory) (address : UInt16) (byte : UInt8)
    : write memory address byte = .ok (memory.write address byte) := by
  rw [write, toNat_mask, replace_fin]
  rfl

-----------------------------------------------------------------------------------------
-- Loading
-----------------------------------------------------------------------------------------

/-- Builds a machine: copies the glyphs, then the program if its end lies within memory. -/
def load (program : Array UInt8) (dialect : Dialect) (random : Generator)
    : Checked (Except Fault Machine) := do
  let cells := Vector.replicate 4096 0
  let cells ← copyInto cells Glyph.base (← plus Glyph.base Glyph.rows.size) Glyph.rows.toList
  let programEnd ← plus Memory.programStart program.size
  if Memory.programStart ≤ programEnd ∧ programEnd ≤ Memory.size then
    let cells ← copyInto cells Memory.programStart programEnd program.toList
    return .ok { Machine.boot program dialect random with memory := { cells } }
  else
    return .error (.programTooLarge program.size (← minus Memory.size Memory.programStart))

theorem get_zeros (cell : Fin 4096) : (Vector.replicate 4096 (0 : UInt8)).get cell = 0 :=
  Vector.getElem_replicate cell.isLt

/-- The glyphs, copied into zeros, are what memory starts with below the program. -/
theorem get_overlay_glyphs (program : Array UInt8) {cell : Fin 4096} (low : cell.val < 0x200)
    : (overlay (Vector.replicate 4096 0) Glyph.base Glyph.rows.toList).get cell
      = Memory.initial program cell := by
  rw [get_overlay, get_zeros, Vector.getElem?_toList]
  by_cases before : cell.val < Glyph.base
  · rw [if_pos before, Memory.initial_of_gap program (.inl before)]
  · rw [if_neg before]
    by_cases behind : 0x9F < cell.val
    · rw [Memory.initial_of_gap program (.inr ⟨behind, low⟩), Vector.getElem?_eq_none]
      · rfl
      · show 80 ≤ cell.val - 0x50
        omega
    · have within : 0x50 ≤ cell.val ∧ cell.val ≤ 0x9F :=
        ⟨Nat.not_lt.mp before, Nat.not_lt.mp behind⟩
      rw [show Glyph.base = 0x50 from rfl, Memory.rows_of_glyph program within, Option.getD_some]

/-- Glyphs and program, copied into zeros, are what memory starts with. -/
theorem overlay_program (program : Array UInt8)
    : overlay (overlay (Vector.replicate 4096 0) Glyph.base Glyph.rows.toList) Memory.programStart
          program.toList
        = (Memory.image program).cells := by
  apply ext_get
  intro cell
  rw [get_overlay, Memory.get_image]
  by_cases low : cell.val < Memory.programStart
  · rw [if_pos low, get_overlay_glyphs program low]
  · have high : 0x200 ≤ cell.val := Nat.not_lt.mp low
    have behind : Glyph.rows.toList.length ≤ cell.val - Glyph.base := by
      rw [Vector.length_toList, Glyph.base]
      omega
    rw [if_neg low, get_overlay, if_neg (by rw [Glyph.base]; omega), List.getElem?_eq_none behind,
      Option.getD_none, get_zeros, Memory.initial_of_program program high,
      Array.getD_eq_getD_getElem?, Array.getElem?_toList]
    rfl

theorem load_eq {program : Array UInt8} (size : program.size ≤ 9223372036854775807)
    (dialect : Dialect) (random : Generator)
    : load program dialect random = .ok (Machine.load program dialect random) := by
  have glyphsEnd : plus Glyph.base Glyph.rows.size = .ok (Glyph.base + Glyph.rows.size) := rfl
  have programEnd
      : plus Memory.programStart program.size = .ok (Memory.programStart + program.size) :=
    plus_of_small (by simp only [Memory.programStart, UInt64.size]; omega)
  have capacity : minus Memory.size Memory.programStart = .ok Memory.capacity := rfl
  rw [load, glyphsEnd, ok_bind, copyInto_of_fits _ (by decide) (by decide), ok_bind, programEnd,
    ok_bind, Machine.load]
  by_cases fits : program.size ≤ Memory.capacity
  · have inside : Memory.programStart ≤ Memory.programStart + program.size
        ∧ Memory.programStart + program.size ≤ Memory.size := by
      simp only [Memory.capacity, Memory.size, Memory.programStart] at fits ⊢
      omega
    have length
        : program.toList.length = Memory.programStart + program.size - Memory.programStart := by
      rw [Array.length_toList, Nat.add_sub_cancel_left]
    rw [if_pos inside, copyInto_of_fits (n := 4096) _ inside length, ok_bind, overlay_program,
      if_pos fits]
    rfl
  · have outside : ¬(Memory.programStart ≤ Memory.programStart + program.size
        ∧ Memory.programStart + program.size ≤ Memory.size) := by
      simp only [Memory.capacity, Memory.size, Memory.programStart] at fits ⊢
      omega
    rw [if_neg outside, capacity, ok_bind, if_neg fits]
    rfl

-----------------------------------------------------------------------------------------
-- Fetching and decoding
-----------------------------------------------------------------------------------------

def fetch (machine : Machine) : Checked Machine := do
  let high ← read machine.memory machine.pc
  let low ← read machine.memory (machine.pc + 1)
  return { machine with fetched := ⟨high, low⟩, pc := machine.pc + 2 }

/-- Cuts a word into its four digits and looks for the instruction that is written with them. -/
def decode (word : Word) : Checked (Option Instruction) := do
  let family ← digit (← shiftRight word.high 4)
  let x ← digit (word.high &&& 0x0F)
  let y ← digit (← shiftRight word.low 4)
  let n ← digit (word.low &&& 0x0F)
  return Instruction.decode? (.ofDigits family x y n)

@[simp] theorem fetch_eq (machine : Machine) : fetch machine = .ok machine.fetch := by
  simp [fetch, Machine.fetch]

theorem low_mask (byte : UInt8) : byte &&& 0x0F = (Nibble.low byte).toByte := by
  apply UInt8.toNat_inj.mp
  rw [Nibble.toNat_toByte, UInt8.toNat_and]
  exact Nat.and_two_pow_sub_one_eq_mod byte.toNat 4

theorem shiftRight_four (byte : UInt8) : shiftRight byte 4 = .ok (Nibble.high byte).toByte := by
  rw [shiftRight_of_small (by decide)]
  apply congrArg Except.ok
  apply UInt8.toNat_inj.mp
  rw [Nibble.toNat_toByte]
  exact Nat.shiftRight_eq_div_pow byte.toNat 4

@[simp] theorem digit_low (byte : UInt8) : digit (byte &&& 0x0F) = .ok (Nibble.low byte) := by
  rw [low_mask, digit_toByte]

@[simp] theorem decode_eq (word : Word) : decode word = .ok (Instruction.decode? word) := by
  simp only [decode, shiftRight_four, ok_bind, digit_toByte, digit_low, pure_eq_ok]
  exact congrArg (Except.ok ∘ Instruction.decode?) word.ofDigits_eq

-----------------------------------------------------------------------------------------
-- Registers
-----------------------------------------------------------------------------------------

def register (machine : Machine) (x : Nibble) : Checked UInt8 :=
  entry machine.v x.val

def setRegister (machine : Machine) (x : Nibble) (byte : UInt8) : Checked Machine := do
  return { machine with v := ← replace machine.v x.val byte }

def setFlag (machine : Machine) (flag : Bool) : Checked Machine :=
  setRegister machine .flag flag.toUInt8

@[simp] theorem register_eq (machine : Machine) (x : Nibble)
    : register machine x = .ok (machine.register x) :=
  entry_fin machine.v x

@[simp] theorem setRegister_eq (machine : Machine) (x : Nibble) (byte : UInt8)
    : setRegister machine x byte = .ok (machine.setRegister x byte) := by
  rw [setRegister, replace_fin]
  rfl

@[simp] theorem setFlag_eq (machine : Machine) (flag : Bool)
    : setFlag machine flag = .ok (machine.setFlag flag) :=
  setRegister_eq machine .flag flag.toUInt8

def applyAlu (machine : Machine) (x y : Nibble) (op : AluOp) : Checked Machine := do
  let a ← register machine x
  let b ← register machine y
  let shifted := if machine.dialect.shiftsSecond then b else a
  let (result, flag?) ← match op with
    | .shiftRight => do pure (← shiftRight shifted 1, some (shifted &&& 0x01 != 0))
    | .shiftLeft => do pure (← shiftLeft shifted 1, some (shifted &&& 0x80 != 0))
    | op => pure (op.apply a b shifted)
  let machine ← setRegister machine x result
  match flag? with
  | some flag => setFlag machine flag
  | none => return machine

@[simp] theorem applyAlu_eq (machine : Machine) (x y : Nibble) (op : AluOp)
    : applyAlu machine x y op = .ok (machine.applyAlu x y op) := by
  cases op <;> simp [applyAlu, Machine.applyAlu, AluOp.apply, shiftRight, shiftLeft]

def advanceIndex (machine : Machine) (x : Nibble) : Checked Machine := do
  let machine := { machine with index := machine.index + (← register machine x).toUInt16 }
  if machine.dialect.keepsFlagOnIndexAdd then return machine
  else setFlag machine (decide (0x0FFF < machine.index))

@[simp] theorem advanceIndex_eq (machine : Machine) (x : Nibble)
    : advanceIndex machine x = .ok (machine.advanceIndex x) := by
  simp only [advanceIndex, Machine.advanceIndex, register_eq, ok_bind, setFlag_eq, pure_eq_ok]
  split <;> rfl

/-- The register that a jump with offset adds; the digit is cut from its target. -/
def offsetRegister (machine : Machine) (nnn : Target) : Checked Nibble := do
  if machine.dialect.offsetByDigit then
    let top ← shiftRightWide (UInt16.ofNat nnn.val) 8
    digit (top.toUInt8 &&& 0x0F)
  else digit 0

theorem shiftRightWide_eight (nnn : Target)
    : shiftRightWide (UInt16.ofNat nnn.val) 8 = .ok (UInt16.ofNat (nnn.val / 256)) := by
  apply congrArg Except.ok
  apply UInt16.toNat_inj.mp
  simp only [UInt16.toNat_shiftRight, UInt16.toNat_ofNat', Nat.shiftRight_eq_div_pow,
    Nat.reducePow, Nat.reduceMod]
  omega

@[simp] theorem offsetRegister_eq (machine : Machine) (nnn : Target)
    : offsetRegister machine nnn = .ok (machine.offsetRegister nnn) := by
  rw [offsetRegister, Machine.offsetRegister]
  split
  · rw [shiftRightWide_eight, ok_bind, digit_low]
    apply congrArg Except.ok
    apply Fin.ext
    show (UInt16.ofNat (nnn.val / 256)).toUInt8.toNat % 16 = nnn.val / 256
    rw [UInt16.toNat_toUInt8, UInt16.toNat_ofNat']
    omega
  · rfl

/-- The address of the glyph of the low digit of a byte. -/
def glyphAddress (byte : UInt8) : Checked UInt16 := do
  return UInt16.ofNat (← plus Glyph.base (← times (byte &&& 0x0F).toNat Glyph.height))

@[simp] theorem glyphAddress_eq (byte : UInt8)
    : glyphAddress byte = .ok (Glyph.address (.low byte)) := by
  have bound := (Nibble.low byte).isLt
  have product
      : times (Nibble.low byte).toByte.toNat Glyph.height
        = .ok (Glyph.height * (Nibble.low byte).val) := by
    rw [Nibble.toNat_toByte, Nat.mul_comm Glyph.height]
    exact times_of_small (by simp only [Glyph.height, UInt64.size]; omega)
  rw [glyphAddress, low_mask, product, ok_bind, plus_of_small, ok_bind]
  · rfl
  · simp only [Glyph.base, Glyph.height, UInt64.size]
    omega

-----------------------------------------------------------------------------------------
-- Transfers
-----------------------------------------------------------------------------------------

/-- Writes the three decimal digits of a register, each behind a division. -/
def storeDecimal (machine : Machine) (x : Nibble) : Checked Machine := do
  let value ← register machine x
  let memory ← write machine.memory machine.index (← quotient value 100)
  let memory ← write memory (machine.index + 1) (← remainder (← quotient value 10) 10)
  let memory ← write memory (machine.index + 2) (← remainder value 10)
  return { machine with memory }

@[simp] theorem storeDecimal_eq (machine : Machine) (x : Nibble)
    : storeDecimal machine x
      = .ok
          { machine with
            memory :=
              machine.memory.writeRun machine.index
                (Machine.decimalDigits (machine.register x)) } := by
  have third : machine.index + 1 + 1 = machine.index + 2 := UInt16.add_assoc _ _ _
  have hundreds := quotient_of_ne (by decide : (100 : UInt8) ≠ 0) (machine.register x)
  have tens := quotient_of_ne (by decide : (10 : UInt8) ≠ 0) (machine.register x)
  have ones (value : UInt8) := remainder_of_ne (by decide : (10 : UInt8) ≠ 0) value
  simp only [storeDecimal, register_eq, hundreds, tens, ones, ok_bind, write_eq, pure_eq_ok,
    Machine.decimalDigits, Memory.writeRun, third]

/-- One round of a store: the register with the number of the round goes that far behind the index
register.
-/
def storeRound (machine : Machine) (offset : Nat) : Checked Machine := do
  let byte ← register machine (← digit (UInt8.ofNat offset))
  let memory ← write machine.memory (machine.index + UInt16.ofNat offset) byte
  return { machine with memory }

def storeRegisters (machine : Machine) (x : Nibble) : Checked Machine := do
  let machine ← (List.range (x.val + 1)).foldlM storeRound machine
  return machine.settleIndex x

/-- One round of a load, from as far behind the index register as the number of the round. -/
def loadRound (machine : Machine) (offset : Nat) : Checked Machine := do
  let x ← digit (UInt8.ofNat offset)
  setRegister machine x (← read machine.memory (machine.index + UInt16.ofNat offset))

def loadRegisters (machine : Machine) (x : Nibble) : Checked Machine := do
  let machine ← (List.range (x.val + 1)).foldlM loadRound machine
  return machine.settleIndex x

/-- The registers before a place, in order. -/
def firstRegisters (count : Nat) : List Nibble :=
  (List.finRange 16).take count

theorem firstRegisters_succ {count : Nat} (small : count < 16)
    : firstRegisters (count + 1) = firstRegisters count ++ [⟨count, small⟩] := by
  have inside : count < (List.finRange 16).length := by rwa [List.length_finRange]
  rw [firstRegisters, List.take_add_one, List.getElem?_eq_getElem inside, List.getElem_finRange]
  rfl

theorem length_firstRegisters {count : Nat} (small : count < 16)
    : (firstRegisters count).length = count := by
  rw [firstRegisters, List.length_take, List.length_finRange]
  omega

theorem digit_ofNat {place : Nat} (small : place < 16)
    : digit (UInt8.ofNat place) = .ok ⟨place, small⟩ :=
  digit_toByte ⟨place, small⟩

theorem writeRun_concat (memory : Memory) (start : UInt16) (bytes : List UInt8) (byte : UInt8)
    : memory.writeRun start (bytes ++ [byte])
      = (memory.writeRun start bytes).write (start + UInt16.ofNat bytes.length) byte := by
  induction bytes generalizing memory start with
  | nil =>
      rw [List.nil_append, List.length_nil, Memory.writeRun, Memory.writeRun, Memory.writeRun]
      exact congrArg (memory.write · byte) (UInt16.add_zero start).symm
  | cons first rest ih =>
      have later
          : start + 1 + UInt16.ofNat rest.length = start + UInt16.ofNat (rest.length + 1) := by
        rw [UInt16.add_assoc, UInt16.add_comm 1, UInt16.ofNat_add]
        rfl
      rw [List.cons_append, Memory.writeRun, ih, later]
      rfl

/-- The machine after some rounds of a store. -/
def storedBefore (machine : Machine) (count : Nat) : Machine :=
  { machine with
    memory := machine.memory.writeRun machine.index ((firstRegisters count).map machine.register) }

theorem storeRound_storedBefore (machine : Machine) {offset : Nat} (small : offset < 16)
    : storeRound (storedBefore machine offset) offset
      = .ok (storedBefore machine (offset + 1)) := by
  simp only [storeRound, digit_ofNat small, ok_bind, register_eq, write_eq, pure_eq_ok]
  rw [storedBefore, storedBefore, firstRegisters_succ small, List.map_append, List.map_singleton,
    writeRun_concat, List.length_map, length_firstRegisters small]
  rfl

@[simp] theorem storeRegisters_eq (machine : Machine) (x : Nibble)
    : storeRegisters machine x = .ok (machine.storeRegisters x) := by
  have loop
      : (List.range (x.val + 1)).foldlM storeRound machine
        = .ok (storedBefore machine (x.val + 1)) :=
    foldlM_range_eq (storedBefore machine) fun _ before =>
      storeRound_storedBefore machine (Nat.lt_of_lt_of_le before x.isLt)
  rw [storeRegisters, loop, ok_bind, storedBefore, firstRegisters, ← Nibble.upTo_eq_take]
  rfl

theorem readRun_succ (memory : Memory) (start : UInt16) (count : Nat)
    : memory.readRun start (count + 1)
      = memory.readRun start count ++ [memory.read (start + UInt16.ofNat count)] := by
  rw [Memory.readRun, List.range_succ, List.map_append, List.map_singleton]
  rfl

/-- The machine after some rounds of a load. -/
def loadedBefore (machine : Machine) (count : Nat) : Machine :=
  { machine with
    v :=
      ((firstRegisters count).zip (machine.memory.readRun machine.index count)).foldl
        (fun v (x, byte) => replaceAt v x byte) machine.v }

theorem loadRound_loadedBefore (machine : Machine) {offset : Nat} (small : offset < 16)
    : loadRound (loadedBefore machine offset) offset
      = .ok (loadedBefore machine (offset + 1)) := by
  have lengths
      : (firstRegisters offset).length = (machine.memory.readRun machine.index offset).length := by
    rw [length_firstRegisters small, Memory.length_readRun]
  simp only [loadRound, digit_ofNat small, ok_bind, read_eq, setRegister_eq]
  rw [loadedBefore, loadedBefore, firstRegisters_succ small, readRun_succ, List.zip_append lengths,
    List.foldl_append]
  rfl

@[simp] theorem loadRegisters_eq (machine : Machine) (x : Nibble)
    : loadRegisters machine x = .ok (machine.loadRegisters x) := by
  have loop
      : (List.range (x.val + 1)).foldlM loadRound machine
        = .ok (loadedBefore machine (x.val + 1)) :=
    foldlM_range_eq (loadedBefore machine) fun _ before =>
      loadRound_loadedBefore machine (Nat.lt_of_lt_of_le before x.isLt)
  rw [loadRegisters, loop, ok_bind, loadedBefore, firstRegisters, ← Nibble.upTo_eq_take]
  rfl

end Chip8.Checked
