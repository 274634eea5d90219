import Chip8.Glyph
import Chip8.Table

/-!
Four kilobytes of memory. Addresses are sixteen bits wide and only their low twelve bits select a
cell, so every address is valid and runs of cells wrap around.
-/

namespace Chip8

/-- The cells of a machine, one byte each. -/
structure Memory where
  cells : Vector UInt8 4096
  deriving DecidableEq

namespace Memory

def size : Nat := 4096

/-- The address at which programs are loaded. -/
def programStart : Nat := 0x200

/-- The largest program that fits. -/
def capacity : Nat := size - programStart

def cell (address : UInt16) : Fin 4096 :=
  ⟨address.toNat % 4096, Nat.mod_lt _ (by decide)⟩

def read (memory : Memory) (address : UInt16) : UInt8 :=
  memory.cells[cell address]

def write (memory : Memory) (address : UInt16) (byte : UInt8) : Memory where
  cells := memory.cells.set (cell address) byte

/-- The bytes of `count` cells from `start` on. -/
def readRun (memory : Memory) (start : UInt16) (count : Nat) : List UInt8 :=
  (List.range count).map fun offset => memory.read (start + UInt16.ofNat offset)

/-- Replaces as many cells from `start` on as there are bytes, in order. -/
def writeRun (memory : Memory) (start : UInt16) : List UInt8 → Memory
  | [] => memory
  | byte :: rest => (memory.write start byte).writeRun (start + 1) rest

/-- What a cell holds before the first instruction: a glyph row, a byte of the program or zero. -/
def initial (program : Array UInt8) (cell : Fin 4096) : UInt8 :=
  if Glyph.base ≤ cell.val ∧ cell.val < Glyph.limit then
    Glyph.rows.toArray.getD (cell.val - Glyph.base) 0
  else if programStart ≤ cell.val then program.getD (cell.val - programStart) 0
  else 0

/-- Memory with the glyphs and a program in place. -/
def image (program : Array UInt8) : Memory where
  cells := tabulate (initial program)

/-- A write changes the one cell that its address selects. -/
theorem read_write (memory : Memory) (address other : UInt16) (byte : UInt8)
    : (memory.write address byte).read other
      = if cell address = cell other then byte else memory.read other := by
  simp only [read, write, Fin.getElem_fin, Vector.getElem_set, Fin.val_inj]

end Memory

end Chip8
