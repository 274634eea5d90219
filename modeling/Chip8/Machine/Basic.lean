import Chip8.Dialect
import Chip8.Host.Basic
import Chip8.KeyStream
import Chip8.Note

/-!
The state of a machine, how it is built from a program, and how it fetches a word. Program counter,
index register and return addresses keep all sixteen bits; only memory looks at twelve of them.
-/

namespace Chip8

structure Machine where
  memory : Memory
  display : Frame
  /-- The address of the next word. -/
  pc : UInt16
  /-- The address that drawing and transfers start from. -/
  index : UInt16
  /-- The sixteen registers; the last one also holds flags. -/
  v : Vector UInt8 16
  /-- The return addresses, the latest first. -/
  stack : List UInt16
  /-- The word fetched last. -/
  fetched : Word
  delayTimer : UInt8
  soundTimer : UInt8
  dialect : Dialect
  random : Generator
  deriving DecidableEq

/-- What one cycle of a machine comes to. -/
structure Turn where
  machine : Machine
  /-- What the host was asked and told, in order. -/
  calls : List Call := []
  /-- What is noted in the journal, in order. -/
  notes : List Note := []
  fault? : Option Fault := none
  deriving DecidableEq

namespace Machine

/-- The machine that is about to execute the first word of a program that fits. -/
def boot (program : Array UInt8) (dialect : Dialect) (random : Generator) : Machine where
  memory := .image program
  display := .blank
  pc := UInt16.ofNat Memory.programStart
  index := 0
  v := Vector.replicate 16 0
  stack := []
  fetched := default
  delayTimer := 0
  soundTimer := 0
  dialect := dialect
  random := random

/-- Builds a machine; a program larger than the memory behind the start address is refused. -/
def load (program : Array UInt8) (dialect : Dialect) (random : Generator) : Except Fault Machine :=
  if program.size ≤ Memory.capacity then .ok (boot program dialect random)
  else .error (.programTooLarge program.size Memory.capacity)

/-- Reads the word at the program counter and moves on behind it. -/
def fetch (machine : Machine) : Machine :=
  { machine with
    fetched := ⟨machine.memory.read machine.pc, machine.memory.read (machine.pc + 1)⟩
    pc := machine.pc + 2 }

/-- The address of the word before the program counter, reduced to twelve bits. -/
def lastAddress (machine : Machine) : UInt16 :=
  (machine.pc - 2) % 4096

def beeping (machine : Machine) : Bool :=
  machine.soundTimer > 0

def register (machine : Machine) (x : Nibble) : UInt8 :=
  machine.v.get x

def setRegister (machine : Machine) (x : Nibble) (byte : UInt8) : Machine :=
  { machine with v := replaceAt machine.v x byte }

/-- Sets the flag register to one or zero. -/
def setFlag (machine : Machine) (flag : Bool) : Machine :=
  machine.setRegister .flag flag.toUInt8

/-- Passes over the next word if a condition holds. -/
def skipWhen (machine : Machine) (condition : Bool) : Machine :=
  if condition then { machine with pc := machine.pc + 2 } else machine

/-- Setting a register changes this register alone. -/
theorem register_setRegister (machine : Machine) (x y : Nibble) (byte : UInt8)
    : (machine.setRegister x byte).register y = if x = y then byte else machine.register y := by
  show (machine.v.set x.val byte)[y.val] = if x = y then byte else machine.v[y.val]
  simp only [Vector.getElem_set, Fin.val_inj]

end Machine

end Chip8
