import Chip8.Instruction.Basic
import Chip8.Machine.Basic

/-!
What each instruction does to a machine whose program counter already points behind it. A report of
held keys is supplied to every instruction; only those that poll the host look at it.
-/

namespace Chip8

/-- The result of an operation on two operands and the operand of a shift, and the flag it gives if
it gives one. -/
def AluOp.apply (op : AluOp) (a b shifted : UInt8) : UInt8 × Option Bool :=
  match op with
  | copy => (b, none)
  | or => (a ||| b, none)
  | and => (a &&& b, none)
  | xor => (a ^^^ b, none)
  | add => (a + b, some (decide (255 < a.toNat + b.toNat)))
  | subtract => (a - b, some (decide (b ≤ a)))
  | shiftRight => (shifted >>> 1, some (shifted &&& 0x01 != 0))
  | subtractFrom => (b - a, some (decide (a < b)))
  | shiftLeft => (shifted <<< 1, some (shifted &&& 0x80 != 0))

namespace Turn

/-- A turn that polls for keys; values that name no key are noted. -/
def polling (report : List UInt8) (machine : Machine) : Turn where
  machine := machine
  calls := [.poll]
  notes := (Keypad.foreign report).map .ignoredKey

def publishing (machine : Machine) : Turn where
  machine := machine
  calls := [.publish machine.display]

end Turn

namespace Machine

/-- Register-to-register operation; the flag is written last, so it wins in the flag register. -/
def applyAlu (machine : Machine) (x y : Nibble) (op : AluOp) : Machine :=
  let a := machine.register x
  let b := machine.register y
  let (result, flag?) := op.apply a b (if machine.dialect.shiftsSecond then b else a)
  let machine := machine.setRegister x result
  match flag? with
  | some flag => machine.setFlag flag
  | none => machine

/-- Adds a register to the index register; the flag tells whether the sum, reduced to sixteen bits,
passes the last address. -/
def advanceIndex (machine : Machine) (x : Nibble) : Machine :=
  let machine := { machine with index := machine.index + (machine.register x).toUInt16 }
  if machine.dialect.keepsFlagOnIndexAdd then machine
  else machine.setFlag (decide (0x0FFF < machine.index))

/-- Flips a sprite of `n` rows at the index register onto the display. The corner wraps around the
display, the sprite does not. The flag tells whether a lit pixel went dark. -/
def drawSprite (machine : Machine) (x y n : Nibble) : Machine :=
  let rows := machine.memory.readRun machine.index n.val
  let top := (machine.register y).toNat % Frame.height
  let left := (machine.register x).toNat % Frame.width
  let layer := Frame.sprite top left rows
  { machine with display := machine.display.flip layer }.setFlag (machine.display.overlaps layer)

/-- The decimal digits of a byte, hundreds first. -/
def decimalDigits (byte : UInt8) : List UInt8 :=
  [byte / 100, byte / 10 % 10, byte % 10]

/-- Moves the index register on after a transfer of the registers up to `x`, where the dialect does
so. -/
def settleIndex (machine : Machine) (x : Nibble) : Machine :=
  if machine.dialect.advancesIndex then
    { machine with index := machine.index + UInt16.ofNat x.val }
  else machine

/-- Stores the registers up to `x` from the index register on. -/
def storeRegisters (machine : Machine) (x : Nibble) : Machine :=
  let bytes := x.upTo.map machine.register
  { machine with memory := machine.memory.writeRun machine.index bytes }.settleIndex x

/-- Loads the registers up to `x` from the index register on. -/
def loadRegisters (machine : Machine) (x : Nibble) : Machine :=
  let bytes := machine.memory.readRun machine.index (x.val + 1)
  let v := (x.upTo.zip bytes).foldl (fun v (x, byte) => replaceAt v x byte) machine.v
  { machine with v := v }.settleIndex x

/-- The register that a jump with offset adds. -/
def offsetRegister (machine : Machine) (nnn : Target) : Nibble :=
  if machine.dialect.offsetByDigit then ⟨nnn.val / 256, by omega⟩ else 0

/-- Stores the first held key, or goes back to ask again if there is none. -/
def takeKey (machine : Machine) (x : Nibble) : List Nibble → Machine
  | key :: _ => machine.setRegister x key.toByte
  | [] => { machine with pc := machine.pc - 2 }

def execute (machine : Machine) (instruction : Instruction) (report : List UInt8) : Turn :=
  match instruction with
  | .clear => .publishing { machine with display := .blank }
  | .ret =>
      match machine.stack with
      | [] => { machine := machine, fault? := some (.emptyStack machine.lastAddress) }
      | address :: rest => { machine := { machine with pc := address, stack := rest } }
  | .jump nnn => { machine := { machine with pc := UInt16.ofNat nnn.val } }
  | .call nnn =>
      { machine :=
          { machine with
            stack := machine.pc :: machine.stack
            pc := UInt16.ofNat nnn.val } }
  | .skipEqualByte x nn => { machine := machine.skipWhen (machine.register x == nn) }
  | .skipUnequalByte x nn => { machine := machine.skipWhen (machine.register x != nn) }
  | .skipEqual x y =>
      { machine := machine.skipWhen (machine.register x == machine.register y) }
  | .skipUnequal x y =>
      { machine := machine.skipWhen (machine.register x != machine.register y) }
  | .setByte x nn => { machine := machine.setRegister x nn }
  | .addByte x nn => { machine := machine.setRegister x (machine.register x + nn) }
  | .alu x y op => { machine := machine.applyAlu x y op }
  | .setIndex nnn => { machine := { machine with index := UInt16.ofNat nnn.val } }
  | .jumpOffset nnn =>
      { machine :=
          { machine with
            pc :=
              UInt16.ofNat nnn.val + (machine.register (machine.offsetRegister nnn)).toUInt16 } }
  | .random x nn =>
      { machine :=
          { machine.setRegister x (machine.random.peek &&& nn) with
            random := machine.random.advance } }
  | .draw x y n => .publishing (machine.drawSprite x y n)
  | .skipPressed x =>
      .polling report (machine.skipWhen (Keypad.isHeld report (machine.register x)))
  | .skipReleased x =>
      .polling report (machine.skipWhen (!Keypad.isHeld report (machine.register x)))
  | .awaitKey x => .polling report (machine.takeKey x (Keypad.held report))
  | .readDelay x => { machine := machine.setRegister x machine.delayTimer }
  | .setDelay x => { machine := { machine with delayTimer := machine.register x } }
  | .setSound x => { machine := { machine with soundTimer := machine.register x } }
  | .addIndex x => { machine := machine.advanceIndex x }
  | .pointGlyph x =>
      { machine := { machine with index := Glyph.address (.low (machine.register x)) } }
  | .storeDecimal x =>
      { machine :=
          { machine with
            memory :=
              machine.memory.writeRun machine.index (decimalDigits (machine.register x)) } }
  | .store x => { machine := machine.storeRegisters x }
  | .load x => { machine := machine.loadRegisters x }

end Machine

end Chip8
