import Chip8.Instruction.Basic

/-!
How an instruction is written in listings and in the trace: its name, then its operands by role.
-/

namespace Chip8

/-- An operand of an instruction, as listings tell them apart. -/
inductive Operand where
  | digit (value : Nibble)
  | byte (value : UInt8)
  | target (value : Target)
  | operation (value : AluOp)
  deriving DecidableEq, Repr

def AluOp.name : AluOp → String
  | copy => "Set"
  | or => "Or"
  | and => "And"
  | xor => "Xor"
  | add => "Add"
  | subtract => "Sub"
  | shiftRight => "ShiftRight"
  | subtractFrom => "SubReverse"
  | shiftLeft => "ShiftLeft"

/-- An operand in the trace: digits carry their width, all numbers are decimal. -/
def Operand.text : Operand → String
  | digit value => "u4(" ++ toString value.val ++ ")"
  | byte value => toString value.toNat
  | target value => toString value.val
  | operation value => value.name

namespace Instruction

def name : Instruction → String
  | clear => "ClearDisplay"
  | ret => "Return"
  | jump _ => "Jump"
  | call _ => "Call"
  | skipEqualByte _ _ => "SkipRegEqualImm"
  | skipUnequalByte _ _ => "SkipRegNotEqualImm"
  | skipEqual _ _ => "SkipRegEqualReg"
  | setByte _ _ => "SetRegImm"
  | addByte _ _ => "AddRegImm"
  | alu _ _ _ => "ALU"
  | skipUnequal _ _ => "SkipRegNotEqualReg"
  | setIndex _ => "SetIndexImm"
  | jumpOffset _ => "JumpWithOffset"
  | random _ _ => "Random"
  | draw _ _ _ => "Draw"
  | skipPressed _ => "SkipIfPressed"
  | skipReleased _ => "SkipIfNotPressed"
  | readDelay _ => "ReadDelayTimer"
  | awaitKey _ => "WaitForKey"
  | setDelay _ => "SetDelayTimer"
  | setSound _ => "SetSoundTimer"
  | addIndex _ => "AddIndexReg"
  | pointGlyph _ => "FontChar"
  | storeDecimal _ => "BCD"
  | store _ => "StoreRegs"
  | load _ => "LoadRegs"

/-- The operands of an instruction with their roles, in listing order. -/
def operands : Instruction → List (String × Operand)
  | clear | ret => []
  | jump nnn | call nnn | setIndex nnn | jumpOffset nnn => [("nnn", .target nnn)]
  | skipEqualByte x nn | skipUnequalByte x nn | setByte x nn | addByte x nn | random x nn =>
      [("x", .digit x), ("nn", .byte nn)]
  | skipEqual x y | skipUnequal x y => [("x", .digit x), ("y", .digit y)]
  | alu x y op => [("x", .digit x), ("y", .digit y), ("op", .operation op)]
  | draw x y n => [("x", .digit x), ("y", .digit y), ("n", .digit n)]
  | skipPressed x | skipReleased x | readDelay x | awaitKey x | setDelay x | setSound x
  | addIndex x | pointGlyph x | storeDecimal x | store x | load x => [("x", .digit x)]

/-- An instruction in the trace: the name, then the operands in braces if there are any. -/
def text (instruction : Instruction) : String :=
  match instruction.operands with
  | [] => instruction.name
  | operands =>
      instruction.name ++ " \x7b "
        ++ String.intercalate ", " (operands.map fun (role, operand) => role ++ ": " ++ operand.text)
        ++ " \x7d"

end Instruction

end Chip8
