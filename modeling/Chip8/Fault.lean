import Chip8.Memory
import Chip8.Text.Hex
import Chip8.Word

/-!
What can go wrong: two reasons not to start and two reasons to stop.
-/

namespace Chip8

/-- Why a machine was not built or an instruction was not executed. -/
inductive Fault where
  /-- The program has `size` bytes and at most `limit` fit. -/
  | programTooLarge (size limit : Nat)
  /-- The word at an address stands for no instruction. -/
  | unknownInstruction (address : UInt16) (word : Word)
  /-- The instruction at an address returns and there is no call to return from. -/
  | emptyStack (address : UInt16)
  | noClockRate
  deriving DecidableEq, Repr

namespace Fault

def message : Fault → String
  | programTooLarge size limit =>
      "ROM is too large (" ++ toString size ++ " bytes), max size is " ++ toString limit ++ " bytes"
  | unknownInstruction address word =>
      "Unknown opcode " ++ Text.Hex.upper 2 word.high.toNat ++ Text.Hex.upper 2 word.low.toNat
        ++ " at address " ++ Text.Hex.address address.toNat
  | emptyStack address =>
      "Stack underflow: return with empty call stack at address "
        ++ Text.Hex.address address.toNat
  | noClockRate => "Instruction clock rate must be a positive number of hertz"

end Fault

end Chip8
