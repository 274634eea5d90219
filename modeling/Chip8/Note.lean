import Chip8.Fault
import Chip8.Instruction.Listing

/-!
The journal: what a run leaves behind for a reader, each entry with its level and its wording.
-/

namespace Chip8

/-- How loudly an entry is reported. -/
inductive Level where
  | error
  | warn
  | info
  | trace
  deriving DecidableEq, Repr

def Level.name : Level → String
  | error => "ERROR"
  | warn => "WARN"
  | info => "INFO"
  | trace => "TRACE"

/-- The rate of the timer clock in hertz. -/
def timerRate : Nat := 60

inductive Note where
  /-- A program of `size` bytes was put into memory. -/
  | loaded (size : Nat)
  /-- The instruction at `address` is about to be executed. -/
  | executing (address : UInt16) (instruction : Instruction)
  /-- The host reported a key that no keypad has. -/
  | ignoredKey (key : UInt8)
  /-- A run began at an instruction clock of `rate` hertz. -/
  | started (rate : UInt32)
  | cancelled
  | faulted (fault : Fault)
  /-- A run was asked for after the only run had ended. -/
  | refused
  deriving DecidableEq, Repr

namespace Note

def level : Note → Level
  | loaded _ | started _ | cancelled => .info
  | executing _ _ => .trace
  | ignoredKey _ | refused => .warn
  | faulted _ => .error

def text : Note → String
  | loaded size =>
      "Loaded " ++ toString size ++ " byte ROM at " ++ Text.Hex.address Memory.programStart ++ ".."
        ++ Text.Hex.address (Memory.programStart + size)
  | executing address instruction =>
      Text.Hex.address address.toNat ++ ": " ++ instruction.text
  | ignoredKey key =>
      "Ignoring invalid key value " ++ Text.Hex.marked 2 key.toNat ++ " reported by display driver"
  | started rate =>
      "Interpreter running at " ++ toString rate.toNat ++ " Hz (timers at " ++ toString timerRate
        ++ " Hz)"
  | cancelled => "Interpreter stopped"
  | faulted fault => "Interpreter stopped on fault: " ++ fault.message
  | refused => "Runner already stopped, not starting again"

end Note

end Chip8
