/-!
The four rules on which members of the CHIP-8 family differ, and the profiles of three members.
-/

namespace Chip8

/-- The rules that a machine follows where the family disagrees; fixed when a machine is built. -/
structure Dialect where
  /-- A shift takes its operand from the second register and not from the first. -/
  shiftsSecond : Bool
  /-- A jump with offset adds the register named by the top digit of its target, not the first. -/
  offsetByDigit : Bool
  /-- Adding to the index register leaves the flag register alone. -/
  keepsFlagOnIndexAdd : Bool
  /-- Storing or loading registers moves the index register on by the last register's number. -/
  advancesIndex : Bool
  deriving DecidableEq, Repr

namespace Dialect

/-- What programs written today expect. -/
def modern : Dialect where
  shiftsSecond := true
  offsetByDigit := false
  keepsFlagOnIndexAdd := false
  advancesIndex := false

/-- The first interpreter, on the COSMAC VIP. -/
def cosmacVip : Dialect where
  shiftsSecond := true
  offsetByDigit := false
  keepsFlagOnIndexAdd := true
  advancesIndex := true

/-- SUPER-CHIP 1.1 on the HP48. -/
def superChip : Dialect where
  shiftsSecond := false
  offsetByDigit := true
  keepsFlagOnIndexAdd := true
  advancesIndex := false

end Dialect

end Chip8
