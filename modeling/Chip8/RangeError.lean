/-!
Requests outside a fixed range, kept as values beside their wording.
-/

namespace Chip8

/-- A request outside what a nibble, a row or a column can name. -/
inductive RangeError where
  /-- A byte above fifteen was offered where a nibble is needed. -/
  | nibble
  /-- Entry `index` was asked of something that holds `length` entries. -/
  | position (length index : Nat)
  deriving DecidableEq, Repr

namespace RangeError

def message : RangeError → String
  | nibble => "u4 value must be in range 0x0-0xF"
  | position length index =>
      "index out of bounds: the len is " ++ toString length ++ " but the index is "
        ++ toString index

end RangeError

end Chip8
