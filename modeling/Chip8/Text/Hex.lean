/-!
Upper-case hexadecimal numerals with a least number of digits.
-/

namespace Chip8.Text.Hex

/-- The upper-case base-sixteen digits of a number, most significant first; zero has one. -/
def digits (number : Nat) : List Char :=
  (Nat.toDigits 16 number).map Char.toUpper

/-- A numeral of at least `width` digits, filled up with zeros on the left. -/
def upper (width number : Nat) : String :=
  let numeral := digits number
  String.ofList (List.replicate (width - numeral.length) '0' ++ numeral)

/-- A numeral after the mark `0x`; the mark does not count as a digit. -/
def marked (width number : Nat) : String :=
  "0x" ++ upper width number

/-- An address of the machine: marked, with at least three digits. -/
def address (location : Nat) : String :=
  marked 3 location

/-- The value of a hexadecimal digit in either case. -/
def digit? (char : Char) : Option Nat :=
  if '0' ≤ char ∧ char ≤ '9' then some (char.toNat - '0'.toNat)
  else if 'a' ≤ char ∧ char ≤ 'f' then some (char.toNat - 'a'.toNat + 10)
  else if 'A' ≤ char ∧ char ≤ 'F' then some (char.toNat - 'A'.toNat + 10)
  else none

end Chip8.Text.Hex
