/-!
Decimal numerals: whole numbers with a sign, and fractions with an exponent read to the nearest
single-precision number. Only the digits of ASCII count.
-/

namespace Chip8.Text.Numeral

/-- The number written by a row of digits; the empty row writes zero. -/
def ofDigits (digits : List Char) : Nat :=
  digits.foldl (fun number char => 10 * number + (char.toNat - '0'.toNat)) 0

/-- The number of a text that is one digit or more and nothing else. -/
def natural? (text : List Char) : Option Nat :=
  if text.isEmpty || !text.all Char.isDigit then none else some (ofDigits text)

/-- Splits a sign off a text; without one the text counts as positive. -/
def splitSign : List Char → Bool × List Char
  | '-' :: rest => (true, rest)
  | '+' :: rest => (false, rest)
  | text => (false, text)

/-- A number with an optional sign in front. -/
def integer? (text : List Char) : Option Int :=
  let (negative, digits) := splitSign text
  (natural? digits).map fun number => if negative then -(number : Int) else number

/-- A number with an optional plus sign in front. -/
def unsigned? : List Char → Option Nat
  | '+' :: rest => natural? rest
  | text => natural? text

/-- The number `significand` times ten to the power `exponent`. -/
structure Scientific where
  significand : Nat
  exponent : Int
  deriving DecidableEq, Repr

/-- The exponent after the mark `e`, or zero if nothing follows. -/
def exponent? : List Char → Option Int
  | [] => some 0
  | mark :: rest => if mark == 'e' || mark == 'E' then integer? rest else none

/-- An unsigned number: digits, of which some may follow a point, then an exponent if any. At least
one digit stands before or behind the point. -/
def scientific? (text : List Char) : Option Scientific :=
  let whole := text.takeWhile Char.isDigit
  let rest := text.dropWhile Char.isDigit
  let (fraction, rest) := match rest with
    | '.' :: rest => (rest.takeWhile Char.isDigit, rest.dropWhile Char.isDigit)
    | _ => ([], rest)
  if whole.isEmpty && fraction.isEmpty then none
  else (exponent? rest).map fun exponent =>
    { significand := ofDigits (whole ++ fraction), exponent := exponent - fraction.length }

/-- The single-precision number nearest to a decimal one, ties to even. From 10^39 on that is
infinity, and below 10^-45 by a whole digit it is zero. -/
def Scientific.toFloat32 (number : Scientific) : Float32 :=
  let places := (Nat.toDigits 10 number.significand).length + number.exponent
  if number.significand = 0 || places < -45 then 0
  else if 39 < places then Float32.ofBits 0x7F800000
  else Float32.ofScientific number.significand (decide (number.exponent < 0)) number.exponent.natAbs

/-- The values that are not written by digits, whatever the case of the letters. -/
def named? (text : List Char) : Option Float32 :=
  let word := String.ofList (text.map Char.toLower)
  if word = "inf" || word = "infinity" then some (Float32.ofBits 0x7F800000)
  else if word = "nan" then some (Float32.ofBits 0x7FC00000)
  else none

/-- A single-precision number with an optional sign in front. -/
def float32? (text : List Char) : Option Float32 :=
  let (negative, rest) := splitSign text
  let magnitude := ((scientific? rest).map Scientific.toFloat32).or (named? rest)
  magnitude.map fun magnitude => if negative then -magnitude else magnitude

end Chip8.Text.Numeral
