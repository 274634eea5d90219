import Chip8.Text.Blank
import Chip8.Text.Hex

/-!
Colours of three eight-bit channels: how they are read from text and how two of them are blended.
-/

namespace Chip8

/-- A colour by its channels. -/
structure Colour where
  red : UInt8
  green : UInt8
  blue : UInt8
  deriving DecidableEq, Repr, Inhabited

/-- Why a text is no colour; the whole text is kept for the report. -/
inductive ColourError where
  /-- What stands there has neither six nor three characters of ASCII. -/
  | shape (text : String)
  /-- A channel is not a hexadecimal number. -/
  | channel (text : String)
  deriving DecidableEq, Repr

def ColourError.message : ColourError → String
  | shape text => "Invalid hex colour: '" ++ text ++ "', expected RRGGBB or RGB"
  | channel text => "Invalid hex colour: '" ++ text ++ "'"

namespace Colour

/-- The value of two characters as a hexadecimal number, which may start with a plus sign. -/
def channel? (first second : Char) : Option UInt8 := do
  let low ← Text.Hex.digit? second
  if first = '+' then return UInt8.ofNat low
  let high ← Text.Hex.digit? first
  return UInt8.ofNat (16 * high + low)

/-- The colour of three pairs of characters. -/
def ofPairs? (red green blue : Char × Char) : Option Colour := do
  return {
    red := ← channel? red.1 red.2
    green := ← channel? green.1 green.2
    blue := ← channel? blue.1 blue.2
  }

def isAscii (char : Char) : Bool :=
  char.toNat < 128

/-- Reads a colour: after surrounding white space and any number of marks `#`, a pair of characters
for each channel, or a single character that counts twice. -/
def ofText (text : String) : Except ColourError Colour :=
  let body := (Text.Blank.trim text.toList).dropWhile (· == '#')
  if !body.all isAscii then .error (.shape text)
  else match body with
    | [r, r', g, g', b, b'] =>
        match ofPairs? (r, r') (g, g') (b, b') with
        | some colour => .ok colour
        | none => .error (.channel text)
    | [r, g, b] =>
        match ofPairs? (r, r) (g, g) (b, b) with
        | some colour => .ok colour
        | none => .error (.channel text)
    | _ => .error (.shape text)

/-- The value of a channel at `t` on the way from `a` at zero to `b` at one, rounded half away from
zero and kept within a byte. -/
def blendChannel (a b : UInt8) (t : Float32) : UInt8 :=
  (a.toFloat32 + (b.toFloat32 - a.toFloat32) * t).round.toUInt8

/-- The colour at `t` on the way from `a` to `b`. -/
def blend (a b : Colour) (t : Float32) : Colour where
  red := blendChannel a.red b.red t
  green := blendChannel a.green b.green t
  blue := blendChannel a.blue b.blue t

end Colour

end Chip8
