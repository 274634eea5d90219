import Chip8.Nibble

/-!
The built-in glyphs of the sixteen hexadecimal digits: five rows each, stored one after the other.
-/

namespace Chip8.Glyph

/-- The number of rows of a glyph, one byte each. -/
def height : Nat := 5

/-- The address of the first glyph. -/
def base : Nat := 0x50

/-- The rows of all glyphs in digit order; only the left half of a row is used. -/
def rows : Vector UInt8 80 :=
  #v[0xF0, 0x90, 0x90, 0x90, 0xF0,
    0x20, 0x60, 0x20, 0x20, 0x70,
    0xF0, 0x10, 0xF0, 0x80, 0xF0,
    0xF0, 0x10, 0xF0, 0x10, 0xF0,
    0x90, 0x90, 0xF0, 0x10, 0x10,
    0xF0, 0x80, 0xF0, 0x10, 0xF0,
    0xF0, 0x80, 0xF0, 0x90, 0xF0,
    0xF0, 0x10, 0x20, 0x40, 0x40,
    0xF0, 0x90, 0xF0, 0x90, 0xF0,
    0xF0, 0x90, 0xF0, 0x10, 0xF0,
    0xF0, 0x90, 0xF0, 0x90, 0x90,
    0xE0, 0x90, 0xE0, 0x90, 0xE0,
    0xF0, 0x80, 0x80, 0x80, 0xF0,
    0xE0, 0x90, 0x90, 0x90, 0xE0,
    0xF0, 0x80, 0xF0, 0x80, 0xF0,
    0xF0, 0x80, 0xF0, 0x80, 0x80]

/-- The first address behind the glyphs. -/
def limit : Nat := base + 16 * height

def address (digit : Nibble) : UInt16 :=
  UInt16.ofNat (base + height * digit.val)

end Chip8.Glyph
