import Chip8.RangeError

/-!
Four-bit numbers. A nibble names a register, a keypad key or a glyph, so whatever is indexed by
one is read without a bounds check.
-/

namespace Chip8

/-- A number below sixteen. -/
abbrev Nibble := Fin 16

/-- Numerals stand for nibbles. The zero is named because a library may declare another one. -/
instance sixteenNeZero : @NeZero Nat Zero.ofOfNat0 16 where
  out := nofun

namespace Nibble

/-- The register that holds flags. -/
def flag : Nibble := 15

def low (byte : UInt8) : Nibble :=
  ⟨byte.toNat % 16, Nat.mod_lt _ (by decide)⟩

def high (byte : UInt8) : Nibble :=
  ⟨byte.toNat / 16, Nat.div_lt_of_lt_mul byte.toNat_lt⟩

/-- The nibble equal to a byte, if the byte is below sixteen. -/
def ofByte? (byte : UInt8) : Option Nibble :=
  if h : byte.toNat < 16 then some ⟨byte.toNat, h⟩ else none

/-- The nibble equal to a byte; a byte above fifteen is a range error. -/
def ofByte (byte : UInt8) : Except RangeError Nibble :=
  match ofByte? byte with
  | some nibble => .ok nibble
  | none => .error .nibble

def toByte (nibble : Nibble) : UInt8 :=
  UInt8.ofNat nibble.val

/-- All nibbles up to and including this one, ascending. -/
def upTo (nibble : Nibble) : List Nibble :=
  (List.finRange 16).filter (· ≤ nibble)

/-- The upper-case hexadecimal digit of a nibble. -/
def digit (nibble : Nibble) : Char :=
  if nibble.val < 10 then Char.ofNat ('0'.toNat + nibble.val)
  else Char.ofNat ('A'.toNat + (nibble.val - 10))

@[simp] theorem toNat_toByte (nibble : Nibble) : (toByte nibble).toNat = nibble.val := by
  simp [toByte, UInt8.toNat_ofNat']
  omega

theorem high_low (byte : UInt8) : 16 * (high byte).val + (low byte).val = byte.toNat :=
  Nat.div_add_mod byte.toNat 16

@[simp] theorem ofByte?_toByte (nibble : Nibble) : ofByte? (toByte nibble) = some nibble := by
  simp [ofByte?]

@[simp] theorem mem_upTo {register bound : Nibble} : register ∈ upTo bound ↔ register ≤ bound := by
  simp [upTo]

/-- Who looks for a nibble that alone can pass a test finds the one that does. -/
theorem find?_eq_some_iff {test : Nibble → Bool}
    (alone : ∀ nibble other, test nibble = true → test other = true → nibble = other)
    {nibble : Nibble}
    : (List.finRange 16).find? test = some nibble ↔ test nibble = true := by
  constructor
  · exact List.find?_some
  · intro passes
    have listed : ((List.finRange 16).find? test).isSome = true :=
      List.find?_isSome.mpr ⟨nibble, List.mem_finRange nibble, passes⟩
    obtain ⟨other, found⟩ := Option.isSome_iff_exists.mp listed
    rw [found, alone other nibble (List.find?_some found) passes]

end Nibble

end Chip8
