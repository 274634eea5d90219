import Chip8.Nibble

/-!
Instruction words: two bytes, read most significant first, and the three ways in which their low
twelve bits are cut into operands.
-/

namespace Chip8

/-- Twelve bits, the widest operand of an instruction. -/
abbrev Target := Fin 4096

/-- The two bytes of an instruction, in memory order. -/
structure Word where
  high : UInt8
  low : UInt8
  deriving DecidableEq, Repr, Inhabited

namespace Word

/-- The topmost digit, which selects the instruction family. -/
def family (word : Word) : Nibble :=
  Nibble.high word.high

def x (word : Word) : Nibble :=
  Nibble.low word.high

def y (word : Word) : Nibble :=
  Nibble.high word.low

def n (word : Word) : Nibble :=
  Nibble.low word.low

def nn (word : Word) : UInt8 :=
  word.low

def nnn (word : Word) : Target :=
  ⟨word.high.toNat % 16 * 256 + word.low.toNat, by
    have := word.low.toNat_lt
    omega⟩

/-- The word that starts with `family` and the digit `x` and ends with the byte `nn`. -/
def ofByte (family x : Nibble) (nn : UInt8) : Word where
  high := UInt8.ofNat (16 * family.val + x.val)
  low := nn

def ofDigits (family x y n : Nibble) : Word :=
  ofByte family x (UInt8.ofNat (16 * y.val + n.val))

/-- The word that starts with `family` and ends with twelve bits. -/
def ofTarget (family : Nibble) (nnn : Target) : Word where
  high := UInt8.ofNat (16 * family.val + nnn.val / 256)
  low := UInt8.ofNat (nnn.val % 256)

/-- The word whose number is `number` modulo 2^16. -/
def ofNat (number : Nat) : Word where
  high := UInt8.ofNat (number / 256)
  low := UInt8.ofNat number

def toNat (word : Word) : Nat :=
  256 * word.high.toNat + word.low.toNat

theorem ofNat_toNat (word : Word) : ofNat word.toNat = word := by
  have hh := word.high.toNat_lt
  have hl := word.low.toNat_lt
  cases word with
  | mk high low =>
      simp only [ofNat, toNat, mk.injEq]
      constructor <;> apply UInt8.toNat_inj.mp <;> simp only [UInt8.toNat_ofNat'] <;>
        simp only at hh hl <;> omega

theorem toNat_ofNat_digits (high low : Nibble)
    : (UInt8.ofNat (16 * high.val + low.val)).toNat = 16 * high.val + low.val := by
  simp only [UInt8.toNat_ofNat']
  omega

@[simp] theorem family_ofByte (family x : Nibble) (nn : UInt8)
    : (ofByte family x nn).family = family := by
  apply Fin.ext
  simp only [Word.family, Nibble.high, ofByte, toNat_ofNat_digits]
  omega

@[simp] theorem x_ofByte (family x : Nibble) (nn : UInt8) : (ofByte family x nn).x = x := by
  apply Fin.ext
  simp only [Word.x, Nibble.low, ofByte, toNat_ofNat_digits]
  omega

@[simp] theorem nn_ofByte (family x : Nibble) (nn : UInt8) : (ofByte family x nn).nn = nn :=
  rfl

@[simp] theorem family_ofDigits (family x y n : Nibble)
    : (ofDigits family x y n).family = family := by
  simp [ofDigits]

@[simp] theorem x_ofDigits (family x y n : Nibble) : (ofDigits family x y n).x = x := by
  simp [ofDigits]

@[simp] theorem y_ofDigits (family x y n : Nibble) : (ofDigits family x y n).y = y := by
  apply Fin.ext
  simp only [Word.y, Nibble.high, ofDigits, ofByte, toNat_ofNat_digits]
  omega

@[simp] theorem n_ofDigits (family x y n : Nibble) : (ofDigits family x y n).n = n := by
  apply Fin.ext
  simp only [Word.n, Nibble.low, ofDigits, ofByte, toNat_ofNat_digits]
  omega

@[simp] theorem family_ofTarget (family : Nibble) (nnn : Target)
    : (ofTarget family nnn).family = family := by
  apply Fin.ext
  simp only [Word.family, Nibble.high, ofTarget, UInt8.toNat_ofNat']
  omega

@[simp] theorem nnn_ofTarget (family : Nibble) (nnn : Target)
    : (ofTarget family nnn).nnn = nnn := by
  apply Fin.ext
  simp only [Word.nnn, ofTarget, UInt8.toNat_ofNat']
  omega

/-- A word is its first two digits and its low byte. -/
theorem ofByte_eq (word : Word) : ofByte word.family word.x word.nn = word := by
  cases word
  simp only [ofByte, family, x, nn, Nibble.high_low, UInt8.ofNat_toNat]

/-- A word is its four digits. -/
theorem ofDigits_eq (word : Word) : ofDigits word.family word.x word.y word.n = word := by
  rw [ofDigits]
  simp only [y, n, Nibble.high_low, UInt8.ofNat_toNat]
  exact ofByte_eq word

/-- A word is its first digit and its low twelve bits. -/
theorem ofTarget_eq (word : Word) : ofTarget word.family word.nnn = word := by
  have hh := word.high.toNat_lt
  have hl := word.low.toNat_lt
  cases word
  simp only [ofTarget, family, nnn, Nibble.high, mk.injEq] at *
  constructor <;> apply UInt8.toNat_inj.mp <;> simp only [UInt8.toNat_ofNat'] <;> omega

end Word

end Chip8
