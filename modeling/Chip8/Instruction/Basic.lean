import Chip8.Word

/-!
The instruction set. Each instruction has one word pattern; `encode` writes it and `decode` reads
it back, so a word that no instruction is written as is rejected.
-/

namespace Chip8

/-- The register-to-register operations. -/
inductive AluOp where
  | copy
  | or
  | and
  | xor
  /-- The sum; the flag is the carry. -/
  | add
  /-- The first operand less the second; the flag is set unless it borrows. -/
  | subtract
  /-- Half the shifted operand; the flag is the bit shifted out. -/
  | shiftRight
  /-- The second operand less the first; the flag is set if it is larger. -/
  | subtractFrom
  /-- Twice the shifted operand; the flag is the bit shifted out. -/
  | shiftLeft
  deriving DecidableEq, Repr

namespace AluOp

/-- The last digit of the operation's word. -/
def digit : AluOp → Nibble
  | copy => 0x0
  | or => 0x1
  | and => 0x2
  | xor => 0x3
  | add => 0x4
  | subtract => 0x5
  | shiftRight => 0x6
  | subtractFrom => 0x7
  | shiftLeft => 0xE

/-- The operation with the given last digit; seven digits have none. -/
def ofDigit? : Nibble → Option AluOp
  | 0x0 => some copy
  | 0x1 => some or
  | 0x2 => some and
  | 0x3 => some xor
  | 0x4 => some add
  | 0x5 => some subtract
  | 0x6 => some shiftRight
  | 0x7 => some subtractFrom
  | 0xE => some shiftLeft
  | _ => none

@[simp] theorem ofDigit?_digit (op : AluOp) : ofDigit? op.digit = some op := by
  cases op <;> rfl

/-- An operation is found under its own digit only. -/
theorem digit_of_ofDigit? {digit : Nibble} {op : AluOp} (h : ofDigit? digit = some op)
    : op.digit = digit := by
  unfold ofDigit? at h
  split at h <;> cases h <;> rfl

end AluOp

/-- One instruction with its operands. -/
inductive Instruction where
  /-- Blank the display: `00E0`. -/
  | clear
  /-- Go back behind the last call: `00EE`. -/
  | ret
  /-- Go to an address: `1nnn`. -/
  | jump (nnn : Target)
  /-- Go to an address and remember where to come back to: `2nnn`. -/
  | call (nnn : Target)
  /-- Skip if a register holds a byte: `3xnn`. -/
  | skipEqualByte (x : Nibble) (nn : UInt8)
  /-- Skip unless a register holds a byte: `4xnn`. -/
  | skipUnequalByte (x : Nibble) (nn : UInt8)
  /-- Skip if two registers are equal: `5xy0`. -/
  | skipEqual (x y : Nibble)
  /-- Set a register: `6xnn`. -/
  | setByte (x : Nibble) (nn : UInt8)
  /-- Add to a register without touching the flag: `7xnn`. -/
  | addByte (x : Nibble) (nn : UInt8)
  /-- Combine two registers: `8xy` and the digit of the operation. -/
  | alu (x y : Nibble) (op : AluOp)
  /-- Skip unless two registers are equal: `9xy0`. -/
  | skipUnequal (x y : Nibble)
  /-- Set the index register: `Annn`. -/
  | setIndex (nnn : Target)
  /-- Go to an address moved on by a register: `Bnnn`. -/
  | jumpOffset (nnn : Target)
  /-- Set a register to a random byte under a mask: `Cxnn`. -/
  | random (x : Nibble) (nn : UInt8)
  /-- Flip the pixels of a sprite of `n` rows: `Dxyn`. -/
  | draw (x y n : Nibble)
  /-- Skip if the key named by a register is held: `Ex9E`. -/
  | skipPressed (x : Nibble)
  /-- Skip unless the key named by a register is held: `ExA1`. -/
  | skipReleased (x : Nibble)
  /-- Set a register to the delay timer: `Fx07`. -/
  | readDelay (x : Nibble)
  /-- Repeat until a key is held, and store it: `Fx0A`. -/
  | awaitKey (x : Nibble)
  /-- Set the delay timer: `Fx15`. -/
  | setDelay (x : Nibble)
  /-- Set the sound timer: `Fx18`. -/
  | setSound (x : Nibble)
  /-- Add a register to the index register: `Fx1E`. -/
  | addIndex (x : Nibble)
  /-- Point at the glyph of a digit: `Fx29`. -/
  | pointGlyph (x : Nibble)
  /-- Store the three decimal digits of a register: `Fx33`. -/
  | storeDecimal (x : Nibble)
  /-- Store the registers up to `x`: `Fx55`. -/
  | store (x : Nibble)
  /-- Load the registers up to `x`: `Fx65`. -/
  | load (x : Nibble)
  deriving DecidableEq, Repr

namespace Instruction

def encode : Instruction → Word
  | clear => ⟨0x00, 0xE0⟩
  | ret => ⟨0x00, 0xEE⟩
  | jump nnn => .ofTarget 0x1 nnn
  | call nnn => .ofTarget 0x2 nnn
  | skipEqualByte x nn => .ofByte 0x3 x nn
  | skipUnequalByte x nn => .ofByte 0x4 x nn
  | skipEqual x y => .ofDigits 0x5 x y 0x0
  | setByte x nn => .ofByte 0x6 x nn
  | addByte x nn => .ofByte 0x7 x nn
  | alu x y op => .ofDigits 0x8 x y op.digit
  | skipUnequal x y => .ofDigits 0x9 x y 0x0
  | setIndex nnn => .ofTarget 0xA nnn
  | jumpOffset nnn => .ofTarget 0xB nnn
  | random x nn => .ofByte 0xC x nn
  | draw x y n => .ofDigits 0xD x y n
  | skipPressed x => .ofByte 0xE x 0x9E
  | skipReleased x => .ofByte 0xE x 0xA1
  | readDelay x => .ofByte 0xF x 0x07
  | awaitKey x => .ofByte 0xF x 0x0A
  | setDelay x => .ofByte 0xF x 0x15
  | setSound x => .ofByte 0xF x 0x18
  | addIndex x => .ofByte 0xF x 0x1E
  | pointGlyph x => .ofByte 0xF x 0x29
  | storeDecimal x => .ofByte 0xF x 0x33
  | store x => .ofByte 0xF x 0x55
  | load x => .ofByte 0xF x 0x65

/-- The instruction that a word stands for, if it stands for one. -/
def decode? (word : Word) : Option Instruction :=
  match word.family with
  | 0x0 =>
      if word.x ≠ 0 then none
      else match word.nn with
        | 0xE0 => some clear
        | 0xEE => some ret
        | _ => none
  | 0x1 => some (jump word.nnn)
  | 0x2 => some (call word.nnn)
  | 0x3 => some (skipEqualByte word.x word.nn)
  | 0x4 => some (skipUnequalByte word.x word.nn)
  | 0x5 => if word.n = 0 then some (skipEqual word.x word.y) else none
  | 0x6 => some (setByte word.x word.nn)
  | 0x7 => some (addByte word.x word.nn)
  | 0x8 => (AluOp.ofDigit? word.n).map (alu word.x word.y)
  | 0x9 => if word.n = 0 then some (skipUnequal word.x word.y) else none
  | 0xA => some (setIndex word.nnn)
  | 0xB => some (jumpOffset word.nnn)
  | 0xC => some (random word.x word.nn)
  | 0xD => some (draw word.x word.y word.n)
  | 0xE =>
      match word.nn with
      | 0x9E => some (skipPressed word.x)
      | 0xA1 => some (skipReleased word.x)
      | _ => none
  | 0xF =>
      match word.nn with
      | 0x07 => some (readDelay word.x)
      | 0x0A => some (awaitKey word.x)
      | 0x15 => some (setDelay word.x)
      | 0x18 => some (setSound word.x)
      | 0x1E => some (addIndex word.x)
      | 0x29 => some (pointGlyph word.x)
      | 0x33 => some (storeDecimal word.x)
      | 0x55 => some (store word.x)
      | 0x65 => some (load word.x)
      | _ => none
  | _ => none

@[simp] theorem decode?_encode (instruction : Instruction)
    : decode? instruction.encode = some instruction := by
  cases instruction <;> simp [encode, decode?] <;> decide

/-- Decoding loses nothing: a word is the word of the instruction it stands for. -/
theorem encode_of_decode? {word : Word} {instruction : Instruction}
    (h : decode? word = some instruction)
    : instruction.encode = word := by
  have bytes := word.ofByte_eq
  have digits := word.ofDigits_eq
  have target := word.ofTarget_eq
  unfold decode? at h
  split at h
  · rename_i family
    split at h
    · cases h
    · rename_i x
      rw [family, Decidable.not_not.mp x] at bytes
      split at h <;> cases h <;> rename_i nn <;> rw [nn] at bytes <;> exact bytes
  any_goals (rename_i family; rw [family] at bytes digits target)
  · cases h; exact target
  · cases h; exact target
  · cases h; exact bytes
  · cases h; exact bytes
  · split at h
    · rename_i n; cases h; rw [n] at digits; exact digits
    · cases h
  · cases h; exact bytes
  · cases h; exact bytes
  · obtain ⟨op, found, rfl⟩ := Option.map_eq_some_iff.mp h
    rw [← AluOp.digit_of_ofDigit? found] at digits
    exact digits
  · split at h
    · rename_i n; cases h; rw [n] at digits; exact digits
    · cases h
  · cases h; exact target
  · cases h; exact target
  · cases h; exact bytes
  · cases h; exact digits
  · split at h <;> cases h <;> rename_i nn <;> rw [nn] at bytes <;> exact bytes
  · split at h <;> cases h <;> rename_i nn <;> rw [nn] at bytes <;> exact bytes
  · cases h

/-- The bytes that hold a program, word after word. -/
def encodeAll (program : List Instruction) : List UInt8 :=
  program.flatMap fun instruction => [instruction.encode.high, instruction.encode.low]

end Instruction

end Chip8
