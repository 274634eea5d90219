import Chip8.Instruction.Listing
import Chip8.Text.Hex

/-! How programs are spelled in bytes. The patterns of the instructions are given as they are documented,
and decoding is compared with them: a program is read back from its bytes, bytes are written back
from what they stand for, and a word that fits no pattern stands for nothing.
-/

namespace Chip8

-----------------------------------------------------------------------------------------
-- Words in a row of bytes
-----------------------------------------------------------------------------------------

/-- The nibble of a number modulo sixteen. -/
def Nibble.wrap (number : Nat) : Nibble :=
  Fin.ofNat 16 number

namespace Word

def bytes (word : Word) : List UInt8 :=
  [word.high, word.low]

/-- The words that a row of bytes holds, two bytes each; a byte that is left over is in none. -/
def ofBytes : List UInt8 → List Word
  | high :: low :: rest => ⟨high, low⟩ :: ofBytes rest
  | _ => []

theorem ofBytes_flatMap_bytes (words : List Word) : ofBytes (words.flatMap bytes) = words := by
  induction words with
  | nil => rfl
  | cons word rest ih =>
      rw [List.flatMap_cons]
      exact congrArg (word :: ·) ih

/-- A row with no byte left over is that of its words, by induction two bytes at a time. -/
theorem flatMap_bytes_ofBytes {row : List UInt8} (even : 2 ∣ row.length)
    : (ofBytes row).flatMap bytes = row := by
  induction row using ofBytes.induct with
  | case1 high low rest ih =>
      have rest_even : 2 ∣ rest.length := by
        simp only [List.length_cons] at even
        omega
      rw [ofBytes, List.flatMap_cons, ih rest_even]
      rfl
  | case2 row short =>
      cases row with
      | nil => rfl
      | cons high rest =>
          cases rest with
          | nil => simp at even
          | cons low rest => exact absurd rfl (short high low rest)

/-- The four digits of a word, most significant first. -/
def digits (word : Word) : List Nibble :=
  [word.family, word.x, word.y, word.n]

@[simp] theorem digits_ofByte (family x : Nibble) (nn : UInt8)
    : (ofByte family x nn).digits = [family, x, .high nn, .low nn] := by
  rw [digits, family_ofByte, x_ofByte]
  rfl

@[simp] theorem digits_ofDigits (family x y n : Nibble)
    : (ofDigits family x y n).digits = [family, x, y, n] := by
  rw [digits, family_ofDigits, x_ofDigits, y_ofDigits, n_ofDigits]

@[simp] theorem digits_ofTarget (family : Nibble) (nnn : Target)
    : (ofTarget family nnn).digits
      = [family, .wrap (nnn.val / 256), .wrap (nnn.val / 16), .wrap nnn.val] := by
  have x : (ofTarget family nnn).x = Nibble.wrap (nnn.val / 256) := by
    apply Fin.ext
    simp only [Word.x, Nibble.low, ofTarget, UInt8.toNat_ofNat', Nibble.wrap, Fin.ofNat]
    omega
  have y : (ofTarget family nnn).y = Nibble.wrap (nnn.val / 16) := by
    apply Fin.ext
    simp only [Word.y, Nibble.high, ofTarget, UInt8.toNat_ofNat', Nibble.wrap, Fin.ofNat]
    omega
  have n : (ofTarget family nnn).n = Nibble.wrap nnn.val := by
    apply Fin.ext
    simp only [Word.n, Nibble.low, ofTarget, UInt8.toNat_ofNat', Nibble.wrap, Fin.ofNat]
    omega
  rw [digits, family_ofTarget, x, y, n]

theorem nn_eq (word : Word) : word.nn = UInt8.ofNat (16 * word.y.val + word.n.val) := by
  simp only [y, n, Nibble.high_low, UInt8.ofNat_toNat]
  rfl

end Word

-----------------------------------------------------------------------------------------
-- The documented patterns
-----------------------------------------------------------------------------------------

namespace Operand

/-- The digits of an operand as they are written; an operation is written by the pattern itself. -/
def digits : Operand → List Nibble
  | digit value => [value]
  | byte value => [.high value, .low value]
  | target value => [.wrap (value.val / 256), .wrap (value.val / 16), .wrap value.val]
  | operation _ => []

def value : Operand → Nat
  | digit value => value.val
  | byte value => value.toNat
  | target value => value.val
  | operation value => value.digit.val

/-- The number below which the operands of a kind have to be. -/
def limit : Operand → Nat
  | digit _ | operation _ => 16
  | byte _ => 256
  | target _ => 4096

theorem value_lt_limit (operand : Operand) : operand.value < operand.limit := by
  cases operand with
  | digit value => exact value.isLt
  | byte value => exact value.toNat_lt
  | target value => exact value.isLt
  | operation value => exact value.digit.isLt

end Operand

/-- The documented pattern of an operation. -/
def AluOp.pattern : AluOp → String
  | copy => "8xy0"
  | or => "8xy1"
  | and => "8xy2"
  | xor => "8xy3"
  | add => "8xy4"
  | subtract => "8xy5"
  | shiftRight => "8xy6"
  | subtractFrom => "8xy7"
  | shiftLeft => "8xyE"

namespace Instruction

/-- The documented pattern of an instruction. A hexadecimal digit stands for itself; the letters `x`,
`y` and `n` stand for the digits of the operands, in their order.
-/
def pattern : Instruction → String
  | clear => "00E0"
  | ret => "00EE"
  | jump _ => "1nnn"
  | call _ => "2nnn"
  | skipEqualByte _ _ => "3xnn"
  | skipUnequalByte _ _ => "4xnn"
  | skipEqual _ _ => "5xy0"
  | setByte _ _ => "6xnn"
  | addByte _ _ => "7xnn"
  | alu _ _ op => op.pattern
  | skipUnequal _ _ => "9xy0"
  | setIndex _ => "Annn"
  | jumpOffset _ => "Bnnn"
  | random _ _ => "Cxnn"
  | draw _ _ _ => "Dxyn"
  | skipPressed _ => "Ex9E"
  | skipReleased _ => "ExA1"
  | readDelay _ => "Fx07"
  | awaitKey _ => "Fx0A"
  | setDelay _ => "Fx15"
  | setSound _ => "Fx18"
  | addIndex _ => "Fx1E"
  | pointGlyph _ => "Fx29"
  | storeDecimal _ => "Fx33"
  | store _ => "Fx55"
  | load _ => "Fx65"

/-- All patterns, in their order. -/
def patterns : List String :=
  ["00E0", "00EE", "1nnn", "2nnn", "3xnn", "4xnn", "5xy0", "6xnn", "7xnn",
    "8xy0", "8xy1", "8xy2", "8xy3", "8xy4", "8xy5", "8xy6", "8xy7", "8xyE",
    "9xy0", "Annn", "Bnnn", "Cxnn", "Dxyn", "Ex9E", "ExA1",
    "Fx07", "Fx0A", "Fx15", "Fx18", "Fx1E", "Fx29", "Fx33", "Fx55", "Fx65"]

def operandDigits (instruction : Instruction) : List Nibble :=
  instruction.operands.flatMap fun operand => operand.2.digits

/-- A pattern with digits in place of its letters, from left to right. -/
def fill : List Char → List Nibble → List Nibble
  | [], _ => []
  | char :: rest, given =>
      match Text.Hex.digit? char, given with
      | some value, given => Nibble.wrap value :: fill rest given
      | none, digit :: given => digit :: fill rest given
      | none, [] => []

/-- Whether a word has the digits that a pattern fixes. -/
def fits (pattern : String) (word : Word) : Bool :=
  (pattern.toList.zip word.digits).all fun (char, digit) =>
    (Text.Hex.digit? char).all fun value => digit == Nibble.wrap value

theorem pattern_mem (instruction : Instruction) : instruction.pattern ∈ patterns := by
  cases instruction with
  | alu x y op => cases op <;> simp [pattern, AluOp.pattern, patterns]
  | _ => simp [pattern, patterns]

/-- An instruction is written as its pattern says, by cases over the three forms of operands. -/
theorem digits_encode (instruction : Instruction)
    : instruction.encode.digits
      = fill instruction.pattern.toList instruction.operandDigits := by
  cases instruction with
  | clear | ret => rfl
  | alu x y op =>
      cases op <;>
        simp [encode, AluOp.digit, pattern, AluOp.pattern, operandDigits, operands,
          Operand.digits, fill, Text.Hex.digit?] <;>
        decide
  | skipPressed x | skipReleased x | readDelay x | awaitKey x | setDelay x | setSound x
  | addIndex x | pointGlyph x | storeDecimal x | store x | load x =>
      simp [encode, pattern, operandDigits, operands, Operand.digits, fill, Text.Hex.digit?,
        Nibble.high, Nibble.low]
      decide
  | _ =>
      simp [encode, pattern, operandDigits, operands, Operand.digits, fill, Text.Hex.digit?]
      decide

/-- What a filled pattern has at the places of its digits, by induction over the pattern. -/
theorem all_zip_fill (chars : List Char) (given : List Nibble)
    : ((chars.zip (fill chars given)).all fun (char, digit) =>
        (Text.Hex.digit? char).all fun value => digit == Nibble.wrap value) = true := by
  induction chars generalizing given with
  | nil => rfl
  | cons char rest ih =>
      cases fixed : Text.Hex.digit? char with
      | some value => simp [fill, fixed, ih]
      | none =>
          cases given with
          | nil => simp [fill, fixed]
          | cons digit given => simp [fill, fixed, ih]

theorem fits_encode (instruction : Instruction)
    : fits instruction.pattern instruction.encode = true := by
  rw [fits, digits_encode]
  exact all_zip_fill _ _

/-- A word that fits a pattern stands for an instruction with this pattern, by cases over the patterns. -/
theorem decode?_of_fits {pattern : String} (documented : pattern ∈ patterns) {word : Word}
    (fitting : fits pattern word = true)
    : ∃ instruction, decode? word = some instruction ∧ instruction.pattern = pattern := by
  have nn := word.nn_eq
  simp only [patterns, List.mem_cons, List.not_mem_nil, or_false] at documented
  rcases documented with rfl | rfl | rfl | rfl | rfl | rfl | rfl | rfl | rfl | rfl | rfl | rfl
    | rfl | rfl | rfl | rfl | rfl | rfl | rfl | rfl | rfl | rfl | rfl | rfl | rfl | rfl | rfl
    | rfl | rfl | rfl | rfl | rfl | rfl | rfl
  all_goals
    simp [fits, Word.digits, Text.Hex.digit?] at fitting
    simp only [decode?, fitting, nn]
    exact ⟨_, rfl, rfl⟩

/-- The pattern of an instruction is the only one that its word fits. -/
theorem fits_iff {pattern : String} (documented : pattern ∈ patterns) {word : Word}
    {instruction : Instruction} (decodes : decode? word = some instruction)
    : fits pattern word = true ↔ pattern = instruction.pattern := by
  constructor
  · intro fitting
    obtain ⟨other, decodes', spelled⟩ := decode?_of_fits documented fitting
    rw [decodes, Option.some.injEq] at decodes'
    rw [← spelled, decodes']
  · rintro rfl
    rw [← encode_of_decode? decodes]
    exact fits_encode instruction

theorem decode?_eq_none_iff_fits {word : Word}
    : decode? word = none ↔ ∀ pattern ∈ patterns, fits pattern word = false := by
  constructor
  · intro undecodable pattern documented
    cases fitting : fits pattern word with
    | false => rfl
    | true =>
        obtain ⟨instruction, decodes, _⟩ := decode?_of_fits documented fitting
        rw [undecodable] at decodes
        contradiction
  · intro unfit
    cases decodes : decode? word with
    | none => rfl
    | some instruction =>
        have fitting := (fits_iff instruction.pattern_mem decodes).mpr rfl
        rw [unfit _ instruction.pattern_mem] at fitting
        contradiction

-----------------------------------------------------------------------------------------
-- The words that stand for nothing
-----------------------------------------------------------------------------------------

/-- Whether a word is in one of the gaps that the families of instructions have. -/
def Unassigned (word : Word) : Prop :=
  match word.family with
  | 0x0 => word ≠ ⟨0x00, 0xE0⟩ ∧ word ≠ ⟨0x00, 0xEE⟩
  | 0x5 | 0x9 => word.n ≠ 0x0
  | 0x8 => word.n ∈ ([0x8, 0x9, 0xA, 0xB, 0xC, 0xD, 0xF] : List Nibble)
  | 0xE => word.nn ∉ ([0x9E, 0xA1] : List UInt8)
  | 0xF => word.nn ∉ ([0x07, 0x0A, 0x15, 0x18, 0x1E, 0x29, 0x33, 0x55, 0x65] : List UInt8)
  | _ => False

theorem not_unassigned_encode (instruction : Instruction) : ¬Unassigned instruction.encode := by
  cases instruction with
  | clear | ret =>
      rintro ⟨notClear, notRet⟩
      contradiction
  | alu x y op => cases op <;> simp [Unassigned, encode, AluOp.digit]
  | _ => simp [Unassigned, encode]

theorem decode?_of_unassigned {word : Word} (gap : Unassigned word) : decode? word = none := by
  cases decodes : decode? word with
  | none => rfl
  | some instruction =>
      rw [← encode_of_decode? decodes] at gap
      exact absurd gap instruction.not_unassigned_encode

-----------------------------------------------------------------------------------------
-- Whole programs
-----------------------------------------------------------------------------------------

/-- What the words in a row of bytes stand for, word after word. -/
def decodeAll (row : List UInt8) : List (Option Instruction) :=
  (Word.ofBytes row).map decode?

/-- A row of bytes in which every word that stands for an instruction is written anew, as this
instruction is.
-/
def reencode (row : List UInt8) : List UInt8 :=
  (Word.ofBytes row).flatMap fun word => ((decode? word).elim word encode).bytes

theorem decodeAll_encodeAll (program : List Instruction)
    : decodeAll (encodeAll program) = program.map some := by
  have written : encodeAll program = (program.map encode).flatMap Word.bytes := by
    rw [List.flatMap_map]
    rfl
  rw [decodeAll, written, Word.ofBytes_flatMap_bytes, List.map_map]
  exact List.map_congr_left fun instruction _ => decode?_encode instruction

theorem reencode_of_even {row : List UInt8} (even : 2 ∣ row.length) : reencode row = row := by
  have same (word : Word) : (decode? word).elim word encode = word := by
    cases decodes : decode? word with
    | none => rfl
    | some instruction => exact encode_of_decode? decodes
  simp only [reencode, same]
  exact Word.flatMap_bytes_ofBytes even

/-- Programs have one spelling. Whatever a list of instructions is, its bytes are read back as this list;
and bytes of even number stay what they are if every word that stands for an instruction is written
anew. An instruction is written as its documented pattern says, with the digits of its operands, all
of them in range, in place of the letters. A word stands for an instruction exactly if it fits one
of the patterns, it fits only the pattern of the instruction that it stands for, and the gaps of
the families stand for nothing.
-/
theorem programs_have_one_spelling
    : (∀ program, decodeAll (encodeAll program) = program.map some)
      ∧ (∀ row : List UInt8, 2 ∣ row.length → reencode row = row)
      ∧ (∀ word instruction,
          decode? word = some instruction
          → word.digits = fill instruction.pattern.toList instruction.operandDigits
            ∧ (∀ operand ∈ instruction.operands, operand.2.value < operand.2.limit)
            ∧ ∀ pattern ∈ patterns, fits pattern word = true ↔ pattern = instruction.pattern)
      ∧ (∀ instruction : Instruction,
          instruction.pattern ∈ patterns
          ∧ instruction.encode.digits
            = fill instruction.pattern.toList instruction.operandDigits)
      ∧ (∀ word, decode? word = none ↔ ∀ pattern ∈ patterns, fits pattern word = false)
      ∧ ∀ word, Unassigned word → decode? word = none := by
  refine ⟨decodeAll_encodeAll, fun _ => reencode_of_even, ?_, ?_,
    fun _ => decode?_eq_none_iff_fits, fun _ => decode?_of_unassigned⟩
  · intro word instruction decodes
    refine ⟨?_, fun operand _ => operand.2.value_lt_limit, fun _ documented =>
      fits_iff documented decodes⟩
    rw [← encode_of_decode? decodes]
    exact instruction.digits_encode
  · intro instruction
    exact ⟨instruction.pattern_mem, instruction.digits_encode⟩

/-- Bytes that hold a subtraction, a word that stands for nothing and a call. -/
theorem subtraction_gap_and_call_are_spelled_one_way
    : decodeAll [0x8A, 0xB5, 0x8A, 0xB8, 0x2C, 0xDE]
        = [some (.alu 0xA 0xB .subtract), none, some (.call 0xCDE)]
      ∧ reencode [0x8A, 0xB5, 0x8A, 0xB8, 0x2C, 0xDE] = [0x8A, 0xB5, 0x8A, 0xB8, 0x2C, 0xDE]
      ∧ (∀ pattern ∈ patterns,
          fits pattern ⟨0x8A, 0xB5⟩ = true ↔ pattern = "8xy5")
      ∧ decode? ⟨0x8A, 0xB8⟩ = none := by
  obtain ⟨_, unchanged, spelled, _, _, gaps⟩ := programs_have_one_spelling
  have decodes : decode? ⟨0x8A, 0xB5⟩ = some (.alu 0xA 0xB .subtract) := by decide +kernel
  have gap : Unassigned ⟨0x8A, 0xB8⟩ := List.mem_cons_self
  exact ⟨by decide +kernel, unchanged _ (by decide), (spelled _ _ decodes).2.2, gaps _ gap⟩

end Instruction

end Chip8
