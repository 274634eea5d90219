import Chip8.Colour
import Chip8.Nibble
import Mathlib.Data.List.DropRight

/-! How colours are spelled, and which texts are read as colours. Digits may be in either case, and
white space around a colour says nothing. What is read but not documented is a plus sign for the
first digit of a pair, and a further mark.
-/

namespace Chip8

-----------------------------------------------------------------------------------------
-- Digits of sixteen in either case
-----------------------------------------------------------------------------------------

namespace Text.Hex

theorem toUpper_of_outside {char : Char} (outside : char.toNat < 97 ∨ 122 < char.toNat)
    : char.toUpper = char := by
  have other : ¬('a'.val ≤ char.val ∧ char.val ≤ 'z'.val) := by
    rintro ⟨from_a, to_z⟩
    have from_a : 97 ≤ char.toNat := from_a
    have to_z : char.toNat ≤ 122 := to_z
    omega
  exact dif_neg other

theorem code_digit : ∀ digit : Nibble, 48 ≤ digit.digit.toNat ∧ digit.digit.toNat < 128 := by
  decide

/-- No digit, in either case, has a code below that of zero, and all are characters of ASCII. -/
theorem code_of_digit {char : Char} {digit : Nibble} (written : char.toUpper = digit.digit)
    : 48 ≤ char.toNat ∧ char.toNat < 128 := by
  by_cases outside : char.toNat < 97 ∨ 122 < char.toNat
  · rw [toUpper_of_outside outside] at written
    exact written ▸ code_digit digit
  · omega

theorem digit?_of_large {char : Char} (large : 128 ≤ char.toNat) : digit? char = none := by
  have outside {first last : Char} (small : last.toNat < 128) : ¬(first ≤ char ∧ char ≤ last) := by
    rintro ⟨_, inside⟩
    have below : char.toNat ≤ last.toNat := inside
    omega
  rw [digit?, if_neg (outside (by decide)), if_neg (outside (by decide)),
    if_neg (outside (by decide))]

theorem digit_injective : ∀ digit other : Nibble, digit.digit = other.digit → digit = other := by
  decide

/-- Character by character of ASCII. -/
theorem digit?_ofNat
    : ∀ code < 128,
        digit? (Char.ofNat code)
          = ((List.finRange 16).find? fun digit =>
              Nibble.digit digit == (Char.ofNat code).toUpper).map Fin.val := by
  decide +kernel

/-- A character is read as a digit if its upper case is how the digit is written. -/
theorem digit?_eq_some_iff {char : Char} {digit : Nibble}
    : digit? char = some digit.val ↔ char.toUpper = digit.digit := by
  rcases Nat.lt_or_ge char.toNat 128 with small | large
  · have found := digit?_ofNat char.toNat small
    rw [Char.ofNat_toNat] at found
    have alone (digit other : Nibble) (written : (digit.digit == char.toUpper) = true)
        (written_other : (other.digit == char.toUpper) = true)
        : digit = other :=
      digit_injective _ _ ((beq_iff_eq.mp written).trans (beq_iff_eq.mp written_other).symm)
    rw [found, Option.map_eq_some_iff]
    constructor
    · rintro ⟨other, met, same⟩
      obtain rfl := Fin.ext same
      exact (beq_iff_eq.mp ((Nibble.find?_eq_some_iff alone).mp met)).symm
    · intro written
      have met := (Nibble.find?_eq_some_iff alone).mpr (beq_iff_eq.mpr written.symm)
      exact ⟨digit, met, rfl⟩
  · rw [digit?_of_large large]
    refine ⟨nofun, fun written => ?_⟩
    exact absurd (code_of_digit written).2 (Nat.not_lt.mpr large)

theorem digit?_lt {char : Char} {value : Nat} (read : digit? char = some value) : value < 16 := by
  rcases Nat.lt_or_ge char.toNat 128 with small | large
  · have found := digit?_ofNat char.toNat small
    rw [Char.ofNat_toNat, read] at found
    obtain ⟨digit, _, rfl⟩ := Option.map_eq_some_iff.mp found.symm
    exact digit.isLt
  · rw [digit?_of_large large] at read
    contradiction

end Text.Hex

namespace Nibble

/-- The byte of two digits of sixteen. -/
def join (high low : Nibble) : UInt8 :=
  UInt8.ofNat (16 * high.val + low.val)

theorem join_high_low (byte : UInt8) : join (high byte) (low byte) = byte := by
  rw [join, high_low, UInt8.ofNat_toNat]

theorem toNat_join (first second : Nibble)
    : (join first second).toNat = 16 * first.val + second.val := by
  rw [join, UInt8.toNat_ofNat', Nat.mod_eq_of_lt]
  omega

theorem high_join (first second : Nibble) : high (join first second) = first := by
  apply Fin.ext
  show (join first second).toNat / 16 = first.val
  rw [toNat_join]
  omega

theorem low_join (first second : Nibble) : low (join first second) = second := by
  apply Fin.ext
  show (join first second).toNat % 16 = second.val
  rw [toNat_join]
  omega

end Nibble

-----------------------------------------------------------------------------------------
-- White space around a text
-----------------------------------------------------------------------------------------

namespace Text

/-- White space on both sides of a text. -/
structure Margins where
  before : List Char
  after : List Char
  before_blank : ∀ char ∈ before, Blank.isBlank char = true
  after_blank : ∀ char ∈ after, Blank.isBlank char = true

theorem dropWhile_append {α : Type} {test : α → Bool} {front rest : List α}
    (drops : ∀ item ∈ front, test item = true) (keeps : ∀ item ∈ rest, test item = false)
    : (front ++ rest).dropWhile test = rest := by
  rw [List.dropWhile_append_of_pos drops, List.dropWhile_eq_self_iff]
  intro nonempty
  exact Bool.eq_false_iff.mp (keeps _ (List.getElem_mem nonempty))

namespace Margins

def around (margins : Margins) (text : List Char) : List Char :=
  margins.before ++ text ++ margins.after

/-- A text without white space is what is left of it amid margins. -/
theorem trim_around (margins : Margins) {text : List Char}
    (solid : ∀ char ∈ text, Blank.isBlank char = false)
    : Blank.trim (margins.around text) = text := by
  have ended : (text ++ margins.after).rdropWhile Blank.isBlank = text := by
    rw [List.rdropWhile, List.reverse_append, dropWhile_append, List.reverse_reverse]
    · exact fun char member => margins.after_blank char (List.mem_reverse.mp member)
    · exact fun char member => solid char (List.mem_reverse.mp member)
  show ((margins.around text).dropWhile Blank.isBlank).rdropWhile Blank.isBlank = text
  rw [around, List.append_assoc, List.dropWhile_append_of_pos margins.before_blank]
  cases text with
  | nil =>
      have nothing : margins.after.dropWhile Blank.isBlank = [] :=
        List.dropWhile_eq_nil_iff.mpr margins.after_blank
      rw [List.nil_append, nothing]
      rfl
  | cons char rest =>
      rw [List.cons_append, List.dropWhile_cons_of_neg, ← List.cons_append, ended]
      exact Bool.eq_false_iff.mp (solid char List.mem_cons_self)

/-- Every text is what is left of it amid margins. -/
theorem exists_around (text : List Char)
    : ∃ margins : Margins, text = margins.around (Blank.trim text) := by
  refine ⟨⟨text.takeWhile Blank.isBlank,
    (text.dropWhile Blank.isBlank).rtakeWhile Blank.isBlank,
    fun _ => List.mem_takeWhile_imp, fun _ => List.mem_rtakeWhile_imp⟩, ?_⟩
  show text
    = text.takeWhile Blank.isBlank
        ++ (text.dropWhile Blank.isBlank).rdropWhile Blank.isBlank
        ++ (text.dropWhile Blank.isBlank).rtakeWhile Blank.isBlank
  rw [List.append_assoc, List.rdropWhile_append_rtakeWhile, List.takeWhile_append_dropWhile]

end Margins

end Text

-----------------------------------------------------------------------------------------
-- Spelled colours
-----------------------------------------------------------------------------------------

namespace Colour

/-- The six digits of a colour in upper case, two for each channel. -/
def digits (colour : Colour) : List Char :=
  [colour.red, colour.green, colour.blue].flatMap fun byte =>
    [(Nibble.high byte).digit, (Nibble.low byte).digit]

/-- The colour each channel of which has one digit twice. -/
def doubled (red green blue : Nibble) : Colour where
  red := UInt8.ofNat (17 * red.val)
  green := UInt8.ofNat (17 * green.val)
  blue := UInt8.ofNat (17 * blue.val)

/-- What is typed for a colour: its six digits, or three digits of which each counts twice. -/
inductive Spelled (typed : List Char) (colour : Colour) : Prop where
  | long (written : typed.map Char.toUpper = colour.digits)
  | short (red green blue : Nibble)
    (written : typed.map Char.toUpper = [red.digit, green.digit, blue.digit])
    (doubles : colour = doubled red green blue)

/-- The mark that may stand in front of a colour. -/
def mark (marked : Bool) : List Char :=
  if marked then ['#'] else []

/-- A text that is documented to be a colour: what is typed for it, behind a mark or without one,
and white space around that.
-/
def Documented (text : String) (colour : Colour) : Prop :=
  ∃ (margins : Text.Margins) (marked : Bool) (typed : List Char),
    text.toList = margins.around (mark marked ++ typed) ∧ Spelled typed colour

/-- A plus sign is read as a zero. -/
def unsignedDigit (char : Char) : Char :=
  if char = '+' then '0' else char

/-- What is typed, with a zero for each plus sign that stands for the first digit of a pair. -/
def unsigned : List Char → List Char
  | [r, r', g, g', b, b'] => [unsignedDigit r, r', unsignedDigit g, g', unsignedDigit b, b']
  | typed => typed

-----------------------------------------------------------------------------------------
-- What is read
-----------------------------------------------------------------------------------------

/-- A pair is read by its two digits, the first of which may be a plus sign. -/
theorem channel?_eq (first second : Char)
    : channel? first second
      = (Text.Hex.digit? (unsignedDigit first)).bind fun high =>
          (Text.Hex.digit? second).map fun low => UInt8.ofNat (16 * high + low) := by
  have zero : Text.Hex.digit? '0' = some 0 := rfl
  rw [channel?, unsignedDigit]
  split
  · rw [zero, Option.bind_some]
    cases Text.Hex.digit? second <;> simp
  · cases Text.Hex.digit? first <;> cases Text.Hex.digit? second <;> rfl

theorem channel?_eq_some_iff {first second : Char} {byte : UInt8}
    : channel? first second = some byte
      ↔ (unsignedDigit first).toUpper = (Nibble.high byte).digit
        ∧ second.toUpper = (Nibble.low byte).digit := by
  rw [channel?_eq, ← Text.Hex.digit?_eq_some_iff, ← Text.Hex.digit?_eq_some_iff,
    Option.bind_eq_some_iff]
  simp only [Option.map_eq_some_iff]
  constructor
  · rintro ⟨high, readHigh, low, readLow, rfl⟩
    let first : Nibble := ⟨high, Text.Hex.digit?_lt readHigh⟩
    let second : Nibble := ⟨low, Text.Hex.digit?_lt readLow⟩
    have joined : UInt8.ofNat (16 * high + low) = Nibble.join first second := rfl
    rw [joined, Nibble.high_join, Nibble.low_join]
    exact ⟨readHigh, readLow⟩
  · rintro ⟨readHigh, readLow⟩
    exact ⟨_, readHigh, _, readLow, Nibble.join_high_low byte⟩

theorem ofPairs?_eq_some_iff {red green blue : Char × Char} {colour : Colour}
    : ofPairs? red green blue = some colour
      ↔ channel? red.1 red.2 = some colour.red
        ∧ channel? green.1 green.2 = some colour.green
        ∧ channel? blue.1 blue.2 = some colour.blue := by
  obtain ⟨r, g, b⟩ := colour
  simp only [ofPairs?, Option.pure_def, Option.bind_eq_bind, Option.bind_eq_some_iff,
    Option.some.injEq, mk.injEq]
  constructor
  · rintro ⟨_, readRed, _, readGreen, _, readBlue, rfl, rfl, rfl⟩
    exact ⟨readRed, readGreen, readBlue⟩
  · rintro ⟨readRed, readGreen, readBlue⟩
    exact ⟨_, readRed, _, readGreen, _, readBlue, rfl, rfl, rfl⟩

/-- Six characters are read if they are the digits of a colour, up to plus signs. -/
theorem ofPairs?_long {r r' g g' b b' : Char} {colour : Colour}
    : ofPairs? (r, r') (g, g') (b, b') = some colour
      ↔ (unsigned [r, r', g, g', b, b']).map Char.toUpper = colour.digits := by
  simp [ofPairs?_eq_some_iff, channel?_eq_some_iff, unsigned, digits, and_assoc]

theorem doubled_eq_join (digit : Nibble)
    : UInt8.ofNat (17 * digit.val) = Nibble.join digit digit := by
  rw [Nibble.join]
  congr 1
  omega

/-- A character that is read twice for a byte is a digit, since a plus sign is none. -/
theorem channel?_twice {char : Char} {byte : UInt8}
    : channel? char char = some byte
      ↔ ∃ digit : Nibble, char.toUpper = digit.digit ∧ UInt8.ofNat (17 * digit.val) = byte := by
  have unsigned_of_digit {digit : Nibble} (written : char.toUpper = digit.digit)
      : unsignedDigit char = char := by
    apply if_neg
    rintro rfl
    have none_read : Text.Hex.digit? '+' = none := rfl
    rw [← Text.Hex.digit?_eq_some_iff, none_read] at written
    contradiction
  rw [channel?_eq_some_iff]
  constructor
  · rintro ⟨high, low⟩
    rw [unsigned_of_digit low] at high
    have same := Text.Hex.digit_injective _ _ (high.symm.trans low)
    refine ⟨Nibble.low byte, low, ?_⟩
    rw [doubled_eq_join]
    nth_rewrite 1 [← same]
    exact Nibble.join_high_low byte
  · rintro ⟨digit, written, rfl⟩
    rw [unsigned_of_digit written, doubled_eq_join, Nibble.high_join, Nibble.low_join]
    exact ⟨written, written⟩

/-- Three characters are read if they are digits, each of which counts twice. -/
theorem ofPairs?_short {r g b : Char} {colour : Colour}
    : ofPairs? (r, r) (g, g) (b, b) = some colour
      ↔ ∃ red green blue : Nibble,
          [r, g, b].map Char.toUpper = [red.digit, green.digit, blue.digit]
          ∧ colour = doubled red green blue := by
  obtain ⟨red, green, blue⟩ := colour
  simp only [ofPairs?_eq_some_iff, channel?_twice, List.map_cons, List.map_nil, List.cons.injEq,
    and_true, doubled, mk.injEq]
  constructor
  · rintro ⟨⟨r', readRed, rfl⟩, ⟨g', readGreen, rfl⟩, b', readBlue, rfl⟩
    exact ⟨r', g', b', ⟨readRed, readGreen, readBlue⟩, rfl, rfl, rfl⟩
  · rintro ⟨r', g', b', ⟨readRed, readGreen, readBlue⟩, rfl, rfl, rfl⟩
    exact ⟨⟨r', readRed, rfl⟩, ⟨g', readGreen, rfl⟩, b', readBlue, rfl⟩

theorem length_unsigned (typed : List Char) : (unsigned typed).length = typed.length := by
  rw [unsigned.eq_def]
  split <;> rfl

theorem mem_unsigned_or {typed : List Char} {char : Char} (member : char ∈ typed)
    : char = '+' ∨ char ∈ unsigned typed := by
  by_cases signed : char = '+'
  · exact .inl signed
  · have kept : unsignedDigit char = char := if_neg signed
    right
    rw [unsigned.eq_def]
    split
    · simp only [List.mem_cons, List.not_mem_nil, or_false] at member ⊢
      rcases member with rfl | rfl | rfl | rfl | rfl | rfl <;> simp [kept]
    · exact member

namespace Spelled

variable {typed : List Char} {colour : Colour}

theorem length (spelled : Spelled typed colour) : typed.length = 6 ∨ typed.length = 3 := by
  cases spelled with
  | long written => exact .inl (by simpa [digits] using congrArg List.length written)
  | short red green blue written _ =>
      exact .inr (by simpa using congrArg List.length written)

theorem digit_of_mem (spelled : Spelled typed colour) {char : Char} (member : char ∈ typed)
    : ∃ digit : Nibble, char.toUpper = digit.digit := by
  have listed : char.toUpper ∈ typed.map Char.toUpper := List.mem_map_of_mem member
  cases spelled with
  | long written =>
      rw [written, digits, List.mem_flatMap] at listed
      obtain ⟨byte, _, listed⟩ := listed
      rcases List.mem_pair.mp listed with first | second
      · exact ⟨_, first⟩
      · exact ⟨_, second⟩
  | short red green blue written _ =>
      rw [written] at listed
      simp only [List.mem_cons, List.not_mem_nil, or_false] at listed
      rcases listed with first | second | third
      · exact ⟨_, first⟩
      · exact ⟨_, second⟩
      · exact ⟨_, third⟩

end Spelled

/-- What is read is typed with plus signs and with digits, which are characters of ASCII. -/
theorem code_of_read {typed : List Char} {colour : Colour}
    (spelled : Spelled (unsigned typed) colour) {char : Char} (member : char ∈ typed)
    : char = '+' ∨ 48 ≤ char.toNat ∧ char.toNat < 128 := by
  rcases mem_unsigned_or member with plus | kept
  · exact .inl plus
  · obtain ⟨digit, written⟩ := spelled.digit_of_mem kept
    exact .inr (Text.Hex.code_of_digit written)

theorem isAscii_of_read {typed : List Char} {colour : Colour}
    (spelled : Spelled (unsigned typed) colour)
    : typed.all isAscii = true := by
  rw [List.all_eq_true]
  intro char member
  rcases code_of_read spelled member with rfl | ⟨_, small⟩
  · rfl
  · exact decide_eq_true small

/-- A colour is read from what is spelled behind all marks, up to plus signs. -/
theorem ofText_eq_ok_iff_body {text : String} {colour : Colour}
    : ofText text = .ok colour
      ↔ Spelled (unsigned ((Text.Blank.trim text.toList).dropWhile (· == '#'))) colour := by
  simp only [ofText]
  generalize (Text.Blank.trim text.toList).dropWhile (· == '#') = body
  split
  · next foreign =>
      refine ⟨nofun, fun spelled => ?_⟩
      rw [isAscii_of_read spelled] at foreign
      contradiction
  · split
    · next r r' g g' b b' =>
        constructor
        · intro read
          split at read
          · next met =>
              obtain rfl := Except.ok.inj read
              exact .long (ofPairs?_long.mp met)
          · contradiction
        · intro spelled
          cases spelled with
          | long written => rw [ofPairs?_long.mpr written]
          | short red green blue written _ => simp [unsigned] at written
    · next r g b =>
        constructor
        · intro read
          split at read
          · next met =>
              obtain rfl := Except.ok.inj read
              obtain ⟨red, green, blue, written, doubles⟩ := ofPairs?_short.mp met
              exact .short red green blue written doubles
          · contradiction
        · intro spelled
          cases spelled with
          | long written => simp [unsigned, digits] at written
          | short red green blue written doubles =>
              rw [ofPairs?_short.mpr ⟨red, green, blue, written, doubles⟩]
    · next notSix notThree =>
        refine ⟨nofun, fun spelled => ?_⟩
        rcases length_unsigned body ▸ spelled.length with six | three
        · match body, six with
          | [r, r', g, g', b, b'], _ => exact (notSix _ _ _ _ _ _ rfl).elim
        · match body, three with
          | [r, g, b], _ => exact (notThree _ _ _ rfl).elim

theorem not_blank_of_code {char : Char} (code : 48 ≤ char.toNat ∧ char.toNat < 128)
    : Text.Blank.isBlank char = false := by
  simp [Text.Blank.isBlank]
  omega

/-- A text is what is left of it behind a number of marks. -/
theorem exists_marks (text : List Char)
    : ∃ marks, text = List.replicate marks '#' ++ text.dropWhile (· == '#') := by
  have taken
      : text.takeWhile (· == '#')
        = List.replicate (text.takeWhile (· == '#')).length '#' := by
    apply List.eq_replicate_of_mem
    intro char member
    have met := List.mem_takeWhile_imp member
    exact beq_iff_eq.mp met
  refine ⟨(text.takeWhile (· == '#')).length, ?_⟩
  rw [← taken, List.takeWhile_append_dropWhile]

/-- A colour is read from a text exactly if it is spelled there amid white space, behind any number
of marks and with any plus signs.
-/
theorem ofText_eq_ok_iff {text : String} {colour : Colour}
    : ofText text = .ok colour
      ↔ ∃ (margins : Text.Margins) (marks : Nat) (typed : List Char),
          text.toList = margins.around (List.replicate marks '#' ++ typed)
          ∧ Spelled (unsigned typed) colour := by
  rw [ofText_eq_ok_iff_body]
  constructor
  · intro spelled
    obtain ⟨margins, amid⟩ := Text.Margins.exists_around text.toList
    obtain ⟨marks, split⟩ := exists_marks (Text.Blank.trim text.toList)
    refine ⟨margins, marks, _, ?_, spelled⟩
    rw [← split]
    exact amid
  · rintro ⟨margins, marks, typed, amid, spelled⟩
    have solid : ∀ char ∈ List.replicate marks '#' ++ typed, Text.Blank.isBlank char = false := by
      intro char member
      rcases List.mem_append.mp member with marking | member
      · rw [List.eq_of_mem_replicate marking]
        rfl
      · rcases code_of_read spelled member with rfl | code
        · rfl
        · exact not_blank_of_code code
    have drops : ∀ char ∈ List.replicate marks '#', (char == '#') = true := by
      intro char member
      exact beq_iff_eq.mpr (List.eq_of_mem_replicate member)
    have keeps : ∀ char ∈ typed, (char == '#') = false := by
      intro char member
      rw [beq_eq_false_iff_ne]
      rintro rfl
      rcases code_of_read spelled member with plus | ⟨large, _⟩
      · contradiction
      · contradiction
    rw [amid, margins.trim_around solid, Text.dropWhile_append drops keeps]
    exact spelled

-----------------------------------------------------------------------------------------
-- What is documented
-----------------------------------------------------------------------------------------

theorem unsigned_of_not_mem {typed : List Char} (none_signed : '+' ∉ typed)
    : unsigned typed = typed := by
  have kept {char : Char} (member : char ∈ typed) : unsignedDigit char = char := by
    apply if_neg
    rintro rfl
    exact none_signed member
  rw [unsigned.eq_def]
  split
  · rw [kept (by simp), kept (by simp), kept (by simp)]
  · rfl

theorem Spelled.unsigned_eq {typed : List Char} {colour : Colour} (spelled : Spelled typed colour)
    : unsigned typed = typed := by
  apply unsigned_of_not_mem
  intro member
  obtain ⟨digit, written⟩ := spelled.digit_of_mem member
  exact absurd (Text.Hex.code_of_digit written).1 (by decide)

theorem mark_eq (marked : Bool) : mark marked = List.replicate marked.toNat '#' := by
  cases marked <;> rfl

/-- White space and digits are no marks and no signs. -/
theorem count_around {typed : List Char} {colour : Colour} (spelled : Spelled typed colour)
    (margins : Text.Margins) (marks : Nat)
    : (margins.around (List.replicate marks '#' ++ typed)).count '+' = 0
      ∧ (margins.around (List.replicate marks '#' ++ typed)).count '#' = marks := by
  have digits_only {char : Char} (other : char.toNat < 48) : typed.count char = 0 := by
    apply List.count_eq_zero_of_not_mem
    intro member
    obtain ⟨digit, written⟩ := spelled.digit_of_mem member
    exact absurd (Text.Hex.code_of_digit written).1 (Nat.not_le.mpr other)
  have not_amid_blanks {margin : List Char} {char : Char}
      (blank : ∀ char ∈ margin, Text.Blank.isBlank char = true)
      (solid : Text.Blank.isBlank char = false)
      : margin.count char = 0 := by
    apply List.count_eq_zero_of_not_mem
    intro member
    exact absurd (blank char member) (Bool.eq_false_iff.mp solid)
  constructor
  · rw [Text.Margins.around, List.count_append, List.count_append, List.count_append,
      not_amid_blanks margins.before_blank rfl, not_amid_blanks margins.after_blank rfl,
      digits_only (by decide), List.count_replicate]
    rfl
  · rw [Text.Margins.around, List.count_append, List.count_append, List.count_append,
      not_amid_blanks margins.before_blank rfl, not_amid_blanks margins.after_blank rfl,
      digits_only (by decide), List.count_replicate_self]
    omega

/-- The texts that are documented to be colours are those that are read as such and have no plus
sign and no further mark.
-/
theorem documented_iff {text : String} {colour : Colour}
    : Documented text colour
      ↔ ofText text = .ok colour
        ∧ text.toList.count '+' = 0
        ∧ text.toList.count '#' ≤ 1 := by
  rw [ofText_eq_ok_iff]
  constructor
  · rintro ⟨margins, marked, typed, amid, spelled⟩
    rw [mark_eq] at amid
    obtain ⟨signs, marks⟩ := count_around spelled margins marked.toNat
    rw [← amid] at signs marks
    refine ⟨⟨margins, marked.toNat, typed, amid, spelled.unsigned_eq.symm ▸ spelled⟩, signs, ?_⟩
    rw [marks]
    exact marked.toNat_le
  · rintro ⟨⟨margins, marks, typed, amid, spelled⟩, signs, further⟩
    have within : typed.Sublist text.toList := by
      rw [amid, Text.Margins.around]
      exact (List.sublist_append_right _ _).trans
        ((List.sublist_append_right _ _).trans (List.sublist_append_left _ _))
    have none_signed : '+' ∉ typed := fun member =>
      List.count_eq_zero.mp signs (within.subset member)
    rw [unsigned_of_not_mem none_signed] at spelled
    have counted := (count_around spelled margins marks).2
    rw [← amid] at counted
    rw [counted] at further
    refine ⟨margins, decide (marks = 1), typed, ?_, spelled⟩
    have same : mark (decide (marks = 1)) = List.replicate marks '#' := by
      rcases Nat.le_one_iff_eq_zero_or_eq_one.mp further with rfl | rfl <;> rfl
    rw [same]
    exact amid

-----------------------------------------------------------------------------------------
-- What is spelled is read back
-----------------------------------------------------------------------------------------

theorem ofText_of_spelled (margins : Text.Margins) (marked : Bool) {typed : List Char}
    {colour : Colour} (spelled : Spelled typed colour)
    : ofText (String.ofList (margins.around (mark marked ++ typed))) = .ok colour := by
  have documented
      : Documented (String.ofList (margins.around (mark marked ++ typed))) colour :=
    ⟨margins, marked, typed, String.toList_ofList, spelled⟩
  exact (documented_iff.mp documented).1

/-- Three digits typed twice each are the six digits of the colour that they spell. -/
theorem spelled_twice {typed : List Char} {red green blue : Nibble}
    (written : typed.map Char.toUpper = [red.digit, green.digit, blue.digit])
    : Spelled (typed.flatMap fun char => [char, char]) (doubled red green blue) := by
  have both
      : (typed.flatMap fun char => [char, char]).map Char.toUpper
        = (typed.map Char.toUpper).flatMap fun char => [char, char] := by
    rw [List.map_flatMap, List.flatMap_map]
    rfl
  apply Spelled.long
  rw [both, written, digits, doubled]
  simp only [doubled_eq_join, List.flatMap_cons, List.flatMap_nil, Nibble.high_join,
    Nibble.low_join]

end Colour

open Colour in
/-- Amid any white space, behind a mark or without one and with every digit in either case, the six
digits of a colour are read as this colour. So are three digits as the colour each channel of
which is seventeen times its digit, which is also what the same three digits come to if each is
typed twice.
-/
theorem spelled_colours_are_read_back (margins : Text.Margins) (marked : Bool)
    : let read (typed : List Char) :=
        ofText (String.ofList (margins.around (mark marked ++ typed)))
      (∀ (colour : Colour) (typed : List Char),
        typed.map Char.toUpper = colour.digits → read typed = .ok colour)
      ∧ ∀ (red green blue : Nibble) (typed : List Char),
          typed.map Char.toUpper = [red.digit, green.digit, blue.digit]
          → read typed
              = .ok
                  ⟨UInt8.ofNat (17 * red.val), UInt8.ofNat (17 * green.val),
                    UInt8.ofNat (17 * blue.val)⟩
            ∧ read (typed.flatMap fun char => [char, char]) = read typed := by
  intro read
  constructor
  · intro colour typed written
    exact ofText_of_spelled margins marked (.long written)
  · intro red green blue typed written
    have short : read typed = .ok (doubled red green blue) :=
      ofText_of_spelled margins marked (.short red green blue written rfl)
    have long
        : read (typed.flatMap fun char => [char, char]) = .ok (doubled red green blue) :=
      ofText_of_spelled margins marked (spelled_twice written)
    exact ⟨short, long.trans short.symm⟩

open Colour in
/-- A colour in mixed case behind a mark, after a tab and a space and before a wide space and the
end of the line.
-/
theorem padded_colours_are_read_back
    : "f9FFb3".toList.map Char.toUpper = digits ⟨0xF9, 0xFF, 0xB3⟩
      ∧ ofText "\t #f9FFb3\u3000\n" = .ok ⟨0xF9, 0xFF, 0xB3⟩
      ∧ "aB7".toList.map Char.toUpper = [(0xA : Nibble).digit, (0xB : Nibble).digit, '7']
      ∧ ofText "\t #aB7\u3000\n" = .ok ⟨0xAA, 0xBB, 0x77⟩
      ∧ ofText "\t #aaBB77\u3000\n" = ofText "\t #aB7\u3000\n" := by
  let margins : Text.Margins :=
    ⟨['\t', ' '], ['\u3000', '\n'], List.all_eq_true.mp rfl, List.all_eq_true.mp rfl⟩
  have six : "f9FFb3".toList.map Char.toUpper = digits ⟨0xF9, 0xFF, 0xB3⟩ := by decide
  have three
      : "aB7".toList.map Char.toUpper = [(0xA : Nibble).digit, (0xB : Nibble).digit, '7'] := by
    decide
  have textLong
      : "\t #f9FFb3\u3000\n" = String.ofList (margins.around (mark true ++ "f9FFb3".toList)) :=
    rfl
  have textShort
      : "\t #aB7\u3000\n" = String.ofList (margins.around (mark true ++ "aB7".toList)) :=
    rfl
  have textTwice
      : "\t #aaBB77\u3000\n"
        = String.ofList
            (margins.around (mark true ++ "aB7".toList.flatMap fun char => [char, char])) :=
    rfl
  rw [textLong, textShort, textTwice]
  obtain ⟨long, short⟩ := spelled_colours_are_read_back margins true
  obtain ⟨read, twice⟩ := short 0xA 0xB 0x7 _ three
  exact ⟨six, long _ _ six, three, read, twice⟩

end Chip8
