import Chip8.Proofs.Checked.Basic
import Chip8.Proofs.ColourText

/-! Reading colours with every cut into a text checked. A text is a row of bytes here, as many for
each character as its encoding takes, and it can be cut where a character ends and nowhere else.
-/

namespace Chip8

namespace Checked

-----------------------------------------------------------------------------------------
-- Texts as rows of bytes
-----------------------------------------------------------------------------------------

/-- How many bytes a text takes. -/
def byteCount : List Char → Nat
  | [] => 0
  | char :: rest => char.utf8Size + byteCount rest

/-- The characters in the first bytes of a text and those behind them, unless the text is shorter or
a character reaches across the cut.
-/
def cut? : Nat → List Char → Option (List Char × List Char)
  | 0, text => some ([], text)
  | _ + 1, [] => none
  | count + 1, char :: rest =>
      if char.utf8Size ≤ count + 1 then
        (cut? (count + 1 - char.utf8Size) rest).map fun (taken, left) => (char :: taken, left)
      else none

/-- The characters from one place of a text to before another, both counted in bytes. -/
def slice (text : List Char) (first last : Nat) : Checked (List Char) :=
  match (cut? last text).bind fun halves => cut? first halves.1 with
  | some (_, part) => .ok part
  | none => .error (.range first last (byteCount text))

/-- The byte that a text writes to base sixteen: at least one digit, behind a plus sign or without
one.
-/
def byte? (text : List Char) : Option UInt8 := do
  let digits := match text with
    | '+' :: rest => rest
    | _ => text
  if digits.isEmpty then none
  else
    let values ← digits.mapM Text.Hex.digit?
    let number := values.foldl (fun number digit => 16 * number + digit) 0
    if number < 256 then some (UInt8.ofNat number) else none

/-- The colour of three channels, if all of them could be read. -/
def gather (text : String) : Option UInt8 → Option UInt8 → Option UInt8 → Except ColourError Colour
  | some red, some green, some blue => .ok ⟨red, green, blue⟩
  | _, _, _ => .error (.channel text)

/-- Reads a colour. Six bytes are cut into pairs, and for three bytes the characters are taken in
order; both only if all of them are characters of ASCII.
-/
def readColour (text : String) : Checked (Except ColourError Colour) :=
  let body := (Text.Blank.trim text.toList).dropWhile (· == '#')
  if byteCount body = 6 ∧ body.all Colour.isAscii = true then do
    let red ← slice body 0 2
    let green ← slice body 2 4
    let blue ← slice body 4 6
    return gather text (byte? red) (byte? green) (byte? blue)
  else if byteCount body = 3 ∧ body.all Colour.isAscii = true then
    let channels := body.map fun digit => byte? [digit, digit]
    -- A channel for which there is no character would stay zero.
    let channel (place : Nat) := (channels[place]?).getD (some 0)
    return gather text (channel 0) (channel 1) (channel 2)
  else return .error (.shape text)

-----------------------------------------------------------------------------------------
-- Texts of ASCII
-----------------------------------------------------------------------------------------

theorem utf8Size_of_ascii {char : Char} (ascii : Colour.isAscii char = true)
    : char.utf8Size = 1 := by
  rw [Char.utf8Size_eq_one_iff]
  have small : char.toNat < 128 := of_decide_eq_true ascii
  exact Nat.le_of_lt_succ small

theorem byteCount_of_ascii {text : List Char} (ascii : text.all Colour.isAscii = true)
    : byteCount text = text.length := by
  induction text with
  | nil => rfl
  | cons char rest ih =>
      rw [List.all_cons, Bool.and_eq_true] at ascii
      rw [byteCount, utf8Size_of_ascii ascii.1, ih ascii.2, List.length_cons, Nat.add_comm]

/-- A text of ASCII can be cut at every place that it has, by induction over the text. -/
theorem cut?_of_ascii {text : List Char} (ascii : text.all Colour.isAscii = true) {count : Nat}
    (inside : count ≤ text.length)
    : cut? count text = some (text.take count, text.drop count) := by
  induction text generalizing count with
  | nil =>
      obtain rfl := Nat.le_zero.mp inside
      rfl
  | cons char rest ih =>
      rw [List.all_cons, Bool.and_eq_true] at ascii
      cases count with
      | zero => rfl
      | succ count =>
          have within : count ≤ rest.length := Nat.le_of_succ_le_succ inside
          rw [cut?, utf8Size_of_ascii ascii.1, if_pos (Nat.le_add_left 1 count),
            Nat.add_sub_cancel, ih ascii.2 within]
          rfl

theorem slice_of_ascii {text : List Char} (ascii : text.all Colour.isAscii = true)
    {first last : Nat} (order : first ≤ last) (inside : last ≤ text.length)
    : slice text first last = .ok ((text.take last).drop first) := by
  have front_ascii : (text.take last).all Colour.isAscii = true :=
    List.all_eq_true.mpr fun char member =>
      List.all_eq_true.mp ascii char (List.mem_of_mem_take member)
  have front_length : first ≤ (text.take last).length := by
    rw [List.length_take_of_le inside]
    exact order
  rw [slice, cut?_of_ascii ascii inside, Option.bind_some, cut?_of_ascii front_ascii front_length]

-----------------------------------------------------------------------------------------
-- Reading comes to the same
-----------------------------------------------------------------------------------------

theorem byte?_pair (first second : Char)
    : byte? [first, second] = Colour.channel? first second := by
  by_cases signed : first = '+'
  · subst signed
    cases read : Text.Hex.digit? second with
    | none => simp [byte?, Colour.channel?, read]
    | some low =>
        have small : low < 256 := Nat.lt_trans (Text.Hex.digit?_lt read) (by decide)
        simp [byte?, Colour.channel?, read, small]
  · cases readHigh : Text.Hex.digit? first with
    | none => simp [byte?, Colour.channel?_eq, Colour.unsignedDigit, readHigh, signed]
    | some high =>
        cases readLow : Text.Hex.digit? second with
        | none => simp [byte?, Colour.channel?, readHigh, readLow, signed]
        | some low =>
            have highSmall := Text.Hex.digit?_lt readHigh
            have lowSmall := Text.Hex.digit?_lt readLow
            have small : 16 * high + low < 256 := by omega
            simp [byte?, Colour.channel?, readHigh, readLow, small, signed]

theorem gather_eq (text : String) (red green blue : Char × Char)
    : gather text (byte? [red.1, red.2]) (byte? [green.1, green.2]) (byte? [blue.1, blue.2])
      = (Colour.ofPairs? red green blue).elim (.error (.channel text)) .ok := by
  rw [byte?_pair, byte?_pair, byte?_pair, Colour.ofPairs?]
  cases Colour.channel? red.1 red.2 <;> cases Colour.channel? green.1 green.2
    <;> cases Colour.channel? blue.1 blue.2 <;> rfl

/-- By the number of characters, once all of them are characters of ASCII. -/
theorem readColour_eq (text : String) : readColour text = .ok (Colour.ofText text) := by
  simp only [readColour, Colour.ofText]
  generalize (Text.Blank.trim text.toList).dropWhile (· == '#') = body
  cases ascii : body.all Colour.isAscii with
  | false => simp
  | true =>
      rw [byteCount_of_ascii ascii]
      rcases body with _ | ⟨a, _ | ⟨b, _ | ⟨c, _ | ⟨d, _ | ⟨e, _ | ⟨f, _ | ⟨more, rest⟩⟩⟩⟩⟩⟩⟩
      · rfl
      · rfl
      · rfl
      · -- Three characters count twice each.
        refine congrArg Except.ok ((gather_eq text (a, a) (b, b) (c, c)).trans ?_)
        cases met : Colour.ofPairs? (a, a) (b, b) (c, c) <;> simp [met]
      · rfl
      · rfl
      · -- Six characters are cut into three pairs.
        have cuts (first last : Nat) (order : first ≤ last) (inside : last ≤ 6) :=
          slice_of_ascii ascii order inside
        rw [if_pos ⟨rfl, rfl⟩, cuts 0 2 (by decide) (by decide), ok_bind,
          cuts 2 4 (by decide) (by decide), ok_bind, cuts 4 6 (by decide) (by decide), ok_bind]
        refine congrArg Except.ok ((gather_eq text (a, b) (c, d) (e, f)).trans ?_)
        cases met : Colour.ofPairs? (a, b) (c, d) (e, f) <;> simp [met]
      · simp

end Checked

open Colour in
/-- No text makes the reading of a colour cut through a character or leave the text. A text is read
as a colour exactly if it is white space, any number of marks, six digits or three, and white
space, where a plus sign may stand for a zero at the head of a pair; every other text is an error.
Those read without a plus sign and without a second mark are exactly the documented ones.
-/
theorem texts_are_read_as_colours_exactly (text : String) (colour : Colour)
    : Checked.readColour text = .ok (ofText text)
      ∧ (ofText text = .ok colour
        ↔ ∃ (margins : Text.Margins) (marks : Nat) (typed : List Char),
            text.toList = margins.around (List.replicate marks '#' ++ typed)
            ∧ Spelled (unsigned typed) colour)
      ∧ (Documented text colour
        ↔ ofText text = .ok colour
          ∧ text.toList.count '+' = 0
          ∧ text.toList.count '#' ≤ 1) :=
  ⟨Checked.readColour_eq text, ofText_eq_ok_iff, documented_iff⟩

open Colour in
/-- Neither plus signs nor a second mark are documented, and both are read. -/
theorem plus_signs_and_second_marks_are_read
    : ofText "+a+b+c" = .ok ⟨0x0A, 0x0B, 0x0C⟩
      ∧ ofText "##abc" = .ok ⟨0xAA, 0xBB, 0xCC⟩
      ∧ ∀ colour, ¬Documented "+a+b+c" colour ∧ ¬Documented "##abc" colour := by
  refine ⟨rfl, rfl, fun colour => ⟨fun signed => ?_, fun marked => ?_⟩⟩
  · exact absurd (documented_iff.mp signed).2.1 (by decide)
  · exact absurd (documented_iff.mp marked).2.2 (by decide)

end Chip8
