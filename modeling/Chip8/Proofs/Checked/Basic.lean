import Chip8.Frame
import Chip8.Nibble
import Chip8.Table

/-! Operations with a check. The definitions of this library cannot leave a table or pass a bound,
because the types of their operands say so; the operations here take plain numbers, look first, and
refuse what a program in a language with unchecked types would be stopped for.
-/

namespace Chip8

/-- What an operation with a check refuses. -/
inductive Violation where
  /-- A place that a table does not have, or a byte that is no nibble. -/
  | outside (error : RangeError)
  /-- The places from `first` to before `last` of a table with `length` entries. -/
  | range (first last length : Nat)
  /-- As many entries as `given` for as many places as `wanted`. -/
  | lengths (wanted given : Nat)
  /-- A result that its type does not hold, or a shift by as many places as its operand has. -/
  | overflow
  | zeroDivisor
  deriving DecidableEq, Repr

/-- The result of a computation every operation of which is checked. -/
abbrev Checked := Except Violation

namespace Checked

@[simp] theorem ok_bind {α β : Type} (value : α) (next : α → Checked β)
    : ((Except.ok value : Checked α) >>= next) = next value :=
  rfl

@[simp] theorem pure_eq_ok {α : Type} (value : α) : (pure value : Checked α) = .ok value :=
  rfl

-----------------------------------------------------------------------------------------
-- Tables
-----------------------------------------------------------------------------------------

section Tables

variable {α : Type} {n : Nat}

/-- The entry of a table at a place. -/
def entry (entries : Vector α n) (place : Nat) : Checked α :=
  if inside : place < n then .ok (entries.get ⟨place, inside⟩)
  else .error (.outside (.position n place))

/-- The table with another entry at a place. -/
def replace (entries : Vector α n) (place : Nat) (new : α) : Checked (Vector α n) :=
  if inside : place < n then .ok (replaceAt entries ⟨place, inside⟩ new)
  else .error (.outside (.position n place))

/-- The table with other entries from a place on; those for places behind its end are dropped. -/
def overlay (entries : Vector α n) (first : Nat) (source : List α) : Vector α n :=
  tabulate fun place =>
    if place.val < first then entries.get place
    else (source[place.val - first]?).getD (entries.get place)

/-- The table with other entries at the places from `first` to before `last`, one for each. -/
def copyInto (entries : Vector α n) (first last : Nat) (source : List α) : Checked (Vector α n) :=
  if first ≤ last ∧ last ≤ n then
    if source.length = last - first then .ok (overlay entries first source)
    else .error (.lengths (last - first) source.length)
  else .error (.range first last n)

@[simp] theorem entry_fin (entries : Vector α n) (place : Fin n)
    : entry entries place.val = .ok (entries.get place) :=
  dif_pos place.isLt

@[simp] theorem replace_fin (entries : Vector α n) (place : Fin n) (new : α)
    : replace entries place.val new = .ok (replaceAt entries place new) :=
  dif_pos place.isLt

theorem copyInto_of_fits (entries : Vector α n) {first last : Nat} {source : List α}
    (inside : first ≤ last ∧ last ≤ n) (fits : source.length = last - first)
    : copyInto entries first last source = .ok (overlay entries first source) := by
  rw [copyInto, if_pos inside, if_pos fits]

theorem get_tabulate (value : Fin n → α) (place : Fin n)
    : (tabulate value).get place = value place :=
  getElem_tabulate value place.val place.isLt

theorem get_overlay (entries : Vector α n) (first : Nat) (source : List α) (place : Fin n)
    : (overlay entries first source).get place
      = if place.val < first then entries.get place
        else (source[place.val - first]?).getD (entries.get place) :=
  get_tabulate _ place

theorem get_replaceAt (entries : Vector α n) (changed place : Fin n) (new : α)
    : (replaceAt entries changed new).get place
      = if changed = place then new else entries.get place := by
  show (entries.set changed.val new)[place.val]
    = if changed = place then new else entries[place.val]
  simp only [Vector.getElem_set, Fin.val_inj]

theorem ext_get {left right : Vector α n} (h : ∀ place, left.get place = right.get place)
    : left = right :=
  Vector.ext fun place inside => h ⟨place, inside⟩

end Tables

/-- The pixel in a row and a column. -/
def pixel (frame : Frame) (y x : Nat) : Checked Bool :=
  (frame.pixel y x).mapError .outside

@[simp] theorem pixel_fin (frame : Frame) (y : Fin 32) (x : Fin 64)
    : pixel frame y.val x.val = .ok (frame.lit y x) := by
  have row : y.val < Frame.height := y.isLt
  have column : x.val < Frame.width := x.isLt
  rw [pixel, Frame.pixel, dif_pos row, dif_pos column]
  rfl

-----------------------------------------------------------------------------------------
-- Numbers
-----------------------------------------------------------------------------------------

/-- The sum of two sizes, which has sixty-four bits. -/
def plus (a b : Nat) : Checked Nat :=
  if a + b < UInt64.size then .ok (a + b) else .error .overflow

/-- The product of two sizes, which has sixty-four bits. -/
def times (a b : Nat) : Checked Nat :=
  if a * b < UInt64.size then .ok (a * b) else .error .overflow

/-- The difference of two sizes, which is not negative. -/
def minus (a b : Nat) : Checked Nat :=
  if b ≤ a then .ok (a - b) else .error .overflow

def quotient {α : Type} [Div α] [OfNat α 0] [DecidableEq α] (a divisor : α) : Checked α :=
  if divisor = 0 then .error .zeroDivisor else .ok (a / divisor)

def remainder {α : Type} [Mod α] [OfNat α 0] [DecidableEq α] (a divisor : α) : Checked α :=
  if divisor = 0 then .error .zeroDivisor else .ok (a % divisor)

/-- A byte moved to the right by fewer than eight places. -/
def shiftRight (byte : UInt8) (places : Nat) : Checked UInt8 :=
  if places < 8 then .ok (byte >>> UInt8.ofNat places) else .error .overflow

/-- A byte moved to the left by fewer than eight places. -/
def shiftLeft (byte : UInt8) (places : Nat) : Checked UInt8 :=
  if places < 8 then .ok (byte <<< UInt8.ofNat places) else .error .overflow

/-- Two bytes together, moved to the right by fewer than sixteen places. -/
def shiftRightWide (bytes : UInt16) (places : Nat) : Checked UInt16 :=
  if places < 16 then .ok (bytes >>> UInt16.ofNat places) else .error .overflow

theorem plus_of_small {a b : Nat} (small : a + b < UInt64.size) : plus a b = .ok (a + b) :=
  if_pos small

/-- A sum that is a place of a table fits. -/
theorem plus_eq_fin {n a b : Nat} {place : Fin n} (sum : place.val = a + b)
    (small : n ≤ UInt64.size)
    : plus a b = .ok place.val := by
  rw [sum]
  exact plus_of_small (sum ▸ Nat.lt_of_lt_of_le place.isLt small)

theorem times_of_small {a b : Nat} (small : a * b < UInt64.size) : times a b = .ok (a * b) :=
  if_pos small

theorem minus_of_le {a b : Nat} (le : b ≤ a) : minus a b = .ok (a - b) :=
  if_pos le

theorem quotient_of_ne {α : Type} [Div α] [OfNat α 0] [DecidableEq α] {divisor : α}
    (nonzero : divisor ≠ 0) (a : α)
    : quotient a divisor = .ok (a / divisor) :=
  if_neg nonzero

theorem remainder_of_ne {α : Type} [Mod α] [OfNat α 0] [DecidableEq α] {divisor : α}
    (nonzero : divisor ≠ 0) (a : α)
    : remainder a divisor = .ok (a % divisor) :=
  if_neg nonzero

theorem shiftRight_of_small {places : Nat} (small : places < 8) (byte : UInt8)
    : shiftRight byte places = .ok (byte >>> UInt8.ofNat places) :=
  if_pos small

-----------------------------------------------------------------------------------------
-- Nibbles
-----------------------------------------------------------------------------------------

/-- The nibble equal to a byte. Every nibble that a checked computation comes by is made here, so a
byte above fifteen is refused before it could name a register or a key.
-/
def digit (byte : UInt8) : Checked Nibble :=
  (Nibble.ofByte byte).mapError .outside

theorem digit_of_ofByte? {byte : UInt8} {nibble : Nibble}
    (named : Nibble.ofByte? byte = some nibble)
    : digit byte = .ok nibble := by
  rw [digit, Nibble.ofByte, named]
  rfl

@[simp] theorem digit_toByte (nibble : Nibble) : digit nibble.toByte = .ok nibble :=
  digit_of_ofByte? (Nibble.ofByte?_toByte nibble)

/-- Sixteen is no nibble. -/
example : digit 0x10 = .error (.outside .nibble) :=
  rfl

-----------------------------------------------------------------------------------------
-- Loops
-----------------------------------------------------------------------------------------

/-- A loop whose every round succeeds does so too. What is `reached` before round number `place`
leads to what is reached before the next one, by induction over the number of rounds.
-/
theorem foldlM_range {α : Type} (reached : Nat → α → Prop) {round : α → Nat → Checked α}
    {count : Nat} {start : α} (begun : reached 0 start)
    (goes
      : ∀ place < count,
          ∀ state,
            reached place state
            → ∃ next, round state place = .ok next ∧ reached (place + 1) next)
    : ∃ last, (List.range count).foldlM round start = .ok last ∧ reached count last := by
  induction count with
  | zero => exact ⟨start, rfl, begun⟩
  | succ count ih =>
      obtain ⟨state, earlier, here⟩ := ih fun place before => goes place (Nat.lt_succ_of_lt before)
      obtain ⟨next, last, there⟩ := goes count (Nat.lt_succ_self count) state here
      refine ⟨next, ?_, there⟩
      rw [List.range_succ, List.foldlM_append, earlier, ok_bind, List.foldlM_cons, last]
      rfl

/-- A fold whose every step succeeds is the fold of the results. -/
theorem foldlM_of_ok {α β : Type} {step : α → β → Checked α} {result : α → β → α}
    (ok : ∀ state item, step state item = .ok (result state item)) (items : List β) (start : α)
    : items.foldlM step start = .ok (items.foldl result start) := by
  induction items generalizing start with
  | nil => rfl
  | cons item rest ih =>
      rw [List.foldlM_cons, ok, ok_bind, ih]
      rfl

/-- A loop whose state before each round is known. -/
theorem foldlM_range_eq {α : Type} (state : Nat → α) {round : α → Nat → Checked α} {count : Nat}
    (goes : ∀ place < count, round (state place) place = .ok (state (place + 1)))
    : (List.range count).foldlM round (state 0) = .ok (state count) := by
  obtain ⟨_, loop, rfl⟩ := foldlM_range (fun place reached => reached = state place) rfl
    (by rintro place before _ rfl; exact ⟨_, goes place before, rfl⟩)
  exact loop

end Checked

end Chip8
