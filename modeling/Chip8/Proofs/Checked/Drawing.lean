import Chip8.Proofs.Checked.Machine
import Chip8.Proofs.Sprite
import Mathlib.Data.Nat.Bitwise

/-! Drawing pixel by pixel with every operation checked. The display is drawn on in two nested loops
here, which stop at its edges; the machine flips a whole layer at once.
-/

namespace Chip8.Checked

-----------------------------------------------------------------------------------------
-- Loops over rows and columns
-----------------------------------------------------------------------------------------

/-- Flips one pixel, and tells whether it is lit then. -/
def togglePixel (frame : Frame) (y x : Nat) : Checked (Frame × Bool) := do
  let lit ← pixel frame y x
  return (frame.flip (.sprite y x [0x80]), !lit)

/-- One column of a row of a sprite: a set bit flips its pixel, and a pixel that goes dark is
remembered.
-/
def drawPixel (top left row : Nat) (pattern : UInt8) (state : Frame × Bool) (column : Nat)
    : Checked (Frame × Bool) := do
  if pattern &&& (← shiftRight 0x80 column) ≠ 0 then
    let (display, lit) ← togglePixel state.1 (← plus top row) (← plus left column)
    return (display, state.2 || !lit)
  else return state

def drawRow (machine : Machine) (top left columns : Nat) (state : Frame × Bool) (row : Nat)
    : Checked (Frame × Bool) := do
  let pattern ← read machine.memory (machine.index + UInt16.ofNat row)
  (List.range columns).foldlM (drawPixel top left row pattern) state

/-- Draws as many rows and columns of a sprite as there are up to the edges of the display. -/
def drawSprite (machine : Machine) (x y n : Nibble) : Checked Machine := do
  let left ← remainder (← register machine x).toNat Frame.width
  let top ← remainder (← register machine y).toNat Frame.height
  let rows := min n.val (← minus Frame.height top)
  let columns := min 8 (← minus Frame.width left)
  let (display, erased) ←
    (List.range rows).foldlM (drawRow machine top left columns) (machine.display, false)
  setFlag { machine with display } erased

-----------------------------------------------------------------------------------------
-- One pixel
-----------------------------------------------------------------------------------------

/-- Of the top bit alone, only the first place is set. -/
theorem getMsbD_topBit (place : Nat)
    : (0x80 : UInt8).toBitVec.getMsbD place = decide (place = 0) := by
  have within : ∀ place < 8, (0x80 : UInt8).toNat.testBit (7 - place) = decide (place = 0) := by
    decide
  rw [Frame.getMsbD_toBitVec]
  by_cases small : place < 8
  · rw [decide_eq_true small, Bool.true_and, within place small]
  · rw [decide_eq_false small, Bool.false_and, decide_eq_false (by omega)]

theorem lit_toggle (frame : Frame) (y r : Fin 32) (x c : Fin 64)
    : (frame.flip (.sprite y.val x.val [0x80])).lit r c
      = (frame.lit r c ^^ decide (r = y ∧ c = x)) := by
  have bit (row column : Nat)
      : (([0x80] : List UInt8).getD row 0).toBitVec.getMsbD column
        = decide (row = 0 ∧ column = 0) := by
    cases row with
    | zero =>
        rw [List.getD_cons_zero, getMsbD_topBit]
        simp only [true_and]
    | succ row => simp
  rw [Frame.lit_flip, Frame.lit_sprite, bit]
  apply congrArg (frame.lit r c ^^ ·)
  rw [Bool.eq_iff_iff]
  simp only [Bool.and_eq_true, decide_eq_true_eq, Fin.ext_iff]
  omega

theorem togglePixel_eq (frame : Frame) (y : Fin 32) (x : Fin 64)
    : togglePixel frame y.val x.val
      = .ok (frame.flip (.sprite y.val x.val [0x80]), !frame.lit y x) := by
  rw [togglePixel, pixel_fin]
  rfl

/-- A bit of a byte is found by shifting the top bit to its place. -/
theorem and_shiftRight_ne_zero (pattern : UInt8) {column : Nat} (small : column < 8)
    : pattern &&& ((0x80 : UInt8) >>> UInt8.ofNat column) ≠ 0
      ↔ pattern.toNat.testBit (7 - column) = true := by
  have shifted
      : ∀ column < 8, ((0x80 : UInt8) >>> UInt8.ofNat column).toNat = 2 ^ (7 - column) := by
    decide
  rw [← UInt8.toNat_inj.ne, UInt8.toNat_and, shifted column small, Nat.and_two_pow]
  cases pattern.toNat.testBit (7 - column) <;> simp

/-- How far a drawing has come: the marked pixels are flipped, and it is remembered whether one of
them was lit before.
-/
structure Drawn (before : Frame) (marked : Fin 32 → Fin 64 → Bool) (state : Frame × Bool)
    : Prop where
  display : ∀ r c, state.1.lit r c = (before.lit r c ^^ marked r c)
  erased : state.2 = true ↔ ∃ r c, marked r c = true ∧ before.lit r c = true

/-- A pixel that was not marked is toggled and marked. -/
theorem Drawn.toggle {before : Frame} {marked : Fin 32 → Fin 64 → Bool} {state : Frame × Bool}
    (drawn : Drawn before marked state) {y : Fin 32} {x : Fin 64} (fresh : marked y x = false)
    : Drawn before (fun r c => marked r c || decide (r = y ∧ c = x))
        (state.1.flip (.sprite y.val x.val [0x80]), state.2 || !!state.1.lit y x) where
  display := by
    intro r c
    rw [lit_toggle, drawn.display]
    by_cases here : r = y ∧ c = x
    · obtain ⟨rfl, rfl⟩ := here
      simp [fresh]
    · simp [here]
  erased := by
    have same : state.1.lit y x = before.lit y x := by rw [drawn.display, fresh, Bool.xor_false]
    rw [same, Bool.not_not, Bool.or_eq_true, drawn.erased]
    simp only [Bool.or_eq_true, decide_eq_true_eq]
    constructor
    · rintro (⟨r, c, set, lit⟩ | lit)
      · exact ⟨r, c, .inl set, lit⟩
      · exact ⟨y, x, .inr ⟨rfl, rfl⟩, lit⟩
    · rintro ⟨r, c, set | ⟨rfl, rfl⟩, lit⟩
      · exact .inl ⟨r, c, set, lit⟩
      · exact .inr lit

-----------------------------------------------------------------------------------------
-- The part of a sprite that is drawn before a round
-----------------------------------------------------------------------------------------

section Sprite

variable (machine : Machine) (x y n : Nibble)

/-- The row of the corner of a sprite. -/
def top : Nat := (machine.register y).toNat % 32

/-- The column of the corner of a sprite. -/
def left : Nat := (machine.register x).toNat % 64

/-- The pixels of a sprite in the rows before `row`, and in that row before `column`. -/
def marked (row column : Nat) (r : Fin 32) (c : Fin 64) : Bool :=
  machine.covers x y n r c
    && decide (r.val < top machine y + row
        ∨ r.val = top machine y + row ∧ c.val < left machine x + column)

theorem covers_eq (r : Fin 32) (c : Fin 64)
    : machine.covers x y n r c
      = (decide (top machine y ≤ r.val ∧ r.val < min (top machine y + n.val) 32)
          && decide (left machine x ≤ c.val ∧ c.val < min (left machine x + 8) 64)
          && (machine.memory.read
                (machine.index + UInt16.ofNat (r.val - top machine y))).toNat.testBit
              (7 - (c.val - left machine x))) := by
  rw [Memory.read_add]
  rfl

variable {machine x y n}

theorem bounds_of_covers {r : Fin 32} {c : Fin 64} (covered : machine.covers x y n r c = true)
    : (top machine y ≤ r.val ∧ r.val < min (top machine y + n.val) 32)
      ∧ left machine x ≤ c.val ∧ c.val < min (left machine x + 8) 64 := by
  simp only [covers_eq, Bool.and_eq_true, decide_eq_true_eq] at covered
  exact covered.1

/-- Behind the last column of a row that the display has, the next row begins. -/
theorem marked_row_end (row : Nat)
    : marked machine x y n row (min 8 (64 - left machine x))
      = marked machine x y n (row + 1) 0 := by
  funext r c
  rw [Bool.eq_iff_iff]
  simp only [marked, Bool.and_eq_true, decide_eq_true_eq]
  apply and_congr_right
  intro covered
  have bounds := bounds_of_covers covered
  omega

/-- Behind the last row that the display has, the whole sprite is marked. -/
theorem marked_end
    : marked machine x y n (min n.val (32 - top machine y)) 0 = machine.covers x y n := by
  funext r c
  rw [Bool.eq_iff_iff]
  simp only [marked, Bool.and_eq_true, decide_eq_true_eq]
  apply and_iff_left_of_imp
  intro covered
  have bounds := bounds_of_covers covered
  omega

theorem marked_begin (r : Fin 32) (c : Fin 64) : marked machine x y n 0 0 r c = false := by
  rw [marked, Bool.and_eq_false_imp]
  intro covered
  have bounds := bounds_of_covers covered
  rw [decide_eq_false_iff_not]
  omega

variable {row column : Nat} {y' : Fin 32} {x' : Fin 64}

/-- One more column marks the pixel there if the sprite covers it. -/
theorem marked_succ (inRow : y'.val = top machine y + row)
    (inColumn : x'.val = left machine x + column) (r : Fin 32) (c : Fin 64)
    : marked machine x y n row (column + 1) r c
      = (marked machine x y n row column r c
          || decide (r = y' ∧ c = x') && machine.covers x y n y' x') := by
  rw [Bool.eq_iff_iff]
  simp only [marked, Bool.and_eq_true, Bool.or_eq_true, decide_eq_true_eq]
  constructor
  · rintro ⟨covered, before⟩
    by_cases here : r = y' ∧ c = x'
    · obtain ⟨rfl, rfl⟩ := here
      exact .inr ⟨⟨rfl, rfl⟩, covered⟩
    · refine .inl ⟨covered, ?_⟩
      rw [Fin.ext_iff, Fin.ext_iff] at here
      omega
  · rintro (⟨covered, before⟩ | ⟨⟨rfl, rfl⟩, covered⟩)
    · exact ⟨covered, by omega⟩
    · exact ⟨covered, by omega⟩

/-- Whether a sprite covers a pixel is a bit of the byte that its row is read from. -/
theorem covers_at (inRow : y'.val = top machine y + row)
    (inColumn : x'.val = left machine x + column) (within : row < n.val) (small : column < 8)
    : machine.covers x y n y' x'
      = (machine.memory.read (machine.index + UInt16.ofNat row)).toNat.testBit (7 - column) := by
  have inside : (top machine y ≤ y'.val ∧ y'.val < min (top machine y + n.val) 32)
      ∧ left machine x ≤ x'.val ∧ x'.val < min (left machine x + 8) 64 := by
    omega
  rw [covers_eq, decide_eq_true inside.1, decide_eq_true inside.2, inRow, inColumn,
    Nat.add_sub_cancel_left, Nat.add_sub_cancel_left]
  rfl

theorem not_marked_here (inRow : y'.val = top machine y + row)
    (inColumn : x'.val = left machine x + column)
    : marked machine x y n row column y' x' = false := by
  rw [marked, inRow, inColumn, Bool.and_eq_false_imp]
  intro _
  rw [decide_eq_false_iff_not]
  omega

-----------------------------------------------------------------------------------------
-- The loops reach the end
-----------------------------------------------------------------------------------------

theorem drawPixel_goes {state : Frame × Bool}
    (within : row < min n.val (32 - top machine y)) (small : column < min 8 (64 - left machine x))
    (drawn : Drawn machine.display (marked machine x y n row column) state)
    : ∃ next,
        drawPixel (top machine y) (left machine x) row
            (machine.memory.read (machine.index + UInt16.ofNat row)) state column
          = .ok next
        ∧ Drawn machine.display (marked machine x y n row (column + 1)) next := by
  obtain ⟨y', inRow⟩ : ∃ y' : Fin 32, y'.val = top machine y + row := ⟨⟨_, by omega⟩, rfl⟩
  obtain ⟨x', inColumn⟩ : ∃ x' : Fin 64, x'.val = left machine x + column := ⟨⟨_, by omega⟩, rfl⟩
  have inByte : column < 8 := by omega
  have bit
      : machine.memory.read (machine.index + UInt16.ofNat row)
            &&& ((0x80 : UInt8) >>> UInt8.ofNat column) ≠ 0
          ↔ machine.covers x y n y' x' = true := by
    rw [covers_at inRow inColumn (by omega) inByte]
    exact and_shiftRight_ne_zero _ inByte
  rw [drawPixel, shiftRight_of_small inByte, ok_bind]
  by_cases set : machine.covers x y n y' x' = true
  · have next : marked machine x y n row (column + 1)
        = fun r c => marked machine x y n row column r c || decide (r = y' ∧ c = x') := by
      funext r c
      rw [marked_succ inRow inColumn, set, Bool.and_true]
    rw [if_pos (bit.mpr set), plus_eq_fin inRow (by decide), plus_eq_fin inColumn (by decide),
      ok_bind, ok_bind, togglePixel_eq, ok_bind, next]
    exact ⟨_, rfl, drawn.toggle (not_marked_here inRow inColumn)⟩
  · have same : marked machine x y n row (column + 1) = marked machine x y n row column := by
      funext r c
      rw [marked_succ inRow inColumn, Bool.eq_false_iff.mpr set, Bool.and_false, Bool.or_false]
    rw [if_neg fun shifted => set (bit.mp shifted), same]
    exact ⟨state, rfl, drawn⟩

theorem drawRow_goes {state : Frame × Bool}
    (within : row < min n.val (32 - top machine y))
    (drawn : Drawn machine.display (marked machine x y n row 0) state)
    : ∃ next,
        drawRow machine (top machine y) (left machine x) (min 8 (64 - left machine x)) state row
          = .ok next
        ∧ Drawn machine.display (marked machine x y n (row + 1) 0) next := by
  rw [drawRow, read_eq, ok_bind, ← marked_row_end]
  exact foldlM_range (fun column => Drawn machine.display (marked machine x y n row column)) drawn
    fun column small _ => drawPixel_goes within small

theorem drawSprite_eq (machine : Machine) (x y n : Nibble)
    : drawSprite machine x y n = .ok (machine.drawSprite x y n) := by
  have begun : Drawn machine.display (marked machine x y n 0 0) (machine.display, false) := by
    constructor <;> simp [marked_begin]
  obtain ⟨⟨display, erased⟩, loop, drawn⟩ :=
    foldlM_range (fun row => Drawn machine.display (marked machine x y n row 0)) begun
      fun row within _ => drawRow_goes within
  rw [marked_end] at drawn
  have flipped : display = machine.display.flip (machine.layer x y n) := by
    apply Frame.ext_lit
    intro r c
    rw [Frame.lit_flip, Machine.lit_layer]
    exact drawn.display r c
  have collided : erased = machine.display.overlaps (machine.layer x y n) := by
    rw [Bool.eq_iff_iff, Frame.overlaps_iff]
    simp only [Machine.lit_layer]
    simpa only [and_comm] using drawn.erased
  have wrapLeft : remainder (machine.register x).toNat Frame.width = .ok (left machine x) :=
    remainder_of_ne (by decide) _
  have wrapTop : remainder (machine.register y).toNat Frame.height = .ok (top machine y) :=
    remainder_of_ne (by decide) _
  have rowsLeft : minus Frame.height (top machine y) = .ok (32 - top machine y) :=
    minus_of_le (Nat.le_of_lt (Nat.mod_lt _ (by decide)))
  have columnsLeft : minus Frame.width (left machine x) = .ok (64 - left machine x) :=
    minus_of_le (Nat.le_of_lt (Nat.mod_lt _ (by decide)))
  simp only [drawSprite, register_eq, wrapLeft, wrapTop, rowsLeft, columnsLeft, loop, ok_bind,
    setFlag_eq]
  rw [flipped, collided]
  rfl

end Sprite

end Chip8.Checked
