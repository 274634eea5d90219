import Chip8.RangeError
import Chip8.Table

/-!
Frames of 64 by 32 pixels. A frame is a row of bits per line, so drawing is the exclusive or of two
frames and a collision is a pixel lit in both.
-/

namespace Chip8

/-- The pixels of the display, row by row; the most significant bit of a row is its left end. -/
structure Frame where
  rows : Vector (BitVec 64) 32
  deriving DecidableEq, Repr

namespace Frame

def width : Nat := 64

def height : Nat := 32

def blank : Frame where
  rows := Vector.replicate 32 0

/-- Whether the pixel in row `y` and column `x` is lit. -/
def lit (frame : Frame) (y : Fin 32) (x : Fin 64) : Bool :=
  frame.rows[y].getMsbD x

/-- The pixel at a position that may lie outside; the row is looked at before the column. -/
def pixel (frame : Frame) (y x : Nat) : Except RangeError Bool :=
  if hy : y < height then
    if hx : x < width then .ok (frame.lit ⟨y, hy⟩ ⟨x, hx⟩)
    else .error (.position width x)
  else .error (.position height y)

/-- Flips the pixels of a frame that are lit in a layer. -/
def flip (frame layer : Frame) : Frame where
  rows := Vector.zipWith (· ^^^ ·) frame.rows layer.rows

def overlaps (frame layer : Frame) : Bool :=
  (Vector.zipWith (· &&& ·) frame.rows layer.rows).any (· ≠ 0)

/-- Eight pixels that start in column `x`; what passes the right edge is cut off. -/
def strip (x : Nat) (pattern : UInt8) : BitVec 64 :=
  (pattern.toBitVec.setWidth 64 <<< 56) >>> x

/-- A sprite with its top left corner in row `y` and column `x`, one byte a row; what passes the
right or the lower edge is cut off. -/
def sprite (y x : Nat) (patterns : List UInt8) : Frame where
  rows := tabulate fun row =>
    if y ≤ row.val then strip x (patterns.getD (row.val - y) 0) else 0

@[simp] theorem lit_blank (y : Fin 32) (x : Fin 64) : blank.lit y x = false := by
  simp [lit, blank]

@[simp] theorem lit_flip (frame layer : Frame) (y : Fin 32) (x : Fin 64)
    : (frame.flip layer).lit y x = (frame.lit y x ^^ layer.lit y x) := by
  simp [lit, flip]

/-- A strip lights column `c` exactly if its byte has the bit that many places from the left. -/
theorem getMsbD_strip (x : Nat) (pattern : UInt8) (c : Nat)
    : (strip x pattern).getMsbD c
      = (decide (c < 64) && decide (x ≤ c) && pattern.toBitVec.getMsbD (c - x)) := by
  simp only [strip, BitVec.getMsbD_ushiftRight, BitVec.getMsbD_shiftLeft, BitVec.getMsbD_setWidth]
  by_cases hc : c < 64 <;> by_cases hx : x ≤ c <;> simp [hc, hx, Nat.not_lt.mpr]

theorem ext_lit {left right : Frame} (h : ∀ y x, left.lit y x = right.lit y x)
    : left = right := by
  cases left with
  | mk left =>
      cases right with
      | mk right =>
          congr 1
          apply Vector.ext
          intro y hy
          apply BitVec.eq_of_getMsbD_eq
          intro x hx
          exact h ⟨y, hy⟩ ⟨x, hx⟩

end Frame

end Chip8
