import Chip8.Colour
import Chip8.Frame
import Chip8.Table

/-!
A display that fades: a lit pixel is bright at once and a dark one loses its brightness over time.
Each pixel is coloured by its own brightness alone.
-/

namespace Chip8.Phosphor

/-- The brightness of each pixel, row by row; one is full. -/
abbrev Brightness := Vector (Vector Float32 64) 32

/-- The brightness that a dark pixel loses in a second. -/
def decayRate : Float32 := 10.0

def dark : Brightness :=
  Vector.replicate 32 (Vector.replicate 64 0.0)

/-- What is left of a brightness after `dt` seconds; what is not above zero is zero. -/
def decay (brightness dt : Float32) : Float32 :=
  let left := brightness - decayRate * dt
  if 0.0 < left then left else 0.0

/-- The brightness of a pixel after `dt` seconds, at whose end it is lit or dark. -/
def fadePixel (lit : Bool) (brightness dt : Float32) : Float32 :=
  if lit then 1.0 else decay brightness dt

/-- The brightness of all pixels after `dt` seconds, at whose end a frame is shown. -/
def fade (frame : Frame) (dt : Float32) (brightness : Brightness) : Brightness :=
  tabulate fun y => tabulate fun x => fadePixel (frame.lit y x) ((brightness.get y).get x) dt

structure Palette where
  foreground : Colour
  background : Colour
  /-- Lit pixels in even columns have the marking colour. -/
  marksColumns : Bool

namespace Palette

/-- The colour of lit pixels in marked columns. -/
def marking : Colour := ⟨0xFF, 0x00, 0x00⟩

/-- The colour of a pixel in column `x`. -/
def shade (palette : Palette) (x : Nat) (lit : Bool) (brightness : Float32) : Colour :=
  if lit && palette.marksColumns && x % 2 == 0 then marking
  else palette.background.blend palette.foreground brightness

end Palette

/-- The bytes of a picture: red, green, blue and full opacity of each pixel, row by row. -/
abbrev Picture := Vector UInt8 8192

/-- The byte of a colour at a place among four. -/
def channel (colour : Colour) : Nat → UInt8
  | 0 => colour.red
  | 1 => colour.green
  | 2 => colour.blue
  | _ => 0xFF

/-- The picture of a frame at the brightness of its pixels. -/
def picture (palette : Palette) (frame : Frame) (brightness : Brightness) : Picture :=
  let colours : Vector Colour 2048 := tabulate fun pixel =>
    let y : Fin 32 := ⟨pixel.val / 64, by omega⟩
    let x : Fin 64 := ⟨pixel.val % 64, by omega⟩
    palette.shade x.val (frame.lit y x) ((brightness.get y).get x)
  tabulate fun place => channel colours[place.val / 4] (place.val % 4)

end Chip8.Phosphor
