import Chip8.FrontEnd.Phosphor

/-!
The window that a display is shown in, and the surface on which it is drawn.
-/

namespace Chip8

/-- A window as it was asked for, and how often it was asked to draw itself. -/
structure Window where
  title : String
  width : UInt32
  height : UInt32
  leastWidth : UInt32
  leastHeight : UInt32
  redraws : Nat
  deriving DecidableEq, Repr

namespace Window

/-- A window for a display at a scale, which is asked to draw itself at once. -/
def ofScale (title : String) (scale : UInt32) : Window where
  title := title
  width := UInt32.ofNat Frame.width * scale
  height := UInt32.ofNat Frame.height * scale
  leastWidth := UInt32.ofNat Frame.width
  leastHeight := UInt32.ofNat Frame.height
  redraws := 1

def requestRedraw (window : Window) : Window :=
  { window with redraws := window.redraws + 1 }

end Window

/-- What is drawn on: a picture, and the size that it was last told to fill. -/
structure Surface where
  picture : Phosphor.Picture
  size? : Option (UInt32 × UInt32)

def Surface.empty : Surface where
  picture := Vector.replicate 8192 0
  size? := none

end Chip8
