import Chip8.Nibble

/-!
The part of a keyboard that plays the keypad.
-/

namespace Chip8.Keyboard

/-- The codes of the physical keys that stand for the keys of the keypad, in keypad order. -/
def layout : Vector String 16 :=
  #v["KeyX", "Digit1", "Digit2", "Digit3",
    "KeyQ", "KeyW", "KeyE", "KeyA",
    "KeyS", "KeyD", "KeyZ", "KeyC",
    "Digit4", "KeyR", "KeyF", "KeyV"]

/-- The keypad key that a physical key stands for, if it stands for one. -/
def keypadKey? (code : String) : Option Nibble :=
  (List.finRange 16).find? fun key => layout[key] == code

end Chip8.Keyboard
