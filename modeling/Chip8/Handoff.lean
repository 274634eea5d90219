import Chip8.Host.Basic

/-!
What an interpreter and a front end share: a place for one pending frame, the keypad and the tone.
Either side works on it in steps that do not overlap, so a history of both is a list of operations.
-/

namespace Chip8

/-- The shared state between an interpreter and the front ends that watch it. -/
structure Handoff where
  /-- The latest frame that nobody has taken. -/
  pending? : Option Frame
  keypad : Vector Bool 16
  /-- Whether the tone shall sound. -/
  tone : Bool
  deriving DecidableEq

namespace Handoff

/-- Nothing pending, no key held, silence. -/
def fresh : Handoff where
  pending? := none
  keypad := Vector.replicate 16 false
  tone := false

/-- Leaves a frame to be taken; a frame that nobody took is replaced. -/
def publish (handoff : Handoff) (frame : Frame) : Handoff :=
  { handoff with pending? := some frame }

/-- Takes the pending frame, so that nobody else does. -/
def takeFrame (handoff : Handoff) : Option Frame × Handoff :=
  (handoff.pending?, { handoff with pending? := none })

def setKey (handoff : Handoff) (key : Nibble) (pressed : Bool) : Handoff :=
  { handoff with keypad := replaceAt handoff.keypad key pressed }

def setTone (handoff : Handoff) (sounding : Bool) : Handoff :=
  { handoff with tone := sounding }

def pressedKeys (handoff : Handoff) : List UInt8 :=
  ((List.finRange 16).filter fun key => handoff.keypad.get key).map Nibble.toByte

instance : Host Handoff where
  pressedKeys := pressedKeys
  receive handoff
    | .publish frame => handoff.publish frame
    | .poll => handoff
    | .startTone => handoff.setTone true
    | .stopTone => handoff.setTone false

/-- An operation of either side. -/
inductive Operation where
  | publish (frame : Frame)
  | startTone
  | stopTone
  | pressedKeys
  | takeFrame
  | setKey (key : Nibble) (pressed : Bool)
  | tone
  deriving DecidableEq, Repr

inductive Answer where
  | done
  | keys (keys : List UInt8)
  | frame (frame? : Option Frame)
  | tone (sounding : Bool)
  deriving DecidableEq, Repr

def perform (handoff : Handoff) : Operation → Answer × Handoff
  | .publish frame => (.done, handoff.publish frame)
  | .startTone => (.done, handoff.setTone true)
  | .stopTone => (.done, handoff.setTone false)
  | .pressedKeys => (.keys handoff.pressedKeys, handoff)
  | .takeFrame =>
      let (frame?, handoff) := handoff.takeFrame
      (.frame frame?, handoff)
  | .setKey key pressed => (.done, handoff.setKey key pressed)
  | .tone => (.tone handoff.tone, handoff)

/-- Performs operations in order and lists their answers. -/
def performAll (handoff : Handoff) : List Operation → List Answer × Handoff
  | [] => ([], handoff)
  | operation :: rest =>
      let (answer, handoff) := handoff.perform operation
      let (answers, handoff) := handoff.performAll rest
      (answer :: answers, handoff)

end Handoff

end Chip8
