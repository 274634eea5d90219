import Chip8.Frame
import Chip8.Nibble

/-!
The host of a machine: whatever shows its frames, knows which keys are held and plays the tone.
A machine never waits for its host, so a host is a state that answers key polls and takes calls.
-/

namespace Chip8

/-- What a machine asks or tells its host. -/
inductive Call where
  | publish (frame : Frame)
  | poll
  | startTone
  | stopTone
  deriving DecidableEq, Repr

/-- A state that can stand as the host of a machine. -/
class Host (σ : Type) where
  /-- The keys that a poll reports now, in the order of the report and whatever their values. -/
  pressedKeys : σ → List UInt8
  /-- The state after a call; a poll may change what the next poll reports. -/
  receive : σ → Call → σ

namespace Host

def receiveAll {σ : Type} [Host σ] (host : σ) (calls : List Call) : σ :=
  calls.foldl receive host

end Host

namespace Keypad

/-- The reported keys that a keypad has, in the order of the report. -/
def held (report : List UInt8) : List Nibble :=
  report.filterMap Nibble.ofByte?

/-- The reported values that name no key, in the order of the report. -/
def foreign (report : List UInt8) : List UInt8 :=
  report.filter fun key => (Nibble.ofByte? key).isNone

/-- Whether a report holds the key with a given value; a value above fifteen is never held. -/
def isHeld (report : List UInt8) (key : UInt8) : Bool :=
  (held report).any fun nibble => nibble.toByte == key

end Keypad

end Chip8
