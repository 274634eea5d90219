import Chip8.Host.Basic

/-!
A host that answers key polls from a script and keeps every call it receives.
-/

namespace Chip8

/-- A host with prepared answers and a memory of what it was told. -/
structure Script where
  /-- The answers of the next polls, one each. -/
  upcoming : List (List UInt8)
  /-- The answer of every poll after those. -/
  held : List UInt8
  /-- The calls so far, oldest first. -/
  calls : Array Call

namespace Script

/-- The host that reports the same keys at every poll. -/
def holding (keys : List UInt8) : Script where
  upcoming := []
  held := keys
  calls := #[]

def extend (script : Script) (answers : List (List UInt8)) : Script :=
  { script with upcoming := script.upcoming ++ answers }

instance : Host Script where
  pressedKeys script := script.upcoming.headD script.held
  receive script call :=
    { script with
      upcoming := match call with
        | .poll => script.upcoming.tail
        | _ => script.upcoming
      calls := script.calls.push call }

end Script

end Chip8
