import Chip8.Colour
import Chip8.Dialect
import Chip8.Text.Numeral

/-!
The settings of a command line: their spellings, the values they take, and how a value is read.
-/

namespace Chip8.CommandLine

/-- Why a command line is refused, or why nothing is run. -/
inductive UsageError where
  /-- The program to run is not named. -/
  | missingPath
  /-- An argument that nothing takes. -/
  | unknownArgument
  /-- A value that is absent, empty where text is needed, or none of the words allowed. -/
  | invalidValue
  /-- A value that does not read as a number or colour, or is out of range. -/
  | unreadableValue
  | repeated
  | needlessValue
  | helpRequested
  deriving DecidableEq, Repr

/-- A setting that takes a value. -/
inductive Setting where
  | clock
  | scale
  | frequency
  | foreground
  | background
  | profile
  | shiftsSecond
  | offsetByDigit
  | keepsFlagOnIndexAdd
  | advancesIndex
  | seed
  deriving DecidableEq, Repr

/-- A switch, which is there or not. -/
inductive Switch where
  | verbose
  | help
  deriving DecidableEq, Repr

/-- What an option of a command line names. -/
inductive Flag where
  | setting (setting : Setting)
  | switch (switch : Switch)
  deriving DecidableEq, Repr

def Flag.ofLong? : String → Option Flag
  | "clock" => some (.setting .clock)
  | "scale" => some (.setting .scale)
  | "frequency" => some (.setting .frequency)
  | "foreground" => some (.setting .foreground)
  | "background" => some (.setting .background)
  | "quirks" => some (.setting .profile)
  | "copy-registers-on-shift" => some (.setting .shiftsSecond)
  | "variable-offset-register" => some (.setting .offsetByDigit)
  | "disable-set-flag-on-ir-overflow" => some (.setting .keepsFlagOnIndexAdd)
  | "increment-index-register-on-load-save" => some (.setting .advancesIndex)
  | "seed" => some (.setting .seed)
  | "verbose" => some (.switch .verbose)
  | "help" => some (.switch .help)
  | _ => none

def Flag.ofShort? : Char → Option Flag
  | 'c' => some (.setting .clock)
  | 's' => some (.setting .scale)
  | 'f' => some (.setting .foreground)
  | 'b' => some (.setting .background)
  | 'v' => some (.switch .verbose)
  | 'h' => some (.switch .help)
  | _ => none

/-- The settings that were given, each at most once. -/
structure Given where
  path? : Option String := none
  clock? : Option UInt32 := none
  scale? : Option UInt32 := none
  frequency? : Option Float32 := none
  foreground? : Option Colour := none
  background? : Option Colour := none
  profile? : Option Dialect := none
  shiftsSecond? : Option Bool := none
  offsetByDigit? : Option Bool := none
  keepsFlagOnIndexAdd? : Option Bool := none
  advancesIndex? : Option Bool := none
  seed? : Option UInt64 := none
  verbose : Bool := false

/-- Reads a whole number between `least` and `most`. -/
def readBetween (least most : Nat) (text : String) : Except UsageError UInt32 :=
  match Text.Numeral.integer? text.toList with
  | some number =>
      if (least : Int) ≤ number ∧ number ≤ (most : Int) then .ok (UInt32.ofNat number.toNat)
      else .error .unreadableValue
  | none => .error .unreadableValue

def readSeed (text : String) : Except UsageError UInt64 :=
  match Text.Numeral.unsigned? text.toList with
  | some number =>
      if number < UInt64.size then .ok (UInt64.ofNat number) else .error .unreadableValue
  | none => .error .unreadableValue

def readFloat32 (text : String) : Except UsageError Float32 :=
  match Text.Numeral.float32? text.toList with
  | some number => .ok number
  | none => .error .unreadableValue

def readColour (text : String) : Except UsageError Colour :=
  match Colour.ofText text with
  | .ok colour => .ok colour
  | .error _ => .error .unreadableValue

def readProfile : String → Except UsageError Dialect
  | "modern" => .ok .modern
  | "cosmac-vip" => .ok .cosmacVip
  | "super-chip" => .ok .superChip
  | _ => .error .invalidValue

def readBool : String → Except UsageError Bool
  | "true" => .ok true
  | "false" => .ok false
  | _ => .error .invalidValue

namespace Given

def has (given : Given) : Setting → Bool
  | .clock => given.clock?.isSome
  | .scale => given.scale?.isSome
  | .frequency => given.frequency?.isSome
  | .foreground => given.foreground?.isSome
  | .background => given.background?.isSome
  | .profile => given.profile?.isSome
  | .shiftsSecond => given.shiftsSecond?.isSome
  | .offsetByDigit => given.offsetByDigit?.isSome
  | .keepsFlagOnIndexAdd => given.keepsFlagOnIndexAdd?.isSome
  | .advancesIndex => given.advancesIndex?.isSome
  | .seed => given.seed?.isSome

def read (given : Given) (setting : Setting) (text : String) : Except UsageError Given := do
  match setting with
  | .clock => return { given with clock? := some (← readBetween 1 (UInt32.size - 1) text) }
  | .scale => return { given with scale? := some (← readBetween 1 64 text) }
  | .frequency => return { given with frequency? := some (← readFloat32 text) }
  | .foreground => return { given with foreground? := some (← readColour text) }
  | .background => return { given with background? := some (← readColour text) }
  | .profile => return { given with profile? := some (← readProfile text) }
  | .shiftsSecond => return { given with shiftsSecond? := some (← readBool text) }
  | .offsetByDigit => return { given with offsetByDigit? := some (← readBool text) }
  | .keepsFlagOnIndexAdd => return { given with keepsFlagOnIndexAdd? := some (← readBool text) }
  | .advancesIndex => return { given with advancesIndex? := some (← readBool text) }
  | .seed => return { given with seed? := some (← readSeed text) }

/-- Takes the value of a setting; a second value is refused unread. -/
def put (given : Given) (setting : Setting) (text : String) : Except UsageError Given :=
  if given.has setting then .error .repeated else given.read setting text

/-- Takes the path of the program, which may not be empty. -/
def putPath (given : Given) (text : String) : Except UsageError Given :=
  if text.isEmpty then .error .invalidValue else .ok { given with path? := some text }

def turnOn (given : Given) : Switch → Except UsageError Given
  | .verbose => if given.verbose then .error .repeated else .ok { given with verbose := true }
  | .help => .error .helpRequested

end Given

end Chip8.CommandLine
