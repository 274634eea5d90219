import Chip8.CommandLine.Setting

/-!
Reading a command line, argument by argument. A value that stands in the same argument as its option
is read at once. A value in an argument of its own, like the path, is held back until the next
option or path is met or the line ends; an argument that nothing takes is refused before that.
-/

namespace Chip8

/-- What a command line asks for. -/
structure CommandLine where
  path : String
  /-- Instructions per second. -/
  clock : UInt32
  /-- The size of a pixel in the window. -/
  scale : UInt32
  /-- The pitch of the tone in hertz. -/
  frequency : Float32
  foreground : Colour
  background : Colour
  dialect : Dialect
  /-- The seed of the random bytes; without one they differ from run to run. -/
  seed? : Option UInt64
  /-- Report every instruction and mark every other column. -/
  verbose : Bool

namespace CommandLine

/-- A value that is held back. -/
inductive Held where
  | nothing
  | path (text : String)
  /-- A setting with its value, which is absent until the argument behind the option is met. -/
  | setting (setting : Setting) (text? : Option String)

/-- How far a command line was read. -/
structure Scan where
  given : Given := {}
  held : Held := .nothing
  pathMet : Bool := false
  /-- Whether `--` was met, behind which nothing is an option. -/
  literal : Bool := false

namespace Scan

def settle (scan : Scan) : Except UsageError Scan := do
  match scan.held with
  | .nothing => return scan
  | .path text => return { scan with given := ← scan.given.putPath text, held := .nothing }
  | .setting _ none => throw .invalidValue
  | .setting setting (some text) =>
      return { scan with given := ← scan.given.put setting text, held := .nothing }

/-- Takes a setting whose value stands in the same argument. -/
def takeAttached (scan : Scan) (setting : Setting) (text : String) : Except UsageError Scan := do
  let scan ← scan.settle
  return { scan with given := ← scan.given.put setting text }

/-- Takes a setting whose value is to follow. -/
def awaitValue (scan : Scan) (setting : Setting) : Except UsageError Scan := do
  let scan ← scan.settle
  return { scan with held := .setting setting none }

def takeSwitch (scan : Scan) (switch : Switch) : Except UsageError Scan := do
  let scan ← scan.settle
  return { scan with given := ← scan.given.turnOn switch }

/-- Takes an argument that is no option: the path, or else nothing that a command line has. -/
def takePath (scan : Scan) (text : String) : Except UsageError Scan := do
  if scan.pathMet then throw .unknownArgument
  let scan ← scan.settle
  return { scan with held := .path text, pathMet := true }

/-- Takes the body of an argument that starts with `--`. -/
def takeLong (scan : Scan) (body : List Char) : Except UsageError Scan :=
  let name := String.ofList (body.takeWhile (· != '='))
  match Flag.ofLong? name, body.dropWhile (· != '=') with
  | none, _ => .error .unknownArgument
  | some (.setting setting), [] => scan.awaitValue setting
  | some (.setting setting), _ :: value => scan.takeAttached setting (String.ofList value)
  | some (.switch switch), [] => scan.takeSwitch switch
  | some (.switch _), _ :: _ => .error .needlessValue

/-- Takes the letters of an argument that starts with `-`: switches, up to a setting whose value
is the rest, or the rest behind a mark `=`. -/
def takeShort (scan : Scan) : List Char → Except UsageError Scan
  | [] => .ok scan
  | letter :: rest =>
      match Flag.ofShort? letter, rest with
      | none, _ => .error .unknownArgument
      | some (.switch switch), _ => do (← scan.takeSwitch switch).takeShort rest
      | some (.setting setting), [] => scan.awaitValue setting
      | some (.setting setting), '=' :: value => scan.takeAttached setting (String.ofList value)
      | some (.setting setting), value => scan.takeAttached setting (String.ofList value)

/-- Takes an argument that is not written as an option: the value that is waited for, or the path. -/
def takePlain (scan : Scan) (text : String) : Except UsageError Scan :=
  match scan.held with
  | .setting setting none => .ok { scan with held := .setting setting (some text) }
  | _ => scan.takePath text

def take (scan : Scan) (argument : String) : Except UsageError Scan :=
  if scan.literal then scan.takePath argument
  else match argument.toList with
    | ['-', '-'] => .ok { scan with literal := true }
    | '-' :: '-' :: body => scan.takeLong body
    | '-' :: letter :: letters => scan.takeShort (letter :: letters)
    | _ => scan.takePlain argument

end Scan

/-- Completes the settings that were given by the standard ones. -/
def ofGiven (given : Given) : Except UsageError CommandLine := do
  let some path := given.path? | throw .missingPath
  let profile := given.profile?.getD .modern
  return {
    path := path
    clock := given.clock?.getD 500
    scale := given.scale?.getD 10
    frequency := given.frequency?.getD 350
    foreground := given.foreground?.getD ⟨0x3D, 0x80, 0x26⟩
    background := given.background?.getD ⟨0xF9, 0xFF, 0xB3⟩
    dialect := {
      shiftsSecond := given.shiftsSecond?.getD profile.shiftsSecond
      offsetByDigit := given.offsetByDigit?.getD profile.offsetByDigit
      keepsFlagOnIndexAdd := given.keepsFlagOnIndexAdd?.getD profile.keepsFlagOnIndexAdd
      advancesIndex := given.advancesIndex?.getD profile.advancesIndex
    }
    seed? := given.seed?
    verbose := given.verbose
  }

/-- Reads a command line; the first argument at fault decides the error. -/
def ofArguments (arguments : List String) : Except UsageError CommandLine := do
  let scan ← arguments.foldlM Scan.take {}
  let scan ← scan.settle
  ofGiven scan.given

/-- The last component of a path, where empty components and `.` do not count; a path that ends in
`..` or has no component names nothing. -/
def lastComponent? (path : String) : Option String :=
  match (path.splitOn "/").filter (fun component => component ≠ "" ∧ component ≠ ".") |>.getLast? with
  | some ".." => none
  | last? => last?

/-- The title of the window: the name of the program's file. -/
def title (commandLine : CommandLine) : String :=
  (lastComponent? commandLine.path).getD "chip8-vm"

end CommandLine

end Chip8
