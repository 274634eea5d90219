import Chip8.FrontEnd.Event
import Chip8.FrontEnd.Terminal

/-!
The program: runs the ROM named on the command line and shows its display in the terminal.
-/

namespace Chip8

/-- The most instructions that are served between two timer counts. -/
def busyLimit : Nat := 20000

def reportJournal (verbose : Bool) (frontEnd : FrontEnd) : IO FrontEnd := do
  let (notes, frontEnd) := frontEnd.takeJournal
  for note in notes do
    if Terminal.shows verbose note then IO.eprintln (Terminal.line note)
  return frontEnd

/-- Lets the interpreter go on and draws, sixty times a second, until the event loop shall end. -/
partial def eventLoop (verbose : Bool) (frontEnd : FrontEnd) (drawn : Nat) : IO FrontEnd := do
  IO.sleep 16
  let now ← IO.monoMsNow
  let dt := (now - drawn).toFloat32 / 1000
  let frontEnd ← reportJournal verbose (frontEnd.interpretPeriod busyLimit)
  let shown := frontEnd.frame
  let frontEnd := frontEnd.deliver (.redraw dt) []
  if frontEnd.frame != shown then
    IO.println ("\x1b[H" ++ Terminal.screen frontEnd.frame)
  if frontEnd.exits = 0 then eventLoop verbose frontEnd now else return frontEnd

def fail (message : String) : IO UInt32 := do
  IO.eprintln ("Error: " ++ message)
  return 1

/-- Runs a program that was read, to its end. -/
def runProgram (commandLine : CommandLine) (program : Array UInt8) : IO UInt32 := do
  let key := KeyStream.keyOfBytes (← IO.getRandomBytes 32).toList
  match FrontEnd.start commandLine program key with
  | .error error => fail error.message
  | .ok frontEnd =>
      let frontEnd ← eventLoop commandLine.verbose frontEnd.resume (← IO.monoMsNow)
      let (frontEnd, error?) := frontEnd.shutdown []
      match frontEnd.failure?.or (error?.map .own) with
      | some failure => fail failure.message
      | none => return 0

end Chip8

/-- Reads the command line and the ROM, then runs it. -/
def main (arguments : List String) : IO UInt32 := do
  match Chip8.CommandLine.ofArguments arguments with
  | .error .helpRequested =>
      IO.println Chip8.Terminal.help
      return 0
  | .error error =>
      IO.eprintln ("error: " ++ Chip8.Terminal.explain error)
      return 2
  | .ok commandLine =>
      let bytes? ← (IO.FS.readBinFile commandLine.path).toBaseIO
      match bytes? with
      | .ok bytes => Chip8.runProgram commandLine bytes.data
      | .error error => Chip8.fail ("Failed to read ROM file: " ++ toString error)
