import Chip8.CommandLine.Basic
import Chip8.Frame
import Chip8.Note

/-!
What a terminal shows: the help text, the reasons to refuse a command line, a frame as text, and the
entries of the journal.
-/

namespace Chip8.Terminal

def help : String :=
  String.intercalate "\n" [
    "Usage: chip8-vm [OPTIONS] <ROM_PATH>",
    "",
    "Options:",
    "  -c, --clock <HERTZ>            Instructions per second [default: 500]",
    "  -s, --scale <FACTOR>           Window scale factor, 1 to 64 [default: 10]",
    "      --frequency <HERTZ>        Frequency of the tone [default: 350]",
    "  -f, --foreground <COLOUR>      Foreground hex colour [default: 3D8026]",
    "  -b, --background <COLOUR>      Background hex colour [default: F9FFB3]",
    "      --quirks <PROFILE>         modern, cosmac-vip or super-chip [default: modern]",
    "      --copy-registers-on-shift <BOOL>",
    "      --variable-offset-register <BOOL>",
    "      --disable-set-flag-on-ir-overflow <BOOL>",
    "      --increment-index-register-on-load-save <BOOL>",
    "      --seed <NUMBER>            Seed of the random bytes",
    "  -v, --verbose                  Log every instruction and mark even columns",
    "  -h, --help                     Print this help"]

/-- Why a command line is refused, in a sentence. -/
def explain : CommandLine.UsageError → String
  | .missingPath => "the path of the ROM is missing"
  | .unknownArgument => "an argument is not known"
  | .invalidValue => "a value is missing or is none of those allowed"
  | .unreadableValue => "a value cannot be read or is out of range"
  | .repeated => "an option is given twice"
  | .needlessValue => "a value is given to an option that takes none"
  | .helpRequested => help

/-- The character for two pixels, one above the other. -/
def cell : Bool → Bool → Char
  | true, true => '█'
  | true, false => '▀'
  | false, true => '▄'
  | false, false => ' '

/-- A frame as sixteen lines of text, two rows of pixels in each. -/
def screen (frame : Frame) : String :=
  String.intercalate "\n" <| (List.finRange 16).map fun line =>
    let upper : Fin 32 := ⟨2 * line.val, by omega⟩
    let lower : Fin 32 := ⟨2 * line.val + 1, by omega⟩
    String.ofList ((List.finRange 64).map fun x => cell (frame.lit upper x) (frame.lit lower x))

/-- Whether an entry of the journal is shown; instructions are shown on request only. -/
def shows (verbose : Bool) (note : Note) : Bool :=
  verbose || note.level != .trace

def line (note : Note) : String :=
  note.level.name ++ " " ++ note.text

end Chip8.Terminal
