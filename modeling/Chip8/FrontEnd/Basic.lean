import Chip8.CommandLine.Basic
import Chip8.FrontEnd.Keyboard
import Chip8.FrontEnd.Window
import Chip8.Handoff
import Chip8.Scheduler.Worker

/-!
The front end of an interpreter: its state, how it is started, and its steps. The interpreter goes
on by itself and reaches the front end through the handoff alone. It is given up once, and its
fault is reported there and nowhere else.
-/

namespace Chip8

/-- What a front end fails of. -/
inductive FrontEndError where
  | loading (fault : Fault)
  | configuring (fault : Fault)
  | running (fault : Fault)
  | noSurface
  deriving DecidableEq, Repr

/-- The wording under which a failure is reported, with its cause behind it. -/
def FrontEndError.message : FrontEndError → String
  | loading fault => "Failed to load ROM into CHIP-8 memory: " ++ fault.message
  | configuring fault => "Failed to configure CHIP-8 runner: " ++ fault.message
  | running fault => "Chip8 Execution error: " ++ fault.message
  | noSurface => "Pixels surface not initialized"

/-- What a window system can refuse to do. -/
inductive Refusal where
  | window
  | surface
  | resizing
  | rendering
  deriving DecidableEq, Repr

/-- The wording under which a refusal is reported; the words of the window system stand behind it. -/
def Refusal.message : Refusal → String
  | window => "Failed to create window"
  | surface => "Failed to create pixels surface"
  | resizing => "Failed to resize pixels surface"
  | rendering => "Pixels render error"

/-- Why a call to a front end fails: because of itself, or because it was refused something. -/
inductive Failure where
  | own (error : FrontEndError)
  | refused (refusal : Refusal)
  deriving DecidableEq, Repr

def Failure.message : Failure → String
  | own error => error.message
  | refused refusal => refusal.message

/-- A window, its interpreter, and what it shows and plays. -/
structure FrontEnd where
  title : String
  scale : UInt32
  palette : Phosphor.Palette
  /-- What is shared with the interpreter. -/
  handoff : Handoff
  /-- The interpreter, until it is given up. -/
  worker? : Option Worker
  /-- The frame taken last. -/
  frame : Frame
  brightness : Phosphor.Brightness
  window? : Option Window
  surface? : Option Surface
  playing : Bool
  /-- How often the event loop was asked to end. -/
  exits : Nat
  /-- The latest failure of a call. -/
  failure? : Option Failure

namespace FrontEnd

def detached (commandLine : CommandLine) (title : String) : FrontEnd where
  title := title
  scale := commandLine.scale
  palette :=
    { foreground := commandLine.foreground
      background := commandLine.background
      marksColumns := commandLine.verbose }
  handoff := .fresh
  worker? := none
  frame := .blank
  brightness := Phosphor.dark
  window? := none
  surface? := none
  playing := false
  exits := 0
  failure? := none

/-- Where random bytes come from: the seed on the command line, or a key if there is none. -/
def generator (commandLine : CommandLine) (key : KeyStream.Key) : Generator :=
  commandLine.seed?.elim (.ofKey key) .ofSeed

/-- A front end whose interpreter has just been started on a program. A key stands ready for a
command line without a seed. -/
def start (commandLine : CommandLine) (program : Array UInt8) (key : KeyStream.Key)
    : Except FrontEndError FrontEnd := do
  let random := generator commandLine key
  let machine ← (Machine.load program commandLine.dialect random).mapError .loading
  let rate ← (ClockRate.ofHertz commandLine.clock).mapError .configuring
  let idle := detached commandLine commandLine.title
  let (worker, handoff) := Worker.spawn (.ready machine program.size rate) idle.handoff
  return { idle with worker? := some worker, handoff }

/-- Lets the interpreter go on by itself. -/
def interpret (frontEnd : FrontEnd) (wakes : List Wake) : FrontEnd :=
  match frontEnd.worker? with
  | none => frontEnd
  | some worker =>
      let (worker, handoff) := worker.passAll frontEnd.handoff wakes
      { frontEnd with worker? := some worker, handoff }

/-- Lets the interpreter go on up to a firing of its timer clock. -/
def interpretPeriod (frontEnd : FrontEnd) (most : Nat) : FrontEnd :=
  match frontEnd.worker? with
  | none => frontEnd
  | some worker => frontEnd.interpret (Wake.period worker.scheduler.rate most)

/-- Takes the interpreter's journal out. -/
def takeJournal (frontEnd : FrontEnd) : Array Note × FrontEnd :=
  match frontEnd.worker? with
  | none => (#[], frontEnd)
  | some worker =>
      let (notes, worker) := worker.takeJournal
      (notes, { frontEnd with worker? := some worker })

def interpreterEnded (frontEnd : FrontEnd) : Bool :=
  frontEnd.worker?.any Worker.isFinished

/-- Gives the interpreter up: asks it to stop and waits for its result, while it serves the wakes
`before` it takes the request. Without an interpreter nothing happens. -/
def shutdown (frontEnd : FrontEnd) (before : List Wake) : FrontEnd × Option FrontEndError :=
  match frontEnd.worker? with
  | none => (frontEnd, none)
  | some worker =>
      let (result, handoff) := worker.stopAndJoin frontEnd.handoff before
      ({ frontEnd with worker? := none, handoff },
        match result with
        | .ok () => none
        | .error fault => some (.running fault))

def exit (frontEnd : FrontEnd) : FrontEnd :=
  { frontEnd with exits := frontEnd.exits + 1 }

def refresh (frontEnd : FrontEnd) : FrontEnd :=
  let (frame?, handoff) := frontEnd.handoff.takeFrame
  { frontEnd with frame := frame?.getD frontEnd.frame, handoff }

/-- Lets the tone sound or not, as the interpreter wants it. -/
def syncTone (frontEnd : FrontEnd) : FrontEnd :=
  { frontEnd with playing := frontEnd.handoff.tone }

/-- Draws the frame `dt` seconds after the last time. -/
def paint (frontEnd : FrontEnd) (dt : Float32) : Except FrontEndError FrontEnd :=
  match frontEnd.surface? with
  | none => .error .noSurface
  | some surface =>
      let brightness := Phosphor.fade frontEnd.frame dt frontEnd.brightness
      let picture := Phosphor.picture frontEnd.palette frontEnd.frame brightness
      .ok { frontEnd with brightness, surface? := some { surface with picture } }

def resume (frontEnd : FrontEnd) : FrontEnd :=
  { frontEnd with
    window? := some (.ofScale frontEnd.title frontEnd.scale)
    surface? := some .empty }

/-- Presses or releases the keypad key that a physical key stands for. -/
def setKey (frontEnd : FrontEnd) (code : String) (pressed : Bool) : FrontEnd :=
  match Keyboard.keypadKey? code with
  | some key => { frontEnd with handoff := frontEnd.handoff.setKey key pressed }
  | none => frontEnd

/-- Tells the surface, if there is one, which size to fill. -/
def resize (frontEnd : FrontEnd) (width height : UInt32) : FrontEnd :=
  { frontEnd with
    surface? := frontEnd.surface?.map fun surface =>
      { surface with size? := some (width, height) } }

end FrontEnd

end Chip8
