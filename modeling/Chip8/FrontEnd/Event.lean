import Chip8.FrontEnd.Basic

/-!
The events of a window, one at a time. What closes the window, or first finds that the interpreter
has ended, gives the interpreter up.
-/

namespace Chip8

/-- Something that happens to a window. -/
inductive Event where
  | close
  /-- The key with a physical code was pressed or released; `escape` tells whether it means Escape. -/
  | key (code : String) (escape pressed : Bool)
  | resized (width height : UInt32)
  /-- The window shall draw itself, `dt` seconds after the last time. -/
  | redraw (dt : Float32)
  | other

namespace FrontEnd

/-- Closes: asks the event loop to end and gives the interpreter up. -/
def close (frontEnd : FrontEnd) (before : List Wake) : FrontEnd × Option FrontEndError :=
  frontEnd.exit.shutdown before

/-- Draws the window, or closes if the interpreter has ended by itself. -/
def redraw (frontEnd : FrontEnd) (dt : Float32) (before : List Wake)
    : FrontEnd × Option FrontEndError :=
  if frontEnd.interpreterEnded then frontEnd.close before
  else
    let frontEnd := frontEnd.refresh.syncTone
    match frontEnd.paint dt with
    | .error error => (frontEnd, some error)
    | .ok frontEnd =>
        ({ frontEnd with window? := frontEnd.window?.map Window.requestRedraw }, none)

/-- Handles an event. If the event stops the interpreter, that serves the wakes `before` it takes
the request. -/
def handle (frontEnd : FrontEnd) (event : Event) (before : List Wake)
    : FrontEnd × Option FrontEndError :=
  match event with
  | .close => frontEnd.close before
  | .key _ true _ => frontEnd.close before
  | .key code false pressed => (frontEnd.setKey code pressed, none)
  | .resized width height => (frontEnd.resize width height, none)
  | .redraw dt => frontEnd.redraw dt before
  | .other => (frontEnd, none)

/-- Handles an event; a failure is kept and ends the event loop. -/
def deliver (frontEnd : FrontEnd) (event : Event) (before : List Wake) : FrontEnd :=
  match frontEnd.handle event before with
  | (frontEnd, none) => frontEnd
  | (frontEnd, some error) => { frontEnd with failure? := some (.own error) }.exit

end FrontEnd

end Chip8
