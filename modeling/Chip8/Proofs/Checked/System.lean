import Chip8.FrontEnd.Event
import Chip8.Proofs.Checked.Cycle
import Chip8.Proofs.Checked.Painting

/-! Front ends with every operation checked, and what all checked computations come to: nothing that
a program, a host or a keyboard can bring about is ever refused by a check.
-/

namespace Chip8

-----------------------------------------------------------------------------------------
-- What a front end attends to
-----------------------------------------------------------------------------------------

/-- What a front end is busy with: an event of its window, its picture, or its interpreter, which
goes on by itself.
-/
inductive Occasion where
  /-- An event that closes waits for the interpreter, which serves `before` until then. -/
  | event (event : Event) (before : List Wake)
  | display (dt : Float32)
  | interpret (wakes : List Wake)

namespace FrontEnd

/-- Attends to one occasion, and tells the failure that it ends with. -/
def attend (frontEnd : FrontEnd) : Occasion → FrontEnd × Option FrontEndError
  | .event event before => frontEnd.handle event before
  | .display dt =>
      match frontEnd.paint dt with
      | .ok painted => (painted, none)
      | .error error => (frontEnd, some error)
  | .interpret wakes => (frontEnd.interpret wakes, none)

/-- Attends to occasions in order, also behind a failure. -/
def attendAll (frontEnd : FrontEnd) (occasions : List Occasion) : FrontEnd × Option FrontEndError :=
  occasions.foldl (fun reached occasion => reached.1.attend occasion) (frontEnd, none)

end FrontEnd

namespace Checked

-----------------------------------------------------------------------------------------
-- Interpreters
-----------------------------------------------------------------------------------------

section Workers

variable {σ : Type} [Host σ]

def pass (worker : Worker) (host : σ) (wake : Wake) : Checked (Worker × σ) := do
  if worker.ready wake then
    let progress ← serveAll worker.scheduler host [wake]
    return (
      { worker with scheduler := progress.scheduler, result? := progress.result? },
      progress.host)
  else return (worker, host)

def passAll (worker : Worker) (host : σ) (wakes : List Wake) : Checked (Worker × σ) :=
  wakes.foldlM (fun (worker, host) wake => pass worker host wake) (worker, host)

/-- Asks an interpreter to stop and waits for its result. An operation that is refused on the way is
refused here.
-/
def stopAndJoin (worker : Worker) (host : σ) (before : List Wake)
    : Checked (Except Fault Unit × σ) := do
  let (worker, host) ← passAll worker.stop host (before ++ [.cancelled])
  return (worker.result?.getD (.ok ()), host)

theorem pass_eq (worker : Worker) (host : σ) (wake : Wake)
    : pass worker host wake = .ok (worker.pass host wake) := by
  rw [pass, Worker.pass]
  split
  · rw [serveAll_eq]
    rfl
  · rfl

@[simp] theorem passAll_eq (worker : Worker) (host : σ) (wakes : List Wake)
    : passAll worker host wakes = .ok (worker.passAll host wakes) := by
  have step (reached : Worker × σ) (wake : Wake) := pass_eq reached.1 reached.2 wake
  rw [passAll, foldlM_of_ok step, Worker.passAll]

@[simp] theorem stopAndJoin_eq (worker : Worker) (host : σ) (before : List Wake)
    : stopAndJoin worker host before = .ok (worker.stopAndJoin host before) := by
  rw [stopAndJoin, passAll_eq]
  rfl

end Workers

-----------------------------------------------------------------------------------------
-- Keyboards
-----------------------------------------------------------------------------------------

/-- The keypad key that a physical key stands for: its place in the layout, made a nibble. -/
def keypadKey (code : String) : Checked (Option Nibble) :=
  match Keyboard.layout.toList.findIdx? (· == code) with
  | some place => do return some (← digit (UInt8.ofNat place))
  | none => return none

def setKey (frontEnd : FrontEnd) (code : String) (pressed : Bool) : Checked FrontEnd := do
  match ← keypadKey code with
  | some key =>
      let keypad ← replace frontEnd.handoff.keypad key.val pressed
      return { frontEnd with handoff := { frontEnd.handoff with keypad } }
  | none => return frontEnd

/-- The place of the first position that passes a test is its number. -/
theorem findIdx?_finRange {n : Nat} (test : Fin n → Bool)
    : (List.finRange n).findIdx? test = ((List.finRange n).find? test).map Fin.val := by
  cases found : (List.finRange n).find? test with
  | none =>
      rw [List.find?_eq_none] at found
      exact List.findIdx?_eq_none_iff.mpr fun place member =>
        Bool.eq_false_iff.mpr (found place member)
  | some position =>
      obtain ⟨passes, place, inside, here, earlier⟩ := List.find?_eq_some_iff_getElem.mp found
      obtain rfl : place = position.val := by
        rw [← here, List.getElem_finRange]
        rfl
      refine List.findIdx?_eq_some_iff_getElem.mpr ⟨inside, by rw [here]; exact passes, ?_⟩
      intro other before
      simpa using earlier other before

theorem keypadKey_eq (code : String) : keypadKey code = .ok (Keyboard.keypadKey? code) := by
  have layout : Keyboard.layout.toList = (List.finRange 16).map fun key => Keyboard.layout[key] :=
    rfl
  rw [keypadKey, layout, List.findIdx?_map, findIdx?_finRange]
  show _ = Except.ok ((List.finRange 16).find? ((· == code) ∘ fun key => Keyboard.layout[key]))
  cases (List.finRange 16).find? ((· == code) ∘ fun key => Keyboard.layout[key]) with
  | none => rfl
  | some key =>
      show (do return some (← digit (Nibble.toByte key))) = Except.ok (some key)
      rw [digit_toByte]
      rfl

@[simp] theorem setKey_eq (frontEnd : FrontEnd) (code : String) (pressed : Bool)
    : setKey frontEnd code pressed = .ok (frontEnd.setKey code pressed) := by
  rw [setKey, keypadKey_eq, ok_bind, FrontEnd.setKey]
  cases Keyboard.keypadKey? code with
  | none => rfl
  | some key =>
      simp only [replace_fin]
      rfl

-----------------------------------------------------------------------------------------
-- Front ends
-----------------------------------------------------------------------------------------

def interpret (frontEnd : FrontEnd) (wakes : List Wake) : Checked FrontEnd :=
  match frontEnd.worker? with
  | none => return frontEnd
  | some worker => do
      let (worker, handoff) ← passAll worker frontEnd.handoff wakes
      return { frontEnd with worker? := some worker, handoff }

def shutdown (frontEnd : FrontEnd) (before : List Wake)
    : Checked (FrontEnd × Option FrontEndError) :=
  match frontEnd.worker? with
  | none => return (frontEnd, none)
  | some worker => do
      let (result, handoff) ← stopAndJoin worker frontEnd.handoff before
      return (
        { frontEnd with worker? := none, handoff },
        match result with
        | .ok () => none
        | .error fault => some (.running fault))

def paint (frontEnd : FrontEnd) (dt : Float32) : Checked (Except FrontEndError FrontEnd) :=
  match frontEnd.surface? with
  | none => return .error .noSurface
  | some surface => do
      let (brightness, picture) ←
        paintAll frontEnd.palette frontEnd.frame dt frontEnd.brightness surface.picture
      return .ok { frontEnd with brightness, surface? := some { surface with picture } }

def redraw (frontEnd : FrontEnd) (dt : Float32) (before : List Wake)
    : Checked (FrontEnd × Option FrontEndError) := do
  if frontEnd.interpreterEnded then shutdown frontEnd.exit before
  else
    let frontEnd := frontEnd.refresh.syncTone
    match ← paint frontEnd dt with
    | .error error => return (frontEnd, some error)
    | .ok frontEnd =>
        return ({ frontEnd with window? := frontEnd.window?.map Window.requestRedraw }, none)

def handle (frontEnd : FrontEnd) (event : Event) (before : List Wake)
    : Checked (FrontEnd × Option FrontEndError) :=
  match event with
  | .close => shutdown frontEnd.exit before
  | .key _ true _ => shutdown frontEnd.exit before
  | .key code false pressed => do return (← setKey frontEnd code pressed, none)
  | .resized width height => return (frontEnd.resize width height, none)
  | .redraw dt => redraw frontEnd dt before
  | .other => return (frontEnd, none)

/-- Attends to one occasion, and tells the failure that it ends with. -/
def attend (frontEnd : FrontEnd) : Occasion → Checked (FrontEnd × Option FrontEndError)
  | .event event before => handle frontEnd event before
  | .display dt => do
      match ← paint frontEnd dt with
      | .ok painted => return (painted, none)
      | .error error => return (frontEnd, some error)
  | .interpret wakes => do return (← interpret frontEnd wakes, none)

/-- Attends to occasions in order, also behind a failure. -/
def attendAll (frontEnd : FrontEnd) (occasions : List Occasion)
    : Checked (FrontEnd × Option FrontEndError) :=
  occasions.foldlM (fun reached occasion => attend reached.1 occasion) (frontEnd, none)

theorem interpret_eq (frontEnd : FrontEnd) (wakes : List Wake)
    : interpret frontEnd wakes = .ok (frontEnd.interpret wakes) := by
  rw [interpret, FrontEnd.interpret]
  cases frontEnd.worker? with
  | none => rfl
  | some worker => simp only [passAll_eq, ok_bind, pure_eq_ok]

theorem shutdown_eq (frontEnd : FrontEnd) (before : List Wake)
    : shutdown frontEnd before = .ok (frontEnd.shutdown before) := by
  rw [shutdown, FrontEnd.shutdown]
  cases frontEnd.worker? with
  | none => rfl
  | some worker =>
      simp only [stopAndJoin_eq, ok_bind]
      cases (worker.stopAndJoin frontEnd.handoff before).1 <;> rfl

theorem paint_eq (frontEnd : FrontEnd) (dt : Float32)
    : paint frontEnd dt = .ok (frontEnd.paint dt) := by
  rw [paint, FrontEnd.paint]
  cases frontEnd.surface? with
  | none => rfl
  | some surface => simp only [paintAll_eq, ok_bind, pure_eq_ok]

theorem redraw_eq (frontEnd : FrontEnd) (dt : Float32) (before : List Wake)
    : redraw frontEnd dt before = .ok (frontEnd.redraw dt before) := by
  rw [redraw, FrontEnd.redraw]
  split
  · exact shutdown_eq frontEnd.exit before
  · simp only [paint_eq, ok_bind]
    cases frontEnd.refresh.syncTone.paint dt <;> rfl

/-- By cases over the events. -/
theorem handle_eq (frontEnd : FrontEnd) (event : Event) (before : List Wake)
    : handle frontEnd event before = .ok (frontEnd.handle event before) := by
  cases event with
  | close => exact shutdown_eq frontEnd.exit before
  | key code escape pressed =>
      cases escape with
      | true => exact shutdown_eq frontEnd.exit before
      | false =>
          rw [handle, setKey_eq]
          rfl
  | redraw dt => exact redraw_eq frontEnd dt before
  | _ => rfl

theorem attend_eq (frontEnd : FrontEnd) (occasion : Occasion)
    : attend frontEnd occasion = .ok (frontEnd.attend occasion) := by
  cases occasion with
  | event event before => exact handle_eq frontEnd event before
  | display dt =>
      rw [attend, paint_eq, ok_bind, FrontEnd.attend]
      cases frontEnd.paint dt <;> rfl
  | interpret wakes =>
      rw [attend, interpret_eq]
      rfl

theorem attendAll_eq (frontEnd : FrontEnd) (occasions : List Occasion)
    : attendAll frontEnd occasions = .ok (frontEnd.attendAll occasions) := by
  have step (reached : FrontEnd × Option FrontEndError) (occasion : Occasion) :=
    attend_eq reached.1 occasion
  rw [attendAll, foldlM_of_ok step, FrontEnd.attendAll]

end Checked

/-- No check ever refuses anything. Whatever the program, as long as a table can have its size,
building a scheduler comes to a scheduler or to a fault. So does everything that is asked of a
scheduler, in whichever state it is and whatever keys its host reports, also behind faults. A front
end gets through its events, its pictures and what its interpreter does. All of them come to exactly
what the definitions without checks come to.
-/
theorem no_operation_is_refused (program : Array UInt8) (size : program.size ≤ 9223372036854775807)
    : (∀ dialect random hertz,
        Checked.build program dialect random hertz
          = .ok (Scheduler.build program dialect random hertz))
      ∧ (∀ (σ : Type) [Host σ] (scheduler : Scheduler) (host : σ) (requests : List Request),
          Checked.performAll scheduler host requests = .ok (scheduler.performAll host requests))
      ∧ ∀ (frontEnd : FrontEnd) (occasions : List Occasion),
          Checked.attendAll frontEnd occasions = .ok (frontEnd.attendAll occasions) :=
  ⟨Checked.build_eq size, fun _ _ => Checked.performAll_eq, Checked.attendAll_eq⟩

/-- A program that is one byte too large is a fault and no violation. -/
theorem oversized_program_is_refused_by_a_fault
    : (Array.replicate 3585 (0 : UInt8)).size ≤ 9223372036854775807
      ∧ Checked.build (Array.replicate 3585 0) .modern (.ofSeed 0) 500
        = .ok (.error (.programTooLarge 3585 3584)) := by
  have small : (Array.replicate 3585 (0 : UInt8)).size ≤ 9223372036854775807 := by
    rw [Array.size_replicate]
    decide
  refine ⟨small, ((no_operation_is_refused _ small).1 _ _ _).trans ?_⟩
  have large : ¬(Array.replicate 3585 (0 : UInt8)).size ≤ Memory.capacity := by
    rw [Array.size_replicate]
    decide
  rw [Scheduler.build, Machine.load, if_neg large, Array.size_replicate]
  rfl

end Chip8
