import Chip8.Proofs.Screening
import Chip8.Proofs.Stopping

/-! A front end gives its interpreter up once, at the first step that asks for it, and there reports
the fault that the interpreter ended with. The interpreter goes on and ends at any moment, and
the window system may refuse what it is asked for.
-/

namespace Chip8

-----------------------------------------------------------------------------------------
-- Joining an interpreter
-----------------------------------------------------------------------------------------

namespace Worker

variable {σ : Type} [Host σ]

theorem passAll_cons (worker : Worker) (host : σ) (wake : Wake) (rest : List Wake)
    : worker.passAll host (wake :: rest)
      = (worker.pass host wake).1.passAll (worker.pass host wake).2 rest :=
  rfl

end Worker

-----------------------------------------------------------------------------------------
-- Steps of a front end
-----------------------------------------------------------------------------------------

/-- The fault of an interpreter that a failure reports. -/
def Failure.running? : Failure → Option Fault
  | own (.running fault) => some fault
  | _ => none

namespace FrontEnd

/-- What happens to a front end: its interpreter goes on by itself, or it is called. Of a call it
is told what the interpreter serves meanwhile, and what the window system refuses.
-/
inductive Step where
  | interpret (wakes : List Wake)
  | event (event : Event) (before checked taken : List Wake) (refusal? : Option Refusal)
  | resume (refusal? : Option Refusal)
  | shutdown (before : List Wake)

/-- The wakes that the interpreter serves before it takes the request, if the step gives it up. -/
def Step.before : Step → List Wake
  | event _ before _ _ _ | shutdown before => before
  | _ => []

/-- Takes a step; a call may fail. -/
def perform (frontEnd : FrontEnd) : Step → FrontEnd × Option Failure
  | .interpret wakes => (frontEnd.interpret wakes, none)
  | .event event before checked taken refusal? =>
      frontEnd.handleAgainst refusal? event before checked taken
  | .resume refusal? => frontEnd.resumeAgainst refusal?
  | .shutdown before => own (frontEnd.shutdown before)

def performAll (frontEnd : FrontEnd) (steps : List Step) : FrontEnd :=
  steps.foldl (fun frontEnd step => (frontEnd.perform step).1) frontEnd

/-- Whether a step closes the window: it was asked to be closed, Escape was pressed or released, or it
shall draw itself and the interpreter is found to have ended.
-/
def closes (frontEnd : FrontEnd) : Step → Bool
  | .event .close .. | .event (.key _ true _) .. => true
  | .event (.redraw _) .. => frontEnd.interpreterEnded
  | _ => false

/-- Whether a step asks for the interpreter: it closes the window, or it shuts down. -/
def asks (frontEnd : FrontEnd) (step : Step) : Bool :=
  match step with
  | .shutdown _ => true
  | _ => frontEnd.closes step

/-- Whether one of the steps asks for the interpreter. -/
def asked (frontEnd : FrontEnd) : List Step → Bool
  | [] => false
  | step :: rest => frontEnd.asks step || (frontEnd.perform step).1.asked rest

/-- The faults of an interpreter that the steps report, in order. -/
def reported (frontEnd : FrontEnd) : List Step → List Fault
  | [] => []
  | step :: rest =>
      ((frontEnd.perform step).2.bind Failure.running?).toList
        ++ (frontEnd.perform step).1.reported rest

theorem performAll_append (frontEnd : FrontEnd) (earlier later : List Step)
    : frontEnd.performAll (earlier ++ later)
      = (frontEnd.performAll earlier).performAll later :=
  List.foldl_append

/-- What a step keeps that does not ask for the interpreter: whether there is one, and how often the
event loop was asked to end.
-/
structure Keeps (frontEnd later : FrontEnd) : Prop where
  worker : later.worker?.isSome = frontEnd.worker?.isSome
  exits : later.exits = frontEnd.exits

namespace Keeps

variable {frontEnd later last : FrontEnd}

theorem refl (frontEnd : FrontEnd) : Keeps frontEnd frontEnd :=
  ⟨rfl, rfl⟩

theorem trans (first : Keeps frontEnd later) (second : Keeps later last)
    : Keeps frontEnd last :=
  ⟨second.worker.trans first.worker, second.exits.trans first.exits⟩

theorem interpret (frontEnd : FrontEnd) (wakes : List Wake)
    : Keeps frontEnd (frontEnd.interpret wakes) := by
  cases held : frontEnd.worker? with
  | none =>
      simp only [FrontEnd.interpret, held]
      exact refl frontEnd
  | some worker =>
      simp only [FrontEnd.interpret, held]
      exact ⟨by simp [held], rfl⟩

theorem setKey (frontEnd : FrontEnd) (code : String) (pressed : Bool)
    : Keeps frontEnd (frontEnd.setKey code pressed) := by
  rw [FrontEnd.setKey]
  split <;> exact ⟨rfl, rfl⟩

theorem resumeAgainst (frontEnd : FrontEnd) (refusal? : Option Refusal)
    : Keeps frontEnd (frontEnd.resumeAgainst refusal?).1 := by
  rcases refusal? with _ | _ | _ | _ | _ <;> exact ⟨rfl, rfl⟩

theorem resizeAgainst (frontEnd : FrontEnd) (refusal? : Option Refusal) (width height : UInt32)
    : Keeps frontEnd (frontEnd.resizeAgainst refusal? width height).1 := by
  rw [FrontEnd.resizeAgainst]
  split <;> exact ⟨rfl, rfl⟩

/-- While the interpreter has not ended, a redraw gives it up neither before nor after it has
failed.
-/
theorem redrawAgainst (goes : frontEnd.interpreterEnded = false) (refusal? : Option Refusal)
    (dt : Float32) (before checked taken : List Wake)
    : Keeps frontEnd (frontEnd.redrawAgainst refusal? dt before checked taken).1 := by
  have refreshed : Keeps frontEnd (frontEnd.interpret checked).refresh :=
    ⟨(interpret frontEnd checked).worker, (interpret frontEnd checked).exits⟩
  have shown := refreshed.trans (interpret _ taken)
  obtain ⟨_, _, _, _, drawn, _⟩ :=
    drawAgainst_eq ((frontEnd.interpret checked).refresh.interpret taken).syncTone refusal? dt
  rw [FrontEnd.redrawAgainst, if_neg (Bool.eq_false_iff.mp goes), drawn]
  exact ⟨shown.worker, shown.exits⟩

end Keeps

end FrontEnd

end Chip8
