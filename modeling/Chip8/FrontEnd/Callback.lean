import Chip8.FrontEnd.Event

/-!
The calls of a window system, while the interpreter goes on by itself. A window system may refuse
what a front end asks of it; the call then fails, and what it did before stays done.
-/

namespace Chip8.FrontEnd

/-- The outcome of a call at which nothing is refused. -/
def own (outcome : FrontEnd × Option FrontEndError) : FrontEnd × Option Failure :=
  (outcome.1, outcome.2.map .own)

/-- Makes a window and its surface. A window without a surface is not asked to draw itself. -/
def resumeAgainst (frontEnd : FrontEnd) : Option Refusal → FrontEnd × Option Failure
  | some .window => (frontEnd, some (.refused .window))
  | some .surface =>
      ({ frontEnd with
          window? := some { Window.ofScale frontEnd.title frontEnd.scale with redraws := 0 } },
        some (.refused .surface))
  | _ => (frontEnd.resume, none)

/-- Tells the surface, if there is one, which size to fill, which it may refuse. -/
def resizeAgainst (frontEnd : FrontEnd) (refusal? : Option Refusal) (width height : UInt32)
    : FrontEnd × Option Failure :=
  if refusal? = some .resizing ∧ frontEnd.surface?.isSome = true then
    (frontEnd, some (.refused .resizing))
  else (frontEnd.resize width height, none)

/-- Draws the frame and asks the window to draw itself again, unless the picture is not rendered. -/
def drawAgainst (frontEnd : FrontEnd) (refusal? : Option Refusal) (dt : Float32)
    : FrontEnd × Option Failure :=
  match frontEnd.paint dt with
  | .error error => (frontEnd, some (.own error))
  | .ok frontEnd =>
      if refusal? = some .rendering then (frontEnd, some (.refused .rendering))
      else ({ frontEnd with window? := frontEnd.window?.map Window.requestRedraw }, none)

/-- Draws the window, or closes if the interpreter has ended by itself. The interpreter serves the
wakes `checked` after it was found running and before the frame is taken, and the wakes `taken`
after that. -/
def redrawAgainst (frontEnd : FrontEnd) (refusal? : Option Refusal) (dt : Float32)
    (before checked taken : List Wake)
    : FrontEnd × Option Failure :=
  if frontEnd.interpreterEnded then own (frontEnd.close before)
  else ((frontEnd.interpret checked).refresh.interpret taken).syncTone.drawAgainst refusal? dt

/-- Handles an event. Events other than a redraw touch what they share with the interpreter once at
most, so for them it goes on before or afterwards. -/
def handleAgainst (frontEnd : FrontEnd) (refusal? : Option Refusal) (event : Event)
    (before checked taken : List Wake)
    : FrontEnd × Option Failure :=
  match event with
  | .resized width height => frontEnd.resizeAgainst refusal? width height
  | .redraw dt => frontEnd.redrawAgainst refusal? dt before checked taken
  | _ => own (frontEnd.handle event before)

/-- Keeps the failure of a call, if there is one, and then asks the event loop to end. -/
def keepFailure : FrontEnd × Option Failure → FrontEnd
  | (frontEnd, none) => frontEnd
  | (frontEnd, some failure) => { frontEnd with failure? := some failure }.exit

theorem interpret_nil (frontEnd : FrontEnd) : frontEnd.interpret [] = frontEnd := by
  obtain ⟨title, scale, palette, handoff, worker?⟩ := frontEnd
  cases worker? <;> rfl

/-- At whatever point a drawing fails, it changes only what the window shows. -/
theorem drawAgainst_eq (frontEnd : FrontEnd) (refusal? : Option Refusal) (dt : Float32)
    : ∃ brightness surface? window? failure?,
        frontEnd.drawAgainst refusal? dt
          = ({ frontEnd with brightness, surface?, window? }, failure?)
        ∧ (failure? = none
          ∨ failure? = some (.own .noSurface)
          ∨ failure? = some (.refused .rendering)) := by
  cases surface : frontEnd.surface? with
  | none =>
      have fails : frontEnd.paint dt = .error .noSurface := by simp only [paint, surface]
      rw [drawAgainst, fails]
      exact ⟨frontEnd.brightness, none, frontEnd.window?, _, by rw [← surface], .inr (.inl rfl)⟩
  | some canvas =>
      rw [drawAgainst, paint, surface]
      by_cases refused : refusal? = some .rendering
      · exact ⟨_, _, frontEnd.window?, _, if_pos refused, .inr (.inr rfl)⟩
      · exact ⟨_, _, _, _, if_neg refused, .inl rfl⟩

/-- With an interpreter that rests and a window system that refuses nothing, this is how an event is
handled. -/
theorem handleAgainst_nil (frontEnd : FrontEnd) (event : Event) (before : List Wake)
    : frontEnd.handleAgainst none event before [] [] = own (frontEnd.handle event before) := by
  cases event with
  | redraw dt =>
      simp only [handleAgainst, redrawAgainst, drawAgainst, handle, redraw, interpret_nil]
      split
      · rfl
      · cases frontEnd.refresh.syncTone.paint dt <;> rfl
  | _ => rfl

/-- So is a failure kept then. -/
theorem keepFailure_handleAgainst_nil (frontEnd : FrontEnd) (event : Event) (before : List Wake)
    : keepFailure (frontEnd.handleAgainst none event before [] [])
      = frontEnd.deliver event before := by
  rw [handleAgainst_nil, deliver]
  cases frontEnd.handle event before with
  | mk frontEnd error? => cases error? <;> rfl

end Chip8.FrontEnd
