import Chip8.FrontEnd.Callback
import Chip8.Proofs.Delivery

/-! A front end that alone takes the frames of its interpreter, from the start of both to any moment
after the interpreter was given up. What is neither pending nor shown was never displayed. A call
to the front end may fail at any point.
-/

namespace Chip8

-----------------------------------------------------------------------------------------
-- The interpreter on its thread
-----------------------------------------------------------------------------------------

namespace Worker

variable {worker : Worker} {handoff : Handoff} {last : Frame}

theorem pass_tells (told : handoff.Tells last worker.scheduler.machine.display) (wake : Wake)
    : (worker.pass handoff wake).2.Tells last
        (worker.pass handoff wake).1.scheduler.machine.display := by
  simp only [pass]
  split
  · exact Scheduler.serveAll_tells told [wake]
  · exact told

theorem passAll_tells (told : handoff.Tells last worker.scheduler.machine.display)
    (wakes : List Wake)
    : (worker.passAll handoff wakes).2.Tells last
        (worker.passAll handoff wakes).1.scheduler.machine.display := by
  induction wakes generalizing worker handoff with
  | nil => exact told
  | cons wake rest ih => exact ih (pass_tells told wake)

end Worker

-----------------------------------------------------------------------------------------
-- What the calls of a front end keep
-----------------------------------------------------------------------------------------

namespace FrontEnd

/-- The machine that the interpreter leaves if it is given up now and serves the wakes `before`
until it takes the request.
-/
def leaving? (frontEnd : FrontEnd) (before : List Wake) : Option Machine :=
  frontEnd.worker?.map fun worker =>
    (worker.stop.passAll frontEnd.handoff (before ++ [.cancelled])).1.scheduler.machine

/-- The interpreter's machine: that of the interpreter held, or the one that was left. -/
def machine? (frontEnd : FrontEnd) (left? : Option Machine) : Option Machine :=
  (frontEnd.worker?.map (·.scheduler.machine)).or left?

/-- There is an interpreter's machine, and what is pending or else the frame taken last is what it
displays.
-/
def Current (frontEnd : FrontEnd) (left? : Option Machine) : Prop :=
  ∃ machine,
    frontEnd.machine? left? = some machine
    ∧ frontEnd.handoff.Tells frontEnd.frame machine.display

namespace Current

variable {frontEnd : FrontEnd} {left? : Option Machine}

theorem refresh (h : frontEnd.Current left?) : frontEnd.refresh.Current left? := by
  obtain ⟨machine, present, told⟩ := h
  exact ⟨machine, present, told.takeFrame⟩

theorem interpret (h : frontEnd.Current left?) (wakes : List Wake)
    : (frontEnd.interpret wakes).Current left? := by
  obtain ⟨machine, present, told⟩ := h
  cases held : frontEnd.worker? with
  | none =>
      simp only [FrontEnd.interpret, held]
      exact ⟨machine, present, told⟩
  | some worker =>
      simp only [FrontEnd.interpret, held]
      obtain rfl : worker.scheduler.machine = machine := by
        simpa [machine?, held] using present
      exact ⟨_, rfl, Worker.passAll_tells told wakes⟩

/-- What the interpreter would leave is of no account while it is held, and if none is held then
nothing would be left.
-/
theorem leaving (h : frontEnd.Current left?) (before : List Wake)
    : frontEnd.Current ((frontEnd.leaving? before).or left?) := by
  cases held : frontEnd.worker? with
  | none => simpa [Current, machine?, leaving?, held] using h
  | some worker => simpa [Current, machine?, leaving?, held] using h

/-- Giving the interpreter up keeps the frames that it still publishes. -/
theorem shutdown (h : frontEnd.Current left?) (before : List Wake)
    : (frontEnd.shutdown before).1.Current ((frontEnd.leaving? before).or left?) := by
  cases held : frontEnd.worker? with
  | none =>
      simp only [FrontEnd.shutdown, held]
      exact h.leaving before
  | some worker =>
      obtain ⟨machine, present, told⟩ := h
      obtain rfl : worker.scheduler.machine = machine := by
        simpa [machine?, held] using present
      have asked : frontEnd.handoff.Tells frontEnd.frame worker.stop.scheduler.machine.display :=
        told
      have stopped := Worker.passAll_tells asked (before ++ [.cancelled])
      simp only [FrontEnd.shutdown, leaving?, held, Worker.stopAndJoin]
      exact ⟨_, rfl, stopped⟩

theorem close (h : frontEnd.Current left?) (before : List Wake)
    : (frontEnd.close before).1.Current ((frontEnd.leaving? before).or left?) := by
  have asked : frontEnd.exit.Current left? := h
  exact asked.shutdown before

theorem syncTone (h : frontEnd.Current left?) : frontEnd.syncTone.Current left? :=
  h

theorem setKey (h : frontEnd.Current left?) (code : String) (pressed : Bool)
    : (frontEnd.setKey code pressed).Current left? := by
  simp only [FrontEnd.setKey]
  split
  · exact h
  · exact h

theorem resumeAgainst (h : frontEnd.Current left?) (refusal? : Option Refusal)
    : (frontEnd.resumeAgainst refusal?).1.Current left? := by
  rcases refusal? with _ | _ | _ | _ | _ <;> exact h

theorem resizeAgainst (h : frontEnd.Current left?) (refusal? : Option Refusal)
    (width height : UInt32)
    : (frontEnd.resizeAgainst refusal? width height).1.Current left? := by
  rw [FrontEnd.resizeAgainst]
  split <;> exact h

/-- The frame is taken before the window can turn out to have no surface and before the picture can
fail to be rendered, and neither failure gives it back.
-/
theorem redrawAgainst (h : frontEnd.Current left?) (refusal? : Option Refusal) (dt : Float32)
    (before checked taken : List Wake)
    : (frontEnd.redrawAgainst refusal? dt before checked taken).1.Current
        ((frontEnd.leaving? before).or left?) := by
  have refreshed := ((((h.leaving before).interpret checked).refresh).interpret taken).syncTone
  rw [FrontEnd.redrawAgainst]
  split
  · exact h.close before
  · obtain ⟨_, _, _, _, drawn, _⟩ :=
      FrontEnd.drawAgainst_eq
        ((frontEnd.interpret checked).refresh.interpret taken).syncTone refusal? dt
    rw [drawn]
    exact refreshed

theorem handleAgainst (h : frontEnd.Current left?) (refusal? : Option Refusal) (event : Event)
    (before checked taken : List Wake)
    : (frontEnd.handleAgainst refusal? event before checked taken).1.Current
        ((frontEnd.leaving? before).or left?) := by
  cases event with
  | close => exact h.close before
  | key code escape pressed =>
      cases escape with
      | true => exact h.close before
      | false => exact (h.leaving before).setKey code pressed
  | resized width height => exact (h.leaving before).resizeAgainst refusal? width height
  | redraw dt => exact h.redrawAgainst refusal? dt before checked taken
  | other => exact h.leaving before

theorem keepFailure {outcome : FrontEnd × Option Failure} (h : outcome.1.Current left?)
    : (FrontEnd.keepFailure outcome).Current left? := by
  obtain ⟨reached, failure?⟩ := outcome
  cases failure? <;> exact h

theorem takeJournal (h : frontEnd.Current left?)
    : frontEnd.takeJournal.2.Current left? := by
  simp only [FrontEnd.takeJournal]
  split
  · exact h
  · next held =>
      obtain ⟨machine, present, told⟩ := h
      exact ⟨machine, by simpa [machine?, held, Worker.takeJournal] using present, told⟩

/-- While an interpreter is held it does not matter what another one left. -/
theorem of_held (h : frontEnd.Current left?) (held : frontEnd.worker?.isSome)
    (other? : Option Machine)
    : frontEnd.Current other? := by
  obtain ⟨worker, present⟩ := Option.isSome_iff_exists.mp held
  simpa [Current, machine?, present] using h

end Current

/-- A front end that could be started has an interpreter that has just begun its run. -/
theorem start_eq_ok {commandLine : CommandLine} {program : Array UInt8} {key : KeyStream.Key}
    {frontEnd : FrontEnd} (starts : start commandLine program key = .ok frontEnd)
    : ∃ machine rate,
        Machine.load program commandLine.dialect (generator commandLine key) = .ok machine
        ∧ frontEnd
          = { detached commandLine commandLine.title with
              worker? := some (Worker.spawn (.ready machine program.size rate) Handoff.fresh).1
              handoff := (Worker.spawn (.ready machine program.size rate) Handoff.fresh).2 } := by
  simp only [start] at starts
  cases loads : Machine.load program commandLine.dialect (generator commandLine key) with
  | error fault =>
      rw [loads] at starts
      nomatch starts
  | ok machine =>
      cases valid : ClockRate.ofHertz commandLine.clock with
      | error fault =>
          rw [loads, valid] at starts
          nomatch starts
      | ok rate =>
          rw [loads, valid] at starts
          exact ⟨machine, rate, rfl, (Except.ok.inj starts).symm⟩

/-- A front end that has just been started shows the blank frame, as does its machine. -/
theorem current_start {commandLine : CommandLine} {program : Array UInt8} {key : KeyStream.Key}
    {frontEnd : FrontEnd} (starts : start commandLine program key = .ok frontEnd)
    : frontEnd.Current none := by
  obtain ⟨machine, rate, loads, rfl⟩ := start_eq_ok starts
  obtain ⟨_, rfl⟩ := Machine.load_eq_ok_iff.mp loads
  let scheduler := Scheduler.ready
    (.boot program commandLine.dialect (generator commandLine key)) program.size rate
  have blank : Handoff.fresh.Tells .blank scheduler.machine.display := rfl
  exact ⟨_, rfl, Scheduler.run_tells blank []⟩

end FrontEnd

-----------------------------------------------------------------------------------------
-- A front end and its interpreter, step by step
-----------------------------------------------------------------------------------------

/-- A front end, and the machine that its interpreter left once it was given up. -/
structure Screening where
  frontEnd : FrontEnd
  left? : Option Machine

namespace Screening

/-- A step of the interpreter or of the front end. Of a call to the front end it says what the
interpreter serves meanwhile, and what the window system refuses.
-/
inductive Move where
  | interpret (wakes : List Wake)
  | event (event : Event) (before checked taken : List Wake) (refusal? : Option Refusal)
  | resume (refusal? : Option Refusal)
  | takeJournal
  | shutdown (before : List Wake)

/-- A front end whose interpreter has not been given up. -/
def opening (frontEnd : FrontEnd) : Screening where
  frontEnd := frontEnd
  left? := none

/-- The interpreter's machine: that of the interpreter held, or the one that was left. -/
def machine? (screening : Screening) : Option Machine :=
  screening.frontEnd.machine? screening.left?

/-- Goes on with what became of the front end. If it gave its interpreter up, that served the wakes
`before` and its machine stays behind.
-/
def adopt (screening : Screening) (frontEnd : FrontEnd) (before : List Wake) : Screening where
  frontEnd := frontEnd
  left? :=
    if frontEnd.worker?.isSome then none
    else (screening.frontEnd.leaving? before).or screening.left?

/-- Makes one move. A failure of a call is kept. -/
def make (screening : Screening) : Move → Screening
  | .interpret wakes => { screening with frontEnd := screening.frontEnd.interpret wakes }
  | .event event before checked taken refusal? =>
      screening.adopt
        (.keepFailure (screening.frontEnd.handleAgainst refusal? event before checked taken))
        before
  | .resume refusal? =>
      { screening with frontEnd := .keepFailure (screening.frontEnd.resumeAgainst refusal?) }
  | .takeJournal => { screening with frontEnd := screening.frontEnd.takeJournal.2 }
  | .shutdown before => screening.adopt (screening.frontEnd.shutdown before).1 before

/-- Makes moves in order. -/
def makeAll (screening : Screening) (moves : List Move) : Screening :=
  moves.foldl make screening

/-- What is pending or else the frame taken last is what the interpreter's machine displays. -/
def Current (screening : Screening) : Prop :=
  screening.frontEnd.Current screening.left?

namespace Current

variable {screening : Screening}

theorem adopt {frontEnd : FrontEnd} {before : List Wake}
    (h : frontEnd.Current ((screening.frontEnd.leaving? before).or screening.left?))
    : (screening.adopt frontEnd before).Current := by
  simp only [Current, Screening.adopt]
  split
  · next held => exact h.of_held held none
  · exact h

theorem make (h : screening.Current) (move : Move) : (screening.make move).Current := by
  cases move with
  | interpret wakes => exact FrontEnd.Current.interpret h wakes
  | event event before checked taken refusal? =>
      have handled :=
        FrontEnd.Current.handleAgainst h refusal? event before checked taken
      exact adopt handled.keepFailure
  | resume refusal? =>
      exact (FrontEnd.Current.resumeAgainst h refusal?).keepFailure
  | takeJournal => exact FrontEnd.Current.takeJournal h
  | shutdown before => exact adopt (FrontEnd.Current.shutdown h before)

theorem makeAll (h : screening.Current) (moves : List Move)
    : (screening.makeAll moves).Current := by
  induction moves generalizing screening with
  | nil => exact h
  | cons move rest ih => exact ih (h.make move)

end Current

end Screening

-----------------------------------------------------------------------------------------
-- No display update is lost
-----------------------------------------------------------------------------------------

/-- Whatever a scheduler and any number of front ends do, in whatever order, after it was built: a
pending frame is the current display, and while none is pending the frame taken last is. So it is
for a front end on its own with its interpreter, wherever its random bytes come from, after any
event, also after one that failed for want of a surface or because the window system refused to
render, to resize or to make a window.
-/
theorem no_display_update_is_lost
    : (∀ (program : Array UInt8) (dialect : Dialect) (random : Generator) (hertz : UInt32)
          (scheduler : Scheduler),
        Scheduler.build program dialect random hertz = .ok scheduler
        → ∀ moves : List Broadcast.Move,
            let broadcast := (Broadcast.fresh scheduler).makeAll moves
            (∀ frame,
              broadcast.handoff.pending? = some frame
              → frame = broadcast.scheduler.machine.display)
            ∧ (broadcast.handoff.pending? = none
              → broadcast.scheduler.machine.display = broadcast.last))
      ∧ ∀ (commandLine : CommandLine) (program : Array UInt8) (key : KeyStream.Key)
          (frontEnd : FrontEnd),
        FrontEnd.start commandLine program key = .ok frontEnd
        → ∀ moves : List Screening.Move,
            let screening := (Screening.opening frontEnd).makeAll moves
            ∃ machine,
              screening.machine? = some machine
              ∧ (screening.frontEnd.handoff.pending? = some machine.display
                ∨ screening.frontEnd.handoff.pending? = none
                  ∧ screening.frontEnd.frame = machine.display) := by
  constructor
  · intro program dialect random hertz scheduler builds moves broadcast
    have current : broadcast.Current :=
      (Broadcast.current_fresh (Scheduler.display_of_build builds)).makeAll moves
    obtain pending | ⟨nothing, shown⟩ := Handoff.tells_iff.mp current
    · refine ⟨fun frame taken => ?_, fun nothing => ?_⟩
      · exact Option.some.inj (taken.symm.trans pending)
      · exact absurd (nothing.symm.trans pending) nofun
    · refine ⟨fun frame taken => ?_, fun _ => shown.symm⟩
      exact absurd (nothing.symm.trans taken) nofun
  · intro commandLine program key frontEnd starts moves screening
    have opened : (Screening.opening frontEnd).Current := FrontEnd.current_start starts
    obtain ⟨machine, present, told⟩ := opened.makeAll moves
    exact ⟨machine, present, Handoff.tells_iff.mp told⟩

/-- A glyph that was drawn reaches the second of two front ends. A window takes it at a redraw that
is not rendered, and shows it still after it was closed.
-/
theorem glyph_is_not_lost
    : let glyph := Frame.sprite 0 0 [0xF0, 0x90, 0x90, 0x90, 0xF0]
      (∃ scheduler,
        Scheduler.build #[0xF0, 0x29, 0xD0, 0x05] .modern (.ofSeed 0) 500 = .ok scheduler
        ∧ let broadcast := (Broadcast.fresh scheduler).makeAll
            [.startRun, .takeFrame 1, .wake .instruction, .wake .instruction, .takeFrame 2,
              .wake .instruction, .takeFrame 1]
          broadcast.last = glyph
          ∧ (∀ frame,
            broadcast.handoff.pending? = some frame
            → frame = broadcast.scheduler.machine.display)
          ∧ (broadcast.handoff.pending? = none
            → broadcast.scheduler.machine.display = broadcast.last))
      ∧ ∃ frontEnd,
        FrontEnd.start
            { path := "glyph", clock := 500, scale := 10, frequency := 350
              foreground := ⟨0x3D, 0x80, 0x26⟩, background := ⟨0xF9, 0xFF, 0xB3⟩
              dialect := .modern, seed? := none, verbose := false }
            #[0xF0, 0x29, 0xD0, 0x05] (KeyStream.keyOfSeed 0)
          = .ok frontEnd
        ∧ let screening := (Screening.opening frontEnd).makeAll
            [.resume none, .interpret [.instruction],
              .event (.redraw 0) [] [.instruction] [.timer] (some .rendering),
              .event .close [.instruction] [] [] none]
          screening.frontEnd.frame = glyph
          ∧ ∃ machine,
              screening.machine? = some machine
              ∧ (screening.frontEnd.handoff.pending? = some machine.display
                ∨ screening.frontEnd.handoff.pending? = none
                  ∧ screening.frontEnd.frame = machine.display) := by
  intro glyph
  let program : Array UInt8 := #[0xF0, 0x29, 0xD0, 0x05]
  let scheduler : Scheduler := .ready (.boot program .modern (.ofSeed 0)) 4 .standard
  constructor
  · have builds : Scheduler.build program .modern (.ofSeed 0) 500 = .ok scheduler := rfl
    refine ⟨scheduler, builds, by decide +kernel, ?_⟩
    exact no_display_update_is_lost.1 program .modern (.ofSeed 0) 500 scheduler builds _
  · let commandLine : CommandLine :=
      { path := "glyph", clock := 500, scale := 10, frequency := 350
        foreground := ⟨0x3D, 0x80, 0x26⟩, background := ⟨0xF9, 0xFF, 0xB3⟩
        dialect := .modern, seed? := none, verbose := false }
    let frontEnd : FrontEnd :=
      { FrontEnd.detached commandLine commandLine.title with
        worker? := some (Worker.spawn scheduler Handoff.fresh).1
        handoff := (Worker.spawn scheduler Handoff.fresh).2 }
    have starts
        : FrontEnd.start commandLine program (KeyStream.keyOfSeed 0) = .ok frontEnd := rfl
    refine ⟨frontEnd, starts, by decide +kernel, ?_⟩
    exact no_display_update_is_lost.2 commandLine program _ frontEnd starts _

end Chip8
