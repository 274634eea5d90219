import Chip8.Handoff
import Chip8.Proofs.Effect
import Chip8.Scheduler.Worker

/-! A scheduler and any number of front ends around one handoff. Whatever they do in whatever order,
the pending frame is the current display, and while none is pending the frame taken last is.
-/

namespace Chip8

-----------------------------------------------------------------------------------------
-- What a handoff tells about a display
-----------------------------------------------------------------------------------------

/-- Together with the frame that was taken last, a handoff tells what is displayed: the pending
frame, or the one taken last if nothing is pending.
-/
def Handoff.Tells (handoff : Handoff) (last display : Frame) : Prop :=
  handoff.pending?.getD last = display

namespace Handoff

variable {handoff : Handoff} {last display : Frame}

theorem tells_iff
    : handoff.Tells last display
      ↔ handoff.pending? = some display ∨ handoff.pending? = none ∧ last = display := by
  rw [Tells]
  cases handoff.pending? <;> simp

namespace Tells

theorem publish (handoff : Handoff) (last frame : Frame)
    : (handoff.publish frame).Tells last frame :=
  rfl

theorem setTone (h : handoff.Tells last display) (sounding : Bool)
    : (handoff.setTone sounding).Tells last display :=
  h

theorem setKey (h : handoff.Tells last display) (key : Nibble) (pressed : Bool)
    : (handoff.setKey key pressed).Tells last display :=
  h

/-- What a front end takes becomes the frame taken last, and if there is nothing to take then the
frame taken last stays the current one.
-/
theorem takeFrame (h : handoff.Tells last display)
    : handoff.takeFrame.2.Tells (handoff.takeFrame.1.getD last) display :=
  h

end Tells

end Handoff

-----------------------------------------------------------------------------------------
-- Turns tell every change of the display
-----------------------------------------------------------------------------------------

/-- A turn leaves no change of the display untold: a handoff that told the display before the turn
tells the display after it, once it has received the calls.
-/
def Turn.Telling (turn : Turn) (before : Machine) : Prop :=
  ∀ {handoff : Handoff} {last : Frame},
    handoff.Tells last before.display
    → (Host.receiveAll handoff turn.calls).Tells last turn.machine.display

namespace Machine

/-- An instruction that changes the display publishes it, and what the others tell the host does
not touch the pending frame.
-/
theorem execute_telling (machine : Machine) (instruction : Instruction) (report : List UInt8)
    : (machine.execute instruction report).Telling machine := by
  intro handoff last told
  rw [execute_calls]
  cases shows : instruction.publishes with
  | true => exact .publish _ _ _
  | false =>
      rw [execute_display machine report shows]
      cases instruction.polls <;> exact told

theorem cycle_telling (machine : Machine) (report : List UInt8)
    : (machine.cycle report).Telling machine := by
  cases decodes : Instruction.decode? machine.ahead with
  | none =>
      rw [cycle_of_none report decodes]
      exact id
  | some instruction =>
      rw [cycle_of_some report decodes]
      exact machine.fetch.execute_telling instruction report

theorem countDown_telling (machine : Machine) : machine.countDown.Telling machine := by
  intro handoff last told
  simp only [countDown]
  split <;> exact told

end Machine

-----------------------------------------------------------------------------------------
-- Whatever a scheduler does, its handoff tells the display
-----------------------------------------------------------------------------------------

/-- How far a run has come tells the display. -/
def Progress.Tells (progress : Progress Handoff) (last : Frame) : Prop :=
  progress.host.Tells last progress.scheduler.machine.display

namespace Scheduler

variable {scheduler : Scheduler} {handoff : Handoff} {last : Frame}

theorem absorb_tells {turn : Turn} (telling : turn.Telling scheduler.machine)
    (told : handoff.Tells last scheduler.machine.display)
    : (scheduler.absorb handoff turn).Tells last :=
  telling told

theorem instructionTick_tells (told : handoff.Tells last scheduler.machine.display)
    : (scheduler.instructionTick handoff).Tells last :=
  absorb_tells (scheduler.machine.cycle_telling _) told

theorem timerTick_tells (told : handoff.Tells last scheduler.machine.display)
    : (scheduler.timerTick handoff).Tells last :=
  absorb_tells scheduler.machine.countDown_telling told

theorem serve_tells (told : handoff.Tells last scheduler.machine.display) (wake : Wake)
    : (scheduler.serve handoff wake).Tells last := by
  cases wake with
  | cancelled => exact told
  | instruction => exact instructionTick_tells told
  | timer => exact timerTick_tells told

/-- A loop through any wakes tells the display, also if a fault or a cancellation ends it, by
induction over the wakes.
-/
theorem serveAll_tells (told : handoff.Tells last scheduler.machine.display)
    (wakes : List Wake)
    : (scheduler.serveAll handoff wakes).Tells last := by
  induction wakes generalizing scheduler handoff with
  | nil => exact told
  | cons wake rest ih =>
      have served := serve_tells told wake
      simp only [serveAll]
      split
      · exact served.setTone false
      · exact ih served

theorem run_tells (told : handoff.Tells last scheduler.machine.display) (wakes : List Wake)
    : (scheduler.run handoff wakes).Tells last := by
  have started : handoff.Tells last scheduler.start.machine.display := told
  rw [run]
  split
  · exact told
  · exact serveAll_tells started wakes

end Scheduler

-----------------------------------------------------------------------------------------
-- A scheduler and its front ends, step by step
-----------------------------------------------------------------------------------------

/-- A scheduler whose frames go to front ends that all share one handoff. -/
structure Broadcast where
  scheduler : Scheduler
  handoff : Handoff
  /-- Whether a run is going on. -/
  running : Bool
  /-- The frames that were taken, each with the number of the front end that took it, latest
  first. -/
  taken : List (Nat × Frame)

namespace Broadcast

/-- A step of one of the parties. A run is its start and one pass of its loop after the other, so
that front ends can take frames in between.
-/
inductive Move where
  | instructionTick
  | timerTick
  | startRun
  | wake (wake : Wake)
  | takeFrame (viewer : Nat)
  | setKey (key : Nibble) (pressed : Bool)

/-- A scheduler that nobody has driven and a handoff that nobody has used. -/
def fresh (scheduler : Scheduler) : Broadcast where
  scheduler := scheduler
  handoff := .fresh
  running := false
  taken := []

/-- The frame that was taken last; before any was, the blank one. -/
def last (broadcast : Broadcast) : Frame :=
  (broadcast.taken.head?.map Prod.snd).getD .blank

/-- Goes on with what a tick led to. -/
def adopt (broadcast : Broadcast) (progress : Progress Handoff) : Broadcast :=
  { broadcast with scheduler := progress.scheduler, handoff := progress.host }

/-- Goes on with how far a run has come; it goes on until it has a result. -/
def proceed (broadcast : Broadcast) (progress : Progress Handoff) : Broadcast :=
  { broadcast.adopt progress with running := progress.result?.isNone }

/-- Makes one move. A wake outside of a run happens to nobody. -/
def make (broadcast : Broadcast) : Move → Broadcast
  | .instructionTick => broadcast.adopt (broadcast.scheduler.instructionTick broadcast.handoff)
  | .timerTick => broadcast.adopt (broadcast.scheduler.timerTick broadcast.handoff)
  | .startRun => broadcast.proceed (broadcast.scheduler.run broadcast.handoff [])
  | .wake wake =>
      if broadcast.running then
        broadcast.proceed (broadcast.scheduler.serveAll broadcast.handoff [wake])
      else broadcast
  | .takeFrame viewer =>
      let (frame?, handoff) := broadcast.handoff.takeFrame
      { broadcast with
        handoff := handoff
        taken := (frame?.map (viewer, ·)).toList ++ broadcast.taken }
  | .setKey key pressed =>
      { broadcast with handoff := broadcast.handoff.setKey key pressed }

/-- Makes moves in order. -/
def makeAll (broadcast : Broadcast) (moves : List Move) : Broadcast :=
  moves.foldl make broadcast

/-- After the end of a run its clocks wake nobody. -/
theorem makeAll_wakes_of_idle {broadcast : Broadcast} (idle : broadcast.running = false)
    (wakes : List Wake)
    : broadcast.makeAll (wakes.map .wake) = broadcast := by
  induction wakes with
  | nil => rfl
  | cons wake rest ih =>
      have unchanged : broadcast.make (.wake wake) = broadcast := by
        simp [make, idle]
      simp only [List.map_cons, makeAll, List.foldl_cons, unchanged]
      exact ih

/-- Passes of the loop one by one are the loop, by induction over the wakes: either the first pass
ends the run or the rest go on from where it led.
-/
theorem makeAll_wakes {broadcast : Broadcast} (running : broadcast.running = true)
    (wakes : List Wake)
    : broadcast.makeAll (wakes.map .wake)
      = broadcast.proceed (broadcast.scheduler.serveAll broadcast.handoff wakes) := by
  induction wakes generalizing broadcast with
  | nil =>
      show broadcast = _
      rw [Scheduler.serveAll, proceed, adopt, Option.isNone_none, ← running]
  | cons wake rest ih =>
      have first : broadcast.make (.wake wake)
          = broadcast.proceed (broadcast.scheduler.serveAll broadcast.handoff [wake]) := by
        simp [make, running]
      simp only [List.map_cons, makeAll, List.foldl_cons, first]
      cases ended : (broadcast.scheduler.serve broadcast.handoff wake).result? with
      | some result =>
          have idle
              : (broadcast.proceed
                  (broadcast.scheduler.serveAll broadcast.handoff [wake])).running
                = false := by
            simp [proceed, Scheduler.serveAll, ended, Scheduler.conclude]
          rw [← makeAll, makeAll_wakes_of_idle idle]
          simp only [Scheduler.serveAll, ended]
      | none =>
          have going
              : (broadcast.proceed
                  (broadcast.scheduler.serveAll broadcast.handoff [wake])).running
                = true := by
            simp [proceed, Scheduler.serveAll, ended]
          rw [← makeAll, ih going]
          simp only [Scheduler.serveAll, ended, proceed, adopt]

/-- A run that nobody interrupts is its start and its wakes one by one. -/
theorem makeAll_run (broadcast : Broadcast) (wakes : List Wake)
    : broadcast.makeAll (.startRun :: wakes.map .wake)
      = broadcast.proceed (broadcast.scheduler.run broadcast.handoff wakes) := by
  have start : broadcast.makeAll (.startRun :: wakes.map .wake)
      = (broadcast.proceed (broadcast.scheduler.run broadcast.handoff [])).makeAll
          (wakes.map .wake) :=
    rfl
  rw [start]
  cases stopped : broadcast.scheduler.stopped with
  | true =>
      have idle : (broadcast.proceed (broadcast.scheduler.run broadcast.handoff [])).running
          = false := by
        simp [proceed, Scheduler.run, stopped, Scheduler.refuse]
      rw [makeAll_wakes_of_idle idle]
      simp [Scheduler.run, stopped]
  | false =>
      have going : (broadcast.proceed (broadcast.scheduler.run broadcast.handoff [])).running
          = true := by
        simp [proceed, Scheduler.run, stopped, Scheduler.serveAll]
      rw [makeAll_wakes going]
      simp [Scheduler.run, stopped, proceed, adopt, Scheduler.serveAll]

-----------------------------------------------------------------------------------------
-- The handoff tells the display at every moment
-----------------------------------------------------------------------------------------

theorem last_takeFrame (broadcast : Broadcast) (viewer : Nat)
    : (broadcast.make (.takeFrame viewer)).last
      = broadcast.handoff.takeFrame.1.getD broadcast.last := by
  cases pending : broadcast.handoff.pending? <;>
    simp [make, last, Handoff.takeFrame, pending]

/-- The handoff and the frame taken last tell the current display. -/
def Current (broadcast : Broadcast) : Prop :=
  broadcast.handoff.Tells broadcast.last broadcast.scheduler.machine.display

theorem Current.make {broadcast : Broadcast} (current : broadcast.Current) (move : Move)
    : (broadcast.make move).Current := by
  cases move with
  | instructionTick => exact Scheduler.instructionTick_tells current
  | timerTick => exact Scheduler.timerTick_tells current
  | startRun => exact Scheduler.run_tells current []
  | wake wake =>
      simp only [Broadcast.make]
      split
      · exact Scheduler.serveAll_tells current [wake]
      · exact current
  | takeFrame viewer =>
      rw [Current, last_takeFrame]
      exact Handoff.Tells.takeFrame current
  | setKey key pressed => exact current

theorem Current.makeAll {broadcast : Broadcast} (current : broadcast.Current)
    (moves : List Move)
    : (broadcast.makeAll moves).Current := by
  induction moves generalizing broadcast with
  | nil => exact current
  | cons move rest ih => exact ih (current.make move)

theorem current_fresh {scheduler : Scheduler} (blank : scheduler.machine.display = .blank)
    : (fresh scheduler).Current :=
  blank.symm

end Broadcast

theorem Scheduler.display_of_build {program : Array UInt8} {dialect : Dialect}
    {random : Generator} {hertz : UInt32} {scheduler : Scheduler}
    (builds : build program dialect random hertz = .ok scheduler)
    : scheduler.machine.display = .blank := by
  cases loads : Machine.load program dialect random with
  | error fault => simp [build, loads, bind, Except.bind] at builds
  | ok machine =>
      obtain ⟨_, rfl⟩ := Machine.load_eq_ok_iff.mp loads
      cases valid : ClockRate.ofHertz hertz with
      | error fault => simp [build, loads, valid, bind, Except.bind] at builds
      | ok rate =>
          simp only [build, loads, valid, bind, Except.bind, pure, Except.pure,
            Except.ok.injEq] at builds
          rw [← builds, ready, Machine.boot]

end Chip8
