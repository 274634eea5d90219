import Chip8.Host.Basic
import Chip8.Machine.Cycle

/-!
A machine driven by two clocks. The loop of a run waits for a cancellation, the instruction clock
and the timer clock and serves whichever wakes it; which one that is is an input here, so a run is
the fold of the wakes that it serves. A run ends once and for all.
-/

namespace Chip8

/-- A number of instructions per second. -/
structure ClockRate where
  hertz : UInt32
  positive : hertz ≠ 0

namespace ClockRate

/-- The rate of a number of hertz; zero is no rate. -/
def ofHertz (hertz : UInt32) : Except Fault ClockRate :=
  if positive : hertz ≠ 0 then .ok ⟨hertz, positive⟩ else .error .noClockRate

/-- The rate that is taken when none is asked for. -/
def standard : ClockRate where
  hertz := 500
  positive := by decide

end ClockRate

/-- What the loop of a run was woken by. -/
inductive Wake where
  /-- Somebody asked it to stop, or nobody can ask any more. -/
  | cancelled
  | instruction
  | timer
  deriving DecidableEq, Repr

namespace Wake

/-- The wakes up to and including a firing of the timer clock, where the loop keeps up with `most`
firings of the instruction clock. Firings missed while it is busy fall together. -/
def period (rate : ClockRate) (most : Nat) : List Wake :=
  List.replicate (min most (max 1 (rate.hertz.toNat / timerRate))) .instruction ++ [.timer]

end Wake

/-- A machine with its clock rate, the end of its run and its journal. -/
structure Scheduler where
  machine : Machine
  rate : ClockRate
  /-- Whether the run has ended; no later run starts. -/
  stopped : Bool
  /-- What was noted since the machine was built, oldest first. -/
  journal : Array Note

/-- How far a run has come: its scheduler, its host, and its result once it has one. -/
structure Progress (σ : Type) where
  scheduler : Scheduler
  host : σ
  result? : Option (Except Fault Unit) := none

namespace Scheduler

/-- The scheduler of a machine into which a program of `size` bytes was just loaded. -/
def ready (machine : Machine) (size : Nat) (rate : ClockRate) : Scheduler where
  machine := machine
  rate := rate
  stopped := false
  journal := #[.loaded size]

/-- Builds a machine and its scheduler; the program is looked at before the clock rate. -/
def build (program : Array UInt8) (dialect : Dialect) (random : Generator) (hertz : UInt32)
    : Except Fault Scheduler := do
  let machine ← Machine.load program dialect random
  let rate ← ClockRate.ofHertz hertz
  return ready machine program.size rate

variable {σ : Type} [Host σ]

/-- Takes over the outcome of a cycle and passes its calls on. A fault is a result. -/
def absorb (scheduler : Scheduler) (host : σ) (turn : Turn) : Progress σ where
  scheduler :=
    { scheduler with machine := turn.machine, journal := scheduler.journal ++ turn.notes }
  host := Host.receiveAll host turn.calls
  result? := turn.fault?.map .error

def instructionTick (scheduler : Scheduler) (host : σ) : Progress σ :=
  scheduler.absorb host (scheduler.machine.cycle (Host.pressedKeys host))

def timerTick (scheduler : Scheduler) (host : σ) : Progress σ :=
  scheduler.absorb host scheduler.machine.countDown

def serve (scheduler : Scheduler) (host : σ) : Wake → Progress σ
  | .cancelled => { scheduler, host, result? := some (.ok ()) }
  | .instruction => scheduler.instructionTick host
  | .timer => scheduler.timerTick host

def start (scheduler : Scheduler) : Scheduler :=
  { scheduler with journal := scheduler.journal.push (.started scheduler.rate.hertz) }

/-- Ends a run with its result: the tone is silenced, whatever the sound timer holds. -/
def conclude (scheduler : Scheduler) (host : σ) (result : Except Fault Unit) : Progress σ where
  scheduler :=
    { scheduler with
      stopped := true
      journal := scheduler.journal.push <| match result with
        | .ok () => .cancelled
        | .error fault => .faulted fault }
  host := Host.receive host .stopTone
  result? := some result

/-- Serves wakes in order until one ends the run. Without a result the run is still waiting. -/
def serveAll (scheduler : Scheduler) (host : σ) : List Wake → Progress σ
  | [] => { scheduler, host }
  | wake :: rest =>
      let progress := scheduler.serve host wake
      match progress.result? with
      | some result => progress.scheduler.conclude progress.host result
      | none => progress.scheduler.serveAll progress.host rest

/-- Notes that no second run starts, which is no failure. -/
def refuse (scheduler : Scheduler) (host : σ) : Progress σ where
  scheduler := { scheduler with journal := scheduler.journal.push .refused }
  host := host
  result? := some (.ok ())

def run (scheduler : Scheduler) (host : σ) (wakes : List Wake) : Progress σ :=
  if scheduler.stopped then scheduler.refuse host else scheduler.start.serveAll host wakes

end Scheduler

end Chip8
