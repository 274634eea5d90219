import Chip8.Scheduler.Basic

/-!
A scheduler on a thread of its own. Whoever holds the worker asks it to stop through a channel with
one place; the worker goes on with whatever wakes it until it takes the request.
-/

namespace Chip8

/-- A run in progress or ended, and whether a stop was asked for. -/
structure Worker where
  scheduler : Scheduler
  /-- Whether the one place of the stop channel was ever filled; a second request is dropped. The
  pass that takes the request out ends the run, and nobody looks at the place after that. -/
  stopRequested : Bool
  /-- The result, once the run has ended. -/
  result? : Option (Except Fault Unit)

namespace Worker

variable {σ : Type} [Host σ]

def spawn (scheduler : Scheduler) (host : σ) : Worker × σ :=
  let progress := scheduler.run host []
  ({ scheduler := progress.scheduler, stopRequested := false, result? := progress.result? },
    progress.host)

def stop (worker : Worker) : Worker :=
  { worker with stopRequested := true }

def isFinished (worker : Worker) : Bool :=
  worker.result?.isSome

/-- Whether a wake can happen: a run that has ended has none, and a cancellation needs a request. -/
def ready (worker : Worker) (wake : Wake) : Bool :=
  !worker.isFinished && (wake != .cancelled || worker.stopRequested)

/-- One pass of the loop; a wake that cannot happen changes nothing. -/
def pass (worker : Worker) (host : σ) (wake : Wake) : Worker × σ :=
  if worker.ready wake then
    let progress := worker.scheduler.serveAll host [wake]
    ({ worker with scheduler := progress.scheduler, result? := progress.result? }, progress.host)
  else (worker, host)

def passAll (worker : Worker) (host : σ) (wakes : List Wake) : Worker × σ :=
  wakes.foldl (fun (worker, host) wake => worker.pass host wake) (worker, host)

/-- Takes the journal out, so that the entries to come start a new one. -/
def takeJournal (worker : Worker) : Array Note × Worker :=
  (worker.scheduler.journal,
    { worker with scheduler := { worker.scheduler with journal := #[] } })

/-- Asks the run to stop and waits for its result. The run may serve further wakes before it takes
the request; if none of them ends it, the request does. -/
def stopAndJoin (worker : Worker) (host : σ) (before : List Wake) : Except Fault Unit × σ :=
  let (worker, host) := worker.stop.passAll host (before ++ [.cancelled])
  (worker.result?.getD (.ok ()), host)

end Worker

end Chip8
