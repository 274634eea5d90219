import Chip8.Handoff
import Chip8.Proofs.History
import Chip8.Scheduler.Basic
import Mathlib.Data.List.Induction

/-! Runs of a scheduler from start to end. A run that ended is the ticks that it chose, in their
order, and then the tone is silenced; after it no run starts again.
-/

namespace Chip8

/-- What is asked of a scheduler by whoever holds it. -/
inductive Request where
  | instructionTick
  | timerTick
  | run (wakes : List Wake)
  deriving DecidableEq, Repr

/-- The tick that a wake stands for; a cancellation stands for none. -/
def Wake.tick? : Wake → Option Tick
  | .cancelled => none
  | .instruction => some .instruction
  | .timer => some .timer

/-- The request for one tick. -/
def Tick.request : Tick → Request
  | .instruction => .instructionTick
  | .timer => .timerTick

/-- The requests for the ticks that a loop chose, in their order. -/
def Wake.requests (wakes : List Wake) : List Request :=
  (wakes.filterMap tick?).map Tick.request

/-- The machine of a run and its host. -/
def Progress.console {σ : Type} (progress : Progress σ) : Console σ where
  machine := progress.scheduler.machine
  host := progress.host

namespace Scheduler

variable {σ : Type} [Host σ]

def console (scheduler : Scheduler) (host : σ) : Console σ where
  machine := scheduler.machine
  host := host

def perform (scheduler : Scheduler) (host : σ) : Request → Progress σ
  | .instructionTick => scheduler.instructionTick host
  | .timerTick => scheduler.timerTick host
  | .run wakes => scheduler.run host wakes

/-- Performs requests in order, also behind a fault; the result is that of the last one. -/
def performAll (scheduler : Scheduler) (host : σ) (requests : List Request) : Progress σ :=
  requests.foldl (fun progress request => progress.scheduler.perform progress.host request)
    { scheduler, host }

/-- The passes that a run makes from its start to its end: it waits on after the earlier ones, and
the last one gives it its result.
-/
structure Ends (scheduler : Scheduler) (host : σ) (earlier : List Wake) (last : Wake)
    (result : Except Fault Unit)
    : Prop where
  running : scheduler.stopped = false
  waiting : (scheduler.run host earlier).result? = none
  ended : (scheduler.run host (earlier ++ [last])).result? = some result

-----------------------------------------------------------------------------------------
-- Ticks of a scheduler are turns of its machine
-----------------------------------------------------------------------------------------

theorem performAll_append (scheduler : Scheduler) (host : σ) (before since : List Request)
    : scheduler.performAll host (before ++ since)
      = since.foldl (fun progress request => progress.scheduler.perform progress.host request)
          (scheduler.performAll host before) :=
  List.foldl_append

/-- Ticks that are performed one after the other run the machine, by induction from the end. -/
theorem console_performAll (scheduler : Scheduler) (host : σ) (ticks : List Tick)
    : (scheduler.performAll host (ticks.map Tick.request)).console
      = (scheduler.console host).run ticks := by
  induction ticks using List.reverseRecOn with
  | nil => rfl
  | append_singleton earlier tick ih =>
      rw [List.map_append, performAll_append, Console.run_append, ← ih]
      cases tick <;> rfl

/-- A loop that waits on has run the machine through the ticks it chose, by induction over its
passes: none of them was a cancellation and none faulted.
-/
theorem console_serveAll {scheduler : Scheduler} {host : σ} {wakes : List Wake}
    (waiting : (scheduler.serveAll host wakes).result? = none)
    : (scheduler.serveAll host wakes).console
      = (scheduler.console host).run (wakes.filterMap Wake.tick?) := by
  induction wakes generalizing scheduler host with
  | nil => rfl
  | cons wake rest ih =>
      rw [serveAll] at waiting ⊢
      cases served : (scheduler.serve host wake).result? with
      | some result => simp [served, conclude] at waiting
      | none =>
          simp only [served] at waiting ⊢
          rw [ih waiting]
          -- A pass that gives no result served a clock.
          cases wake with
          | cancelled => simp [serve] at served
          | instruction => rfl
          | timer => rfl

/-- Passes behind those after which the loop waits on go on from there. -/
theorem serveAll_append {scheduler : Scheduler} {host : σ} {earlier : List Wake}
    (waiting : (scheduler.serveAll host earlier).result? = none) (later : List Wake)
    : scheduler.serveAll host (earlier ++ later)
      = (scheduler.serveAll host earlier).scheduler.serveAll
          (scheduler.serveAll host earlier).host later := by
  induction earlier generalizing scheduler host with
  | nil => rfl
  | cons wake rest ih =>
      rw [List.cons_append, serveAll, serveAll]
      rw [serveAll] at waiting
      cases served : (scheduler.serve host wake).result? with
      | some result => simp [served, conclude] at waiting
      | none =>
          simp only [served] at waiting ⊢
          exact ih waiting

-----------------------------------------------------------------------------------------
-- The last pass and what follows it
-----------------------------------------------------------------------------------------

theorem refuse_of_stopped {scheduler : Scheduler} (stopped : scheduler.stopped = true) (host : σ)
    (wakes : List Wake)
    : scheduler.run host wakes = scheduler.refuse host := by
  rw [run, if_pos stopped]

/-- Nothing that is asked of a stopped scheduler starts it again, by induction over the requests.
-/
theorem stopped_performAll {scheduler : Scheduler} (stopped : scheduler.stopped = true)
    (host : σ) (requests : List Request)
    : (scheduler.performAll host requests).scheduler.stopped = true := by
  induction requests using List.reverseRecOn with
  | nil => exact stopped
  | append_singleton earlier request ih =>
      rw [performAll_append]
      cases request with
      | instructionTick => exact ih
      | timerTick => exact ih
      | run wakes =>
          show ((scheduler.performAll host earlier).scheduler.run
            (scheduler.performAll host earlier).host wakes).scheduler.stopped = true
          rw [refuse_of_stopped ih]
          exact ih

namespace Ends

variable {scheduler : Scheduler} {host : σ} {earlier : List Wake} {last : Wake}
  {result : Except Fault Unit}

/-- The pass that ends a run finds the scheduler where the earlier passes led, serves its wake, and
concludes with what that comes to.
-/
theorem last_pass (h : Ends scheduler host earlier last result)
    : ∃ before : Progress σ,
        before.console = (scheduler.console host).run (earlier.filterMap Wake.tick?)
        ∧ (before.scheduler.serve before.host last).result? = some result
        ∧ scheduler.run host (earlier ++ [last])
          = (before.scheduler.serve before.host last).scheduler.conclude
              (before.scheduler.serve before.host last).host result := by
  have started (wakes : List Wake)
      : scheduler.run host wakes = scheduler.start.serveAll host wakes :=
    if_neg (by simp [h.running])
  have waiting := h.waiting
  have ended := h.ended
  rw [started] at waiting ended
  rw [serveAll_append waiting, serveAll] at ended
  refine ⟨scheduler.start.serveAll host earlier, console_serveAll waiting, ?_⟩
  rw [started, serveAll_append waiting, serveAll]
  cases served : ((scheduler.start.serveAll host earlier).scheduler.serve
      (scheduler.start.serveAll host earlier).host last).result? with
  | none => simp [served, serveAll] at ended
  | some outcome =>
      simp only [served, conclude] at ended
      obtain rfl := Option.some.inj ended
      exact ⟨rfl, rfl⟩

/-- What the last pass serves is the last of the ticks, if it serves a tick at all. -/
theorem console_serve {before : Progress σ}
    (led : before.console = (scheduler.console host).run (earlier.filterMap Wake.tick?))
    (last : Wake)
    : (before.scheduler.serve before.host last).console
      = (scheduler.performAll host (Wake.requests (earlier ++ [last]))).console := by
  rw [Wake.requests, console_performAll, List.filterMap_append, Console.run_append, ← led]
  cases last <;> rfl

/-- A run succeeds exactly on cancellation: a tick that gives a result at all gives a fault. -/
theorem ok_iff (h : Ends scheduler host earlier last result)
    : result = .ok () ↔ last = .cancelled := by
  obtain ⟨before, _, served, _⟩ := h.last_pass
  cases last with
  | cancelled => simpa [serve, eq_comm] using served
  | instruction =>
      obtain ⟨fault, _, rfl⟩ := Option.map_eq_some_iff.mp served
      simp
  | timer => exact absurd served nofun

/-- A run faults exactly if its last pass was an instruction tick that faulted so. -/
theorem error_iff (h : Ends scheduler host earlier last result) (fault : Fault)
    : result = .error fault
      ↔ last = .instruction
        ∧ (scheduler.performAll host (Wake.requests (earlier ++ [last]))).result?
          = some (.error fault) := by
  obtain ⟨before, led, served, _⟩ := h.last_pass
  cases last with
  | cancelled =>
      obtain rfl : Except.ok () = result := Option.some.inj served
      simp
  | timer => exact absurd served nofun
  | instruction =>
      have tick : Wake.requests (earlier ++ [.instruction])
          = Wake.requests earlier ++ [.instructionTick] := by
        simp [Wake.requests, Wake.tick?, Tick.request]
      have before_eq : (scheduler.performAll host (Wake.requests earlier)).console
          = before.console := by
        rw [Wake.requests, console_performAll, led]
      have outcome
          : (scheduler.performAll host (Wake.requests (earlier ++ [.instruction]))).result?
            = (before.console.turn .instruction).fault?.map .error := by
        rw [tick, performAll_append, ← before_eq]
        rfl
      have result_eq : (before.console.turn .instruction).fault?.map .error = some result :=
        served
      simp [outcome, result_eq]

end Ends

end Scheduler

open Scheduler in
/-- A run ends with success exactly if its last pass was a cancellation, and with a fault exactly
if its last pass was an instruction tick that came to this fault. Its machine is that of the
ticks performed in the order chosen, and so is its host but for one last call that silences the
tone; a handoff is left silent whatever the sound timer holds. The scheduler is stopped for
good: whatever is asked of it later, every run is a success at once, with no part in machine
and host.
-/
theorem ended_runs_are_their_ticks
    : (∀ {σ : Type} [Host σ] {scheduler : Scheduler} {host : σ} {earlier : List Wake}
          {last : Wake} {result : Except Fault Unit},
        Ends scheduler host earlier last result
        → let run := scheduler.run host (earlier ++ [last])
          let ticked := scheduler.performAll host (Wake.requests (earlier ++ [last]))
          (result = .ok () ↔ last = .cancelled)
          ∧ (∀ fault,
              result = .error fault
              ↔ last = .instruction ∧ ticked.result? = some (.error fault))
          ∧ run.scheduler.machine = ticked.scheduler.machine
          ∧ run.host = Host.receive ticked.host .stopTone
          ∧ run.scheduler.stopped = true
          ∧ ∀ requests,
              let later := run.scheduler.performAll run.host requests
              later.scheduler.stopped = true
              ∧ ∀ wakes,
                  let again := later.scheduler.run later.host wakes
                  again.result? = some (.ok ())
                  ∧ again.scheduler.machine = later.scheduler.machine
                  ∧ again.host = later.host)
      ∧ ∀ {scheduler : Scheduler} {handoff : Handoff} {earlier : List Wake} {last : Wake}
          {result : Except Fault Unit},
        Ends scheduler handoff earlier last result
        → (scheduler.run handoff (earlier ++ [last])).host.tone = false := by
  constructor
  · intro σ _ scheduler host earlier last result ends run ticked
    obtain ⟨before, led, _, concluded⟩ := ends.last_pass
    have served : (before.scheduler.serve before.host last).console = ticked.console :=
      Ends.console_serve led last
    have machine : run.scheduler.machine = ticked.scheduler.machine := by
      show (scheduler.run host (earlier ++ [last])).scheduler.machine = ticked.console.machine
      rw [concluded, ← served]
      rfl
    have silenced : run.host = Host.receive ticked.host .stopTone := by
      show (scheduler.run host (earlier ++ [last])).host = Host.receive ticked.console.host _
      rw [concluded, ← served]
      rfl
    have stopped : run.scheduler.stopped = true := by
      show (scheduler.run _ (earlier ++ [last])).scheduler.stopped = true
      rw [concluded]
      rfl
    refine ⟨ends.ok_iff, ends.error_iff, machine, silenced, stopped, ?_⟩
    intro requests later
    have still : later.scheduler.stopped = true := stopped_performAll stopped run.host requests
    refine ⟨still, ?_⟩
    intro wakes again
    have refused : again = later.scheduler.refuse later.host :=
      refuse_of_stopped still later.host wakes
    rw [refused]
    exact ⟨rfl, rfl, rfl⟩
  · intro scheduler handoff earlier last result ends
    obtain ⟨before, _, _, concluded⟩ := ends.last_pass
    rw [concluded]
    rfl

open Scheduler in
/-- A fault while the tone sounds silences it, though the sound timer still runs. -/
theorem fault_silences_running_tone
    : ∃ scheduler,
        Scheduler.build #[0x60, 0x05, 0xF0, 0x18] .modern (.ofSeed 0) 500 = .ok scheduler
        ∧ Ends scheduler Handoff.fresh [.instruction, .instruction, .timer] .instruction
          (.error (.unknownInstruction 0x204 ⟨0x00, 0x00⟩))
        ∧ let run := scheduler.run Handoff.fresh [.instruction, .instruction, .timer, .instruction]
          run.host.tone = false
          ∧ run.scheduler.machine.soundTimer = 4
          ∧ run.scheduler.stopped = true
          ∧ (run.scheduler.run run.host [.timer]).result? = some (.ok ()) := by
  let scheduler : Scheduler :=
    .ready (.boot #[0x60, 0x05, 0xF0, 0x18] .modern (.ofSeed 0)) 4 .standard
  have ends
      : Ends scheduler Handoff.fresh [.instruction, .instruction, .timer] .instruction
          (.error (.unknownInstruction 0x204 ⟨0x00, 0x00⟩)) :=
    ⟨rfl, by decide +kernel, by decide +kernel⟩
  have running
      : (scheduler.run Handoff.fresh
          [.instruction, .instruction, .timer, .instruction]).scheduler.machine.soundTimer
        = 4 := by
    decide +kernel
  obtain ⟨_, _, _, _, stopped, absorbing⟩ := ended_runs_are_their_ticks.1 ends
  obtain ⟨_, runs⟩ := absorbing []
  exact ⟨scheduler, rfl, ends, ended_runs_are_their_ticks.2 ends, running, stopped,
    (runs [.timer]).1⟩

end Chip8
