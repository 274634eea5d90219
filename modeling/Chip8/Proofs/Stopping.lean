import Chip8.Handoff
import Chip8.Proofs.RunEnd
import Chip8.Scheduler.Worker

/-! A spawned run and whoever holds it, around a stop channel with one place. Clocks fire, stops are
asked for and the loop takes any wake that is ready, in whatever order. A request stays where it is
until a pass takes it, and nothing makes the loop prefer it to a clock.
-/

namespace Chip8

-----------------------------------------------------------------------------------------
-- Passes of a worker
-----------------------------------------------------------------------------------------

namespace Worker

variable {σ : Type} [Host σ] {worker : Worker}

theorem stop_of_requested (requested : worker.stopRequested = true) : worker.stop = worker := by
  rw [stop, ← requested]

theorem pass_of_finished (finished : worker.isFinished = true) (host : σ) (wake : Wake)
    : worker.pass host wake = (worker, host) := by
  simp [pass, ready, finished]

theorem stopRequested_pass (worker : Worker) (host : σ) (wake : Wake)
    : (worker.pass host wake).1.stopRequested = worker.stopRequested := by
  rw [pass]
  split <;> rfl

/-- A timer tick gives a run no result: it cannot fault. -/
theorem result_pass_timer (worker : Worker) (host : σ)
    : (worker.pass host .timer).1.result? = worker.result? := by
  cases finished : worker.isFinished with
  | true => rw [pass_of_finished finished]
  | false =>
      have pending : worker.result? = none := by
        simpa [isFinished] using finished
      rw [pass, if_pos (by simp [ready, finished]), pending]
      rfl

/-- A pass that takes a request is the last one. -/
theorem result_pass_cancelled (waiting : worker.isFinished = false)
    (requested : worker.stopRequested = true) (host : σ)
    : (worker.pass host .cancelled).1.result? = some (.ok ()) := by
  rw [pass, if_pos (by simp [ready, waiting, requested])]
  rfl

end Worker

-----------------------------------------------------------------------------------------
-- A spawned run and its holder, step by step
-----------------------------------------------------------------------------------------

/-- The wake that a tick answers to. -/
def Tick.wake : Tick → Wake
  | .instruction => .instruction
  | .timer => .timer

/-- A spawned run, its clocks and whoever holds it. -/
structure Supervised (σ : Type) where
  worker : Worker
  host : σ
  /-- Whether a clock has fired since its last tick was begun. One that fires again meanwhile adds
  nothing. -/
  due : Tick → Bool
  /-- The tick that was begun and is not complete. -/
  inFlight? : Option Tick
  /-- How many instruction ticks were begun. -/
  begun : Nat

namespace Supervised

/-- A step of one of the parties. A tick is begun by the pass that takes its wake and completes
later, so that clocks can fire and stops can be asked for in between.
-/
inductive Move where
  | fire (clock : Tick)
  | stop
  | take (wake : Wake)
  | complete
  deriving DecidableEq

variable {σ : Type} [Host σ]

def spawn (scheduler : Scheduler) (host : σ) : Supervised σ where
  worker := (Worker.spawn scheduler host).1
  host := (Worker.spawn scheduler host).2
  due := fun _ => false
  inFlight? := none
  begun := 0

/-- Whether a pass can take a wake: the loop is at its select, the run has not ended, and there is
something to receive.
-/
def canTake (state : Supervised σ) (wake : Wake) : Bool :=
  state.inFlight?.isNone && state.worker.ready wake && wake.tick?.all state.due

/-- Goes on with what a pass led to. -/
def adopt (state : Supervised σ) (passed : Worker × σ) : Supervised σ :=
  { state with worker := passed.1, host := passed.2, inFlight? := none }

/-- Begins a tick; its clock has to fire again before the next one. -/
def beginTick (state : Supervised σ) (tick : Tick) : Supervised σ :=
  { state with
    due := fun clock => clock != tick && state.due clock
    inFlight? := some tick
    begun := if tick = .instruction then state.begun + 1 else state.begun }

/-- Makes one move. The loop waits while it cannot take what a pass would take. -/
def make (state : Supervised σ) : Move → Supervised σ
  | .fire clock => { state with due := fun other => other == clock || state.due other }
  | .stop => { state with worker := state.worker.stop }
  | .take wake =>
      if state.canTake wake then
        match wake.tick? with
        | none => state.adopt (state.worker.pass state.host .cancelled)
        | some tick => state.beginTick tick
      else state
  | .complete =>
      match state.inFlight? with
      | none => state
      | some tick => state.adopt (state.worker.pass state.host tick.wake)

/-- Makes moves in order. -/
def makeAll (state : Supervised σ) (moves : List Move) : Supervised σ :=
  moves.foldl make state

/-- Whether a move is a pass that takes the instruction clock although it could take a request. -/
def passesOver (state : Supervised σ) (move : Move) : Bool :=
  move == .take .instruction && state.canTake .instruction && state.canTake .cancelled

/-- How many of the moves pass over a request. -/
def overtakings (state : Supervised σ) : List Move → Nat
  | [] => 0
  | move :: rest =>
      (if state.passesOver move then 1 else 0) + (state.make move).overtakings rest

-----------------------------------------------------------------------------------------
-- What a pass takes
-----------------------------------------------------------------------------------------

variable {state : Supervised σ}

theorem make_take_of_blocked {wake : Wake} (blocked : state.canTake wake = false)
    : state.make (.take wake) = state := by
  rw [make, blocked]
  rfl

theorem make_take_cancelled (takes : state.canTake .cancelled = true)
    : state.make (.take .cancelled)
      = state.adopt (state.worker.pass state.host .cancelled) := by
  rw [make, if_pos takes]
  rfl

theorem make_take_instruction (takes : state.canTake .instruction = true)
    : state.make (.take .instruction) = state.beginTick .instruction := by
  rw [make, if_pos takes]
  rfl

theorem make_take_timer (takes : state.canTake .timer = true)
    : state.make (.take .timer) = state.beginTick .timer := by
  rw [make, if_pos takes]
  rfl

omit [Host σ] in
theorem unfinished_of_canTake {wake : Wake} (takes : state.canTake wake = true)
    : state.worker.isFinished = false := by
  simp only [canTake, Worker.ready, Bool.and_eq_true, Bool.not_eq_true'] at takes
  obtain ⟨⟨_, unfinished, _⟩, _⟩ := takes
  exact unfinished

omit [Host σ] in
/-- While a request is there, whatever else a pass could take it could take the request as well. -/
theorem canTake_cancelled (requested : state.worker.stopRequested = true) {wake : Wake}
    (takes : state.canTake wake = true)
    : state.canTake .cancelled = true := by
  simp only [canTake, Worker.ready, requested, Bool.and_eq_true] at takes ⊢
  obtain ⟨⟨idle, unfinished, _⟩, _⟩ := takes
  exact ⟨⟨idle, unfinished, by simp⟩, rfl⟩

-----------------------------------------------------------------------------------------
-- A request stays until the run has ended
-----------------------------------------------------------------------------------------

theorem requested_make (requested : state.worker.stopRequested = true) (move : Move)
    : (state.make move).worker.stopRequested = true := by
  cases move with
  | fire clock => exact requested
  | stop => rfl
  | take wake =>
      rw [make]
      split
      · cases wake with
        | cancelled => exact (Worker.stopRequested_pass ..).trans requested
        | instruction => exact requested
        | timer => exact requested
      · exact requested
  | complete =>
      rw [make]
      split
      · exact requested
      · exact (Worker.stopRequested_pass ..).trans requested

/-- By induction over the moves. -/
theorem requested_makeAll (requested : state.worker.stopRequested = true) (moves : List Move)
    : (state.makeAll moves).worker.stopRequested = true := by
  induction moves generalizing state with
  | nil => exact requested
  | cons move rest ih => exact ih (requested_make requested move)

-----------------------------------------------------------------------------------------
-- Every tick that is begun passes over the request
-----------------------------------------------------------------------------------------

/-- A pass that begins an instruction tick could have taken the request, and no other move begins
one.
-/
theorem begun_make (requested : state.worker.stopRequested = true) (move : Move)
    : (state.make move).begun = state.begun + if state.passesOver move then 1 else 0 := by
  cases move with
  | fire clock => rfl
  | stop => rfl
  | take wake =>
      cases takes : state.canTake wake with
      | false =>
          have waits : state.passesOver (.take wake) = false := by
            cases wake <;> simp [passesOver, takes]
          rw [make_take_of_blocked takes, waits]
          rfl
      | true =>
          cases wake with
          | cancelled =>
              rw [make_take_cancelled takes]
              rfl
          | timer =>
              rw [make_take_timer takes]
              rfl
          | instruction =>
              have overtakes : state.passesOver (.take .instruction) = true := by
                simp [passesOver, takes, canTake_cancelled requested takes]
              rw [make_take_instruction takes, overtakes]
              rfl
  | complete =>
      rw [make]
      split <;> rfl

/-- By induction over the moves. -/
theorem begun_makeAll (requested : state.worker.stopRequested = true) (moves : List Move)
    : (state.makeAll moves).begun = state.begun + state.overtakings moves := by
  induction moves generalizing state with
  | nil => rfl
  | cons move rest ih =>
      have later := ih (requested_make requested move)
      rw [begun_make requested move] at later
      rw [overtakings, ← Nat.add_assoc]
      exact later

-----------------------------------------------------------------------------------------
-- What a run comes to that passes over no request
-----------------------------------------------------------------------------------------

/-- Since a state, the loop has begun no instruction tick: one that is in flight was so already, and
a fault is that of the tick in flight then.
-/
structure BegunNone (state later : Supervised σ) : Prop where
  requested : later.worker.stopRequested = true
  inFlight
    : later.inFlight? = some .instruction
      → state.inFlight? = some .instruction
        ∧ later.worker = state.worker
        ∧ later.host = state.host
  faulted
    : ∀ fault,
        later.worker.result? = some (.error fault)
        → (state.make .complete).worker.result? = some (.error fault)

namespace BegunNone

theorem refl (requested : state.worker.stopRequested = true) : BegunNone state state where
  requested := requested
  inFlight flies := ⟨flies, rfl, rfl⟩
  faulted fault faults := by
    have finished : state.worker.isFinished = true := by
      simp [Worker.isFinished, faults]
    rw [make]
    split
    · exact faults
    · rw [Worker.pass_of_finished finished]
      exact faults

variable {later : Supervised σ}

theorem complete (h : BegunNone state later) : BegunNone state (later.make .complete) := by
  refine ⟨requested_make h.requested .complete, ?_, ?_⟩
  · rw [make]
    split
    · exact h.inFlight
    · exact nofun
  · intro fault faults
    cases flies : later.inFlight? with
    | none =>
        rw [make, flies] at faults
        exact h.faulted fault faults
    | some tick =>
        rw [make, flies] at faults
        cases tick with
        | timer =>
            have timer := Worker.result_pass_timer later.worker later.host
            exact h.faulted fault (timer.symm.trans faults)
        | instruction =>
            -- Nothing but ticks moves machine and host: completed now or then, it comes to the same.
            obtain ⟨same, worker, host⟩ := h.inFlight flies
            rw [make, same, ← worker, ← host]
            exact faults

theorem take (h : BegunNone state later) {wake : Wake}
    (respects : later.passesOver (.take wake) = false)
    : BegunNone state (later.make (.take wake)) := by
  cases takes : later.canTake wake with
  | false =>
      rw [make_take_of_blocked takes]
      exact h
  | true =>
      have requested := requested_make h.requested (.take wake)
      cases wake with
      | cancelled =>
          have ended : (later.make (.take .cancelled)).worker.result? = some (.ok ()) := by
            rw [make_take_cancelled takes]
            exact Worker.result_pass_cancelled (unfinished_of_canTake takes) h.requested _
          refine ⟨requested, ?_, ?_⟩
          · rw [make_take_cancelled takes]
            exact nofun
          · intro fault faults
            exact absurd (ended.symm.trans faults) nofun
      | timer =>
          refine ⟨requested, ?_, ?_⟩ <;> rw [make_take_timer takes]
          · exact nofun
          · exact h.faulted
      | instruction =>
          have overtakes : later.passesOver (.take .instruction) = true := by
            simp [passesOver, takes, canTake_cancelled h.requested takes]
          exact absurd (overtakes.symm.trans respects) nofun

theorem make (h : BegunNone state later) {move : Move} (respects : later.passesOver move = false)
    : BegunNone state (later.make move) := by
  cases move with
  | fire clock => exact ⟨h.requested, h.inFlight, h.faulted⟩
  | stop =>
      -- The place is taken, so the second request is dropped.
      have asked_again : later.make .stop = later := by
        rw [Supervised.make, Worker.stop_of_requested h.requested]
      rw [asked_again]
      exact h
  | take wake => exact h.take respects
  | complete => exact h.complete

/-- By induction over the moves, none of which passes over a request. -/
theorem makeAll (h : BegunNone state later) {moves : List Move}
    (respects : later.overtakings moves = 0)
    : BegunNone state (later.makeAll moves) := by
  induction moves generalizing later with
  | nil => exact h
  | cons move rest ih =>
      rw [overtakings] at respects
      obtain ⟨first, others⟩ := Nat.add_eq_zero_iff.mp respects
      exact ih (h.make (by simpa using first)) others

end BegunNone

-----------------------------------------------------------------------------------------
-- After the end
-----------------------------------------------------------------------------------------

theorem ended_make (finished : state.worker.isFinished = true) (move : Move)
    : (state.make move).worker.result? = state.worker.result?
      ∧ (state.make move).begun = state.begun := by
  cases move with
  | fire clock => exact ⟨rfl, rfl⟩
  | stop => exact ⟨rfl, rfl⟩
  | take wake =>
      have blocked : state.canTake wake = false := by
        simp [canTake, Worker.ready, finished]
      rw [make_take_of_blocked blocked]
      exact ⟨rfl, rfl⟩
  | complete =>
      rw [make]
      split
      · exact ⟨rfl, rfl⟩
      · rw [Worker.pass_of_finished finished]
        exact ⟨rfl, rfl⟩

/-- By induction over the moves: a run that has its result keeps it. -/
theorem ended_makeAll (finished : state.worker.isFinished = true) (moves : List Move)
    : (state.makeAll moves).worker.result? = state.worker.result?
      ∧ (state.makeAll moves).begun = state.begun := by
  induction moves generalizing state with
  | nil => exact ⟨rfl, rfl⟩
  | cons move rest ih =>
      obtain ⟨result, begun⟩ := ended_make finished move
      have still : (state.make move).worker.isFinished = true := by
        rw [Worker.isFinished, result]
        exact finished
      obtain ⟨later_result, later_begun⟩ := ih still
      exact ⟨later_result.trans result, later_begun.trans begun⟩

end Supervised

open Supervised in
/-- That a stop was asked for is not forgotten, so every pass up to the end of the run finds the
request. Every instruction tick that is begun since is begun by a pass that took the instruction
clock although it could have taken the request; without such a pass the run begins none, and comes
to no fault but that of the tick in flight when the stop was asked for. The pass that takes the
request ends the run with success and begins nothing, and a run that has ended begins nothing more
and keeps its result.
-/
theorem stop_waits_for_its_pass {σ : Type} [Host σ] (scheduler : Scheduler) (host : σ)
    (before after : List Move)
    : let asked := (spawn scheduler host).makeAll (before ++ [.stop])
      let later := asked.makeAll after
      later.worker.stopRequested = true
      ∧ later.begun = asked.begun + asked.overtakings after
      ∧ (asked.overtakings after = 0
          → ∀ fault,
              later.worker.result? = some (.error fault)
              → (asked.make .complete).worker.result? = some (.error fault))
      ∧ (later.inFlight? = none
          → later.worker.isFinished = false
          → let taken := later.make (.take .cancelled)
            taken.worker.result? = some (.ok ()) ∧ taken.begun = later.begun)
      ∧ (later.worker.isFinished = true
          → ∀ more,
              (later.makeAll more).worker.result? = later.worker.result?
              ∧ (later.makeAll more).begun = later.begun) := by
  intro asked later
  have requested : asked.worker.stopRequested = true := by
    simp only [asked, makeAll, List.foldl_append, List.foldl_cons, List.foldl_nil]
    rfl
  have still : later.worker.stopRequested = true := requested_makeAll requested after
  refine ⟨still, begun_makeAll requested after, ?_, ?_, ended_makeAll⟩
  · intro respected fault faults
    have none_begun : BegunNone asked later := (BegunNone.refl requested).makeAll respected
    exact none_begun.faulted fault faults
  · intro idle unfinished taken
    have takes : later.canTake .cancelled = true := by
      simp [canTake, Worker.ready, Wake.tick?, idle, unfinished, still]
    have passed : taken = later.adopt (later.worker.pass later.host .cancelled) :=
      make_take_cancelled takes
    rw [passed]
    exact ⟨Worker.result_pass_cancelled unfinished still later.host, rfl⟩

open Supervised in
/-- A program that clears the screen and returns from nowhere. Stopped while it clears, it clears and
the request is taken; stopped while it returns, it comes to the fault of that.
-/
theorem stop_lets_instruction_in_flight_finish
    : ∃ scheduler,
        Scheduler.build #[0x00, 0xE0, 0x00, 0xEE] .modern (.ofSeed 0) 500 = .ok scheduler
        ∧ (let asked :=
            (spawn scheduler Handoff.fresh).makeAll
              [.fire .instruction, .take .instruction, .stop]
          let later := asked.makeAll [.fire .instruction, .complete]
          let ended := later.make (.take .cancelled)
          asked.overtakings [.fire .instruction, .complete] = 0
          ∧ later.host.pending? = some .blank
          ∧ later.begun = 1
          ∧ ended.worker.result? = some (.ok ())
          ∧ ∀ more,
              (ended.makeAll more).worker.result? = some (.ok ())
              ∧ (ended.makeAll more).begun = 1)
        ∧ let asked :=
            (spawn scheduler Handoff.fresh).makeAll
              [.fire .instruction, .take .instruction, .complete, .fire .instruction,
                .take .instruction, .stop]
          let later := asked.makeAll [.fire .instruction, .complete, .take .cancelled]
          asked.worker.result? = none
          ∧ later.worker.result? = some (.error (.emptyStack 0x202))
          ∧ (asked.make .complete).worker.result? = some (.error (.emptyStack 0x202)) := by
  let scheduler : Scheduler :=
    .ready (.boot #[0x00, 0xE0, 0x00, 0xEE] .modern (.ofSeed 0)) 4 .standard
  let clearing : List Move := [.fire .instruction, .take .instruction]
  let returning : List Move := clearing ++ [.complete] ++ clearing
  let meanwhile : List Move := [.fire .instruction, .complete]
  let asked : Supervised Handoff := (spawn scheduler .fresh).makeAll (clearing ++ [.stop])
  refine ⟨scheduler, rfl, ?_, ?_⟩
  · have respected : asked.overtakings meanwhile = 0 := by decide +kernel
    have shown : (asked.makeAll meanwhile).host.pending? = some .blank := by decide +kernel
    have begun : (asked.makeAll meanwhile).begun = 1 := by decide +kernel
    have idle : (asked.makeAll meanwhile).inFlight? = none := by decide +kernel
    have unfinished : (asked.makeAll meanwhile).worker.isFinished = false := by decide +kernel
    obtain ⟨_, _, _, taken, _⟩ :=
      stop_waits_for_its_pass scheduler Handoff.fresh clearing meanwhile
    obtain ⟨success, begun_taken⟩ := taken idle unfinished
    have finished
        : (asked.makeAll (meanwhile ++ [.take .cancelled])).worker.isFinished = true := by
      decide +kernel
    obtain ⟨_, _, _, _, ended⟩ :=
      stop_waits_for_its_pass scheduler Handoff.fresh clearing (meanwhile ++ [.take .cancelled])
    refine ⟨respected, shown, begun, success, ?_⟩
    intro more
    obtain ⟨result, same⟩ := ended finished more
    exact ⟨result.trans success, same.trans (begun_taken.trans begun)⟩
  · let asked : Supervised Handoff := (spawn scheduler .fresh).makeAll (returning ++ [.stop])
    have respected : asked.overtakings (meanwhile ++ [.take .cancelled]) = 0 := by
      decide +kernel
    have pending : asked.worker.result? = none := by decide +kernel
    have faults
        : (asked.makeAll (meanwhile ++ [.take .cancelled])).worker.result?
          = some (.error (.emptyStack 0x202)) := by
      decide +kernel
    obtain ⟨_, _, faulted, _, _⟩ :=
      stop_waits_for_its_pass scheduler Handoff.fresh returning (meanwhile ++ [.take .cancelled])
    exact ⟨pending, faults, faulted respected _ faults⟩

open Supervised in
/-- Nothing holds the loop back from the instruction clock while it could take a request: with a
clock that has always fired again, two more instructions are begun after two stops, and the run comes
to the fault of the second one.
-/
theorem stop_lets_later_instructions_begin
    : ∃ scheduler,
        Scheduler.build #[0x00, 0xE0, 0x00, 0xEE] .modern (.ofSeed 0) 4294967295 = .ok scheduler
        ∧ let asked := (spawn scheduler Handoff.fresh).makeAll [.stop, .stop]
          let pass : List Move := [.fire .instruction, .take .instruction, .complete]
          let later := asked.makeAll (pass ++ pass)
          asked.canTake .cancelled = true
          ∧ asked.begun = 0
          ∧ asked.inFlight? = none
          ∧ asked.worker.result? = none
          ∧ later.begun = 2
          ∧ later.worker.result? = some (.error (.emptyStack 0x202)) := by
  let scheduler : Scheduler :=
    .ready (.boot #[0x00, 0xE0, 0x00, 0xEE] .modern (.ofSeed 0)) 4 ⟨4294967295, by decide⟩
  refine ⟨scheduler, rfl, ?_, ?_, ?_, ?_, ?_, ?_⟩ <;> decide +kernel

end Chip8
