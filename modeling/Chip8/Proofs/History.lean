import Chip8.Proofs.Console
import Chip8.Proofs.Effect

/-! What a run leaves behind for a reader: the turns of each clock, the instructions that were
executed, the calls that the host received and the answers that it gave. A run can be cut at any
tick, so that the rest of it is a run of its own.
-/

namespace Chip8

-----------------------------------------------------------------------------------------
-- What a turn tells
-----------------------------------------------------------------------------------------

/-- Whether a call switches the tone on or off. -/
def Call.isTone : Call → Bool
  | startTone | stopTone => true
  | _ => false

namespace Turn

/-- The instruction that was executed, as the turn notes it; there is none if the word ahead stood
for none, or if the timers were counted.
-/
def executed? (turn : Turn) : Option Instruction :=
  turn.notes.findSome? fun
    | .executing _ instruction => some instruction
    | _ => none

end Turn

namespace Machine

theorem executed?_cycle (machine : Machine) (report : List UInt8)
    : (machine.cycle report).executed? = Instruction.decode? machine.ahead := by
  cases decodes : Instruction.decode? machine.ahead with
  | none =>
      rw [cycle_of_none report decodes]
      rfl
  | some instruction =>
      rw [cycle_of_some report decodes]
      rfl

/-- A cycle polls exactly if the instruction ahead does; what the host answers has no part in it.
-/
theorem poll_mem_cycle (machine : Machine) (report : List UInt8)
    : .poll ∈ (machine.cycle report).calls
      ↔ ∃ instruction,
          Instruction.decode? machine.ahead = some instruction
          ∧ instruction.polls = true := by
  cases decodes : Instruction.decode? machine.ahead with
  | none => simp [cycle_of_none report decodes]
  | some instruction =>
      simp only [cycle_of_some report decodes, execute_calls, Option.some.injEq,
        exists_eq_left']
      cases instruction <;> simp [Instruction.publishes, Instruction.polls]

/-- No instruction touches the tone. -/
theorem isTone_of_mem_cycle {machine : Machine} {report : List UInt8} {call : Call}
    (made : call ∈ (machine.cycle report).calls)
    : call.isTone = false := by
  cases decodes : Instruction.decode? machine.ahead with
  | none => simp [cycle_of_none report decodes] at made
  | some instruction =>
      simp only [cycle_of_some report decodes, execute_calls] at made
      split at made
      · obtain rfl := List.mem_singleton.mp made
        rfl
      · split at made
        · obtain rfl := List.mem_singleton.mp made
          rfl
        · contradiction

/-- A count of the timers makes one call, which sets the tone by the sound timer it leaves. -/
theorem calls_countDown (machine : Machine)
    : machine.countDown.calls
      = [if machine.countDown.machine.soundTimer = 0 then .stopTone else .startTone] := by
  have positive (timer : UInt8) : 0 < timer ↔ timer ≠ 0 := by
    rw [UInt8.lt_iff_toNat_lt, ne_eq, ← UInt8.toNat_inj]
    exact Nat.pos_iff_ne_zero
  simp only [countDown, beeping, gt_iff_lt, decide_eq_true_eq, positive, ite_not]

theorem isTone_of_mem_countDown {machine : Machine} {call : Call}
    (made : call ∈ machine.countDown.calls)
    : call.isTone = true := by
  rw [calls_countDown, List.mem_singleton] at made
  rw [made]
  split <;> rfl

end Machine

-----------------------------------------------------------------------------------------
-- Runs that are cut at a tick
-----------------------------------------------------------------------------------------

namespace Console

variable {σ : Type} [Host σ]

theorem run_cons (console : Console σ) (tick : Tick) (rest : List Tick)
    : console.run (tick :: rest) = (console.after (console.turn tick)).run rest :=
  rfl

theorem turns_cons (console : Console σ) (tick : Tick) (rest : List Tick)
    : console.turns (tick :: rest)
      = console.turn tick :: (console.after (console.turn tick)).turns rest :=
  rfl

theorem run_append (console : Console σ) (before since : List Tick)
    : console.run (before ++ since) = (console.run before).run since := by
  induction before generalizing console with
  | nil => rfl
  | cons tick rest ih => exact ih (console.after (console.turn tick))

-----------------------------------------------------------------------------------------
-- What a run tells
-----------------------------------------------------------------------------------------

/-- The turns that the ticks of one clock lead to, in order. -/
def turnsAt (console : Console σ) (clock : Tick) : List Tick → List Turn
  | [] => []
  | tick :: rest =>
      let later := (console.after (console.turn tick)).turnsAt clock rest
      if tick = clock then console.turn tick :: later else later

/-- The instructions that are executed, in order. -/
def executed (console : Console σ) (ticks : List Tick) : List Instruction :=
  (console.turns ticks).filterMap Turn.executed?

/-- The calls that the host receives, in order. -/
def calls (console : Console σ) (ticks : List Tick) : List Call :=
  (console.turns ticks).flatMap Turn.calls

/-- The calls that switch the tone. -/
def tones (console : Console σ) (ticks : List Tick) : List Call :=
  (console.calls ticks).filter Call.isTone

/-- The answers that the host gives to polls, in order. -/
def answers (console : Console σ) : List Tick → List (List UInt8)
  | [] => []
  | tick :: rest =>
      let later := (console.after (console.turn tick)).answers rest
      if .poll ∈ (console.turn tick).calls then Host.pressedKeys console.host :: later
      else later

theorem length_turnsAt (console : Console σ) (clock : Tick) (ticks : List Tick)
    : (console.turnsAt clock ticks).length = ticks.count clock := by
  induction ticks generalizing console with
  | nil => rfl
  | cons tick rest ih =>
      rw [turnsAt, List.count_cons]
      by_cases same : tick = clock <;> simp [same, ih]

/-- The turns of an instruction clock are cycles, so they leave the tone alone. -/
theorem isTone_of_mem_turnsAt {console : Console σ} {ticks : List Tick} {turn : Turn}
    {call : Call} (led : turn ∈ console.turnsAt .instruction ticks) (made : call ∈ turn.calls)
    : call.isTone = false := by
  induction ticks generalizing console with
  | nil => contradiction
  | cons tick rest ih =>
      cases tick with
      | timer => exact ih led
      | instruction =>
          rcases List.mem_cons.mp led with rfl | later
          · exact Machine.isTone_of_mem_cycle made
          · exact ih later

theorem executed_cons (console : Console σ) (tick : Tick) (rest : List Tick)
    : console.executed (tick :: rest)
      = (console.turn tick).executed?.toList
        ++ (console.after (console.turn tick)).executed rest := by
  rw [executed, turns_cons, List.filterMap_cons]
  cases (console.turn tick).executed? <;> rfl

theorem executed?_turn (console : Console σ)
    : (console.turn .instruction).executed? = Instruction.decode? console.machine.ahead :=
  console.machine.executed?_cycle _

theorem executed_instruction (console : Console σ) (rest : List Tick)
    : console.executed (.instruction :: rest)
      = (Instruction.decode? console.machine.ahead).toList
        ++ (console.after (console.turn .instruction)).executed rest := by
  rw [executed_cons, executed?_turn]

theorem executed_timer (console : Console σ) (rest : List Tick)
    : console.executed (.timer :: rest)
      = (console.after (console.turn .timer)).executed rest :=
  rfl

theorem calls_cons (console : Console σ) (tick : Tick) (rest : List Tick)
    : console.calls (tick :: rest)
      = (console.turn tick).calls ++ (console.after (console.turn tick)).calls rest :=
  rfl

theorem tones_instruction (console : Console σ) (rest : List Tick)
    : console.tones (.instruction :: rest)
      = (console.after (console.turn .instruction)).tones rest := by
  have silent : (console.turn .instruction).calls.filter Call.isTone = [] := by
    apply List.filter_eq_nil_iff.mpr
    intro call made
    simp [Machine.isTone_of_mem_cycle made]
  rw [tones, calls_cons, List.filter_append, silent]
  rfl

theorem tones_timer (console : Console σ) (rest : List Tick)
    : console.tones (.timer :: rest)
      = (console.turn .timer).calls ++ (console.after (console.turn .timer)).tones rest := by
  rw [tones, calls_cons, List.filter_append]
  congr 1
  apply List.filter_eq_self.mpr
  intro call made
  exact Machine.isTone_of_mem_countDown made

theorem answers_timer (console : Console σ) (rest : List Tick)
    : console.answers (.timer :: rest)
      = (console.after (console.turn .timer)).answers rest := by
  have unasked : .poll ∉ (console.turn .timer).calls := by
    intro polled
    exact absurd (Machine.isTone_of_mem_countDown polled) nofun
  rw [answers]
  exact if_neg unasked

theorem answers_append (console : Console σ) (before since : List Tick)
    : console.answers (before ++ since)
      = console.answers before ++ (console.run before).answers since := by
  induction before generalizing console with
  | nil => rfl
  | cons tick rest ih =>
      rw [List.cons_append, answers, answers, run_cons, ih]
      split <;> rfl

end Console

end Chip8
