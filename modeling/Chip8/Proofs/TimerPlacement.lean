import Chip8.Handoff
import Chip8.Proofs.Countdown

/-! Two runs of a machine between whose instructions the timers are counted at different points.
Only an instruction that reads a timer can tell them apart, and if none sets a timer either then
nothing can in the end.
-/

namespace Chip8

-----------------------------------------------------------------------------------------
-- A machine without what its timers hold
-----------------------------------------------------------------------------------------

/-- The machine as it were with both timers at zero. -/
def Machine.untimed (machine : Machine) : Machine :=
  { machine with delayTimer := 0, soundTimer := 0 }

/-- What a turn comes to but for the timers of its machine: fault, calls and notes, and memory,
display, addresses, registers, the word fetched, the dialect and the generator.
-/
def Turn.untimed (turn : Turn) : Turn :=
  { turn with machine := turn.machine.untimed }

/-- Whether an instruction looks at a timer. -/
def Instruction.readsTimer : Instruction → Bool
  | readDelay _ => true
  | _ => false

namespace Machine

theorem eq_of_untimed {left right : Machine} (same : left.untimed = right.untimed)
    (timers : ∀ timer, left.timer timer = right.timer timer)
    : left = right := by
  have delay := timers .delay
  have sound := timers .sound
  obtain ⟨_, _, _, _, _, _, _, _, _, _, _⟩ := left
  obtain ⟨_, _, _, _, _, _, _, _, _, _, _⟩ := right
  simp only [untimed, Machine.mk.injEq] at same
  simp only [timer] at delay sound
  simp [same, delay, sound]

/-- The timers have no part in what is fetched next. -/
theorem ahead_of_untimed {left right : Machine} (same : left.untimed = right.untimed)
    : left.ahead = right.ahead := by
  show left.untimed.ahead = right.untimed.ahead
  rw [same]

theorem untimed_countDown (machine : Machine)
    : machine.countDown.machine.untimed = machine.untimed :=
  rfl

theorem untimed_skipWhen (machine : Machine) (condition : Bool)
    : (machine.untimed.skipWhen condition).untimed = (machine.skipWhen condition).untimed := by
  cases condition <;> rfl

/-- An instruction that reads no timer does the same whatever the timers hold, by cases over the
instruction set.
-/
theorem execute_untimed {instruction : Instruction} (blind : instruction.readsTimer = false)
    (machine : Machine) (report : List UInt8)
    : (machine.untimed.execute instruction report).untimed
      = (machine.execute instruction report).untimed := by
  cases instruction with
  | readDelay x => contradiction
  | ret =>
      have stack : machine.untimed.stack = machine.stack := rfl
      simp only [execute, stack]
      cases machine.stack <;> rfl
  | skipEqualByte x nn | skipUnequalByte x nn | skipEqual x y | skipUnequal x y =>
      exact congrArg (Turn.mk · [] [] none) (machine.untimed_skipWhen _)
  | skipPressed x | skipReleased x =>
      exact congrArg (Turn.mk · _ _ none) (machine.untimed_skipWhen _)
  | alu x y op => cases op <;> rfl
  | addIndex x =>
      cases kept : machine.dialect.keepsFlagOnIndexAdd <;>
        simp only [execute, advanceIndex, untimed, kept] <;> rfl
  | awaitKey x =>
      simp only [execute]
      cases Keypad.held report <;> rfl
  | store x =>
      cases advances : machine.dialect.advancesIndex <;>
        simp only [execute, storeRegisters, settleIndex, untimed, advances] <;> rfl
  | load x =>
      cases advances : machine.dialect.advancesIndex <;>
        simp only [execute, loadRegisters, settleIndex, untimed, advances] <;> rfl
  | _ => rfl

/-- Only an instruction that polls looks at the report of held keys. -/
theorem execute_of_not_polls {instruction : Instruction} (unasked : instruction.polls = false)
    (machine : Machine) (report other : List UInt8)
    : machine.execute instruction report = machine.execute instruction other := by
  cases instruction with
  | skipPressed x | skipReleased x | awaitKey x => contradiction
  | _ => rfl

/-- A cycle that reads no timer does the same whatever the timers hold. -/
theorem cycle_untimed {machine : Machine}
    (blind
      : ∀ instruction ∈ (Instruction.decode? machine.ahead).toList,
          instruction.readsTimer = false)
    (report : List UInt8)
    : (machine.untimed.cycle report).untimed = (machine.cycle report).untimed := by
  have ahead : machine.untimed.ahead = machine.ahead := rfl
  cases decodes : Instruction.decode? machine.ahead with
  | none =>
      rw [cycle_of_none report decodes, cycle_of_none report (ahead ▸ decodes)]
      rfl
  | some instruction =>
      rw [cycle_of_some report decodes, cycle_of_some report (ahead ▸ decodes)]
      have executed := execute_untimed (blind instruction (by simp [decodes])) machine.fetch report
      exact congrArg
        (fun turn : Turn =>
          { turn with
            notes :=
              .executing (UInt16.ofNat (machine.pc.toNat % 4096)) instruction :: turn.notes })
        executed

/-- Unless the instruction ahead polls, a cycle does not look at the report of held keys. -/
theorem cycle_of_not_polls {machine : Machine} {report : List UInt8}
    (unasked : .poll ∉ (machine.cycle report).calls) (other : List UInt8)
    : machine.cycle report = machine.cycle other := by
  cases decodes : Instruction.decode? machine.ahead with
  | none => rw [cycle_of_none report decodes, cycle_of_none other decodes]
  | some instruction =>
      have silent : instruction.polls = false := by
        apply Bool.eq_false_iff.mpr
        intro polls
        exact unasked ((machine.poll_mem_cycle report).mpr ⟨instruction, decodes, polls⟩)
      rw [cycle_of_some report decodes, cycle_of_some other decodes,
        execute_of_not_polls silent machine.fetch report other]

/-- Machines that differ in their timers go through a cycle alike, if it reads no timer and the
hosts answer alike where it polls.
-/
theorem cycle_congr {left right : Machine} (same : left.untimed = right.untimed)
    (blind
      : ∀ instruction ∈ (Instruction.decode? left.ahead).toList,
          instruction.readsTimer = false)
    {report other : List UInt8} (asked : .poll ∈ (left.cycle report).calls → report = other)
    : (left.cycle report).untimed = (right.cycle other).untimed := by
  have reports : left.cycle report = left.cycle other := by
    by_cases polls : .poll ∈ (left.cycle report).calls
    · rw [asked polls]
    · exact cycle_of_not_polls polls other
  calc (left.cycle report).untimed
      = (left.cycle other).untimed := by rw [reports]
    _ = (left.untimed.cycle other).untimed := (cycle_untimed blind other).symm
    _ = (right.untimed.cycle other).untimed := by rw [same]
    _ = (right.cycle other).untimed := cycle_untimed (ahead_of_untimed same ▸ blind) other

end Machine

-----------------------------------------------------------------------------------------
-- Two schedules of one sequence of instructions
-----------------------------------------------------------------------------------------

/-- Two schedules have equally many instruction ticks; between those the timers are counted at any
points of either.
-/
inductive SameInstructions : List Tick → List Tick → Prop where
  | nil : SameInstructions [] []
  | instruction {ticks other : List Tick} (rest : SameInstructions ticks other)
      : SameInstructions (.instruction :: ticks) (.instruction :: other)
  | timerLeft {ticks other : List Tick} (rest : SameInstructions ticks other)
      : SameInstructions (.timer :: ticks) other
  | timerRight {ticks other : List Tick} (rest : SameInstructions ticks other)
      : SameInstructions ticks (.timer :: other)

/-- The number of instruction ticks decides, by induction over both schedules: timer ticks at the
front of either are set aside until both start with an instruction.
-/
theorem SameInstructions.of_count {ticks other : List Tick}
    (counts : ticks.count .instruction = other.count .instruction)
    : SameInstructions ticks other := by
  induction ticks generalizing other with
  | nil =>
      induction other with
      | nil => exact .nil
      | cons tick rest ih =>
          cases tick with
          | instruction => simp at counts
          | timer => exact .timerRight (ih counts)
  | cons tick rest ih =>
      cases tick with
      | timer => exact .timerLeft (ih counts)
      | instruction =>
          induction other with
          | nil => simp at counts
          | cons next later inner =>
              cases next with
              | timer => exact .timerRight (inner counts)
              | instruction =>
                  rw [List.count_cons_self, List.count_cons_self] at counts
                  exact .instruction (ih (Nat.succ.inj counts))

/-- Two lists of answers agree on every poll that both answer. -/
def AnswersAgree (left right : List (List UInt8)) : Prop :=
  ∀ (poll : Nat) (answer other : List UInt8),
    left[poll]? = some answer → right[poll]? = some other → answer = other

namespace AnswersAgree

variable {left right : List (List UInt8)} {answer other : List UInt8}

theorem refl (answers : List (List UInt8)) : AnswersAgree answers answers :=
  fun _ _ _ first second => Option.some.inj (first.symm.trans second)

theorem head (h : AnswersAgree (answer :: left) (other :: right)) : answer = other :=
  h 0 answer other rfl rfl

theorem tail (h : AnswersAgree (answer :: left) (other :: right)) : AnswersAgree left right :=
  fun poll => h (poll + 1)

end AnswersAgree

/-- What two runs have in common whose instructions agree: the instructions executed, the outcome
of every instruction tick, all calls but those of the tone, and what is left of the machine
apart from its timers.
-/
structure Console.Agree {σ τ : Type} [Host σ] [Host τ] (left : Console σ) (right : Console τ)
    (ticks other : List Tick)
    : Prop where
  machine : (left.run ticks).machine.untimed = (right.run other).machine.untimed
  executed : left.executed ticks = right.executed other
  turns
    : (left.turnsAt .instruction ticks).map Turn.untimed
      = (right.turnsAt .instruction other).map Turn.untimed
  calls
    : (left.calls ticks).filter (!·.isTone) = (right.calls other).filter (!·.isTone)

namespace Console

variable {σ τ : Type} [Host σ] [Host τ]

theorem untoned_timer (console : Console σ) (rest : List Tick)
    : (console.calls (.timer :: rest)).filter (!·.isTone)
      = ((console.after (console.turn .timer)).calls rest).filter (!·.isTone) := by
  have dropped : (console.turn .timer).calls.filter (!·.isTone) = [] := by
    apply List.filter_eq_nil_iff.mpr
    intro call made
    simp [Machine.isTone_of_mem_countDown made]
  rw [calls_cons, List.filter_append, dropped, List.nil_append]

namespace Agree

variable {left : Console σ} {right : Console τ} {ticks other : List Tick}

/-- Instructions at the front of both runs that come out alike are something more in common. -/
theorem instruction (first : (left.turn .instruction).untimed = (right.turn .instruction).untimed)
    (rest
      : Agree (left.after (left.turn .instruction)) (right.after (right.turn .instruction))
          ticks other)
    : Agree left right (.instruction :: ticks) (.instruction :: other) where
  machine := rest.machine
  executed := by
    have untimed := congrArg Turn.executed? first
    have executed : (left.turn .instruction).executed? = (right.turn .instruction).executed? :=
      untimed
    rw [executed_cons, executed_cons, executed, rest.executed]
  turns := List.cons_eq_cons.mpr ⟨first, rest.turns⟩
  calls := by
    have untimed := congrArg Turn.calls first
    have calls : (left.turn .instruction).calls = (right.turn .instruction).calls := untimed
    rw [calls_cons, calls_cons, List.filter_append, List.filter_append, calls, rest.calls]

theorem timerLeft (rest : Agree (left.after (left.turn .timer)) right ticks other)
    : Agree left right (.timer :: ticks) other where
  machine := rest.machine
  executed := rest.executed
  turns := rest.turns
  calls := by rw [untoned_timer, rest.calls]

theorem timerRight (rest : Agree left (right.after (right.turn .timer)) ticks other)
    : Agree left right ticks (.timer :: other) where
  machine := rest.machine
  executed := rest.executed
  turns := rest.turns
  calls := by rw [untoned_timer, rest.calls]

end Agree

/-- Two runs of machines that differ in their timers have everything but the timers in common, if
no instruction of the first reads a timer and the hosts answer alike. By induction over the
two schedules: instructions are taken together, and a count of the timers on one side leaves
the machines equal apart from the timers.
-/
theorem agree_of_blind {left : Console σ} {right : Console τ} {ticks other : List Tick}
    (schedules : SameInstructions ticks other)
    (same : left.machine.untimed = right.machine.untimed)
    (answers : AnswersAgree (left.answers ticks) (right.answers other))
    (blind : ∀ instruction ∈ left.executed ticks, instruction.readsTimer = false)
    : Agree left right ticks other := by
  induction schedules generalizing left right with
  | nil => exact ⟨same, rfl, rfl, rfl⟩
  | timerLeft rest ih =>
      have counted : (left.after (left.turn .timer)).machine.untimed = right.machine.untimed :=
        left.machine.untimed_countDown.trans same
      rw [answers_timer] at answers
      exact (ih counted answers blind).timerLeft
  | timerRight rest ih =>
      have counted : left.machine.untimed = (right.after (right.turn .timer)).machine.untimed :=
        same.trans right.machine.untimed_countDown.symm
      rw [answers_timer] at answers
      exact (ih counted answers blind).timerRight
  | @instruction ticks other rest ih =>
      rw [executed_instruction] at blind
      obtain ⟨first, later⟩ := List.forall_mem_append.mp blind
      -- The same instruction is ahead of both, so both poll or neither does.
      have polls : .poll ∈ (left.turn .instruction).calls
          ↔ .poll ∈ (right.turn .instruction).calls := by
        rw [turn, turn, Machine.poll_mem_cycle, Machine.poll_mem_cycle,
          Machine.ahead_of_untimed same]
      rw [Console.answers, Console.answers] at answers
      by_cases asked : .poll ∈ (left.turn .instruction).calls
      · rw [if_pos asked, if_pos (polls.mp asked)] at answers
        have alike : (left.turn .instruction).untimed = (right.turn .instruction).untimed :=
          Machine.cycle_congr same first fun _ => answers.head
        exact .instruction alike (ih (congrArg Turn.machine alike) answers.tail later)
      · rw [if_neg asked, if_neg (asked ∘ polls.mpr)] at answers
        have alike : (left.turn .instruction).untimed = (right.turn .instruction).untimed :=
          Machine.cycle_congr same first fun polled => absurd polled asked
        exact .instruction alike (ih (congrArg Turn.machine alike) answers later)

/-- In runs that copy nothing to a timer, the machines agree on the timers after equally many
counts from equal values, and so do the tone commands.
-/
theorem Agree.of_unset {left : Console σ} {right : Console τ} {ticks other : List Tick}
    (agree : Agree left right ticks other) (same : left.machine = right.machine)
    (counts : ticks.count .timer = other.count .timer)
    (unset
      : ∀ instruction ∈ left.executed ticks, ∀ timer, instruction.source? timer = none)
    : (left.run ticks).machine = (right.run other).machine
      ∧ left.tones ticks = right.tones other := by
  have unsetRight
      : ∀ instruction ∈ right.executed other, ∀ timer, instruction.source? timer = none :=
    agree.executed ▸ unset
  constructor
  · apply Machine.eq_of_untimed agree.machine
    intro timer
    apply UInt8.toNat_inj.mp
    rw [timer_run_of_unset fun instruction listed => unset instruction listed timer,
      timer_run_of_unset fun instruction listed => unsetRight instruction listed timer, same,
      counts]
  · rw [tones_of_unset fun instruction listed => unset instruction listed .sound,
      tones_of_unset fun instruction listed => unsetRight instruction listed .sound, same,
      counts]

end Console

/-- Two runs from one machine with equally many instruction ticks and the same answers to their
polls come out alike at every instruction tick, and show the same frames and poll alike, if no
instruction of the first reads a timer: fault, calls, and all of the machine but the timers are
the same after each, wherever and however often the timers are counted. If moreover none sets a
timer and the timers are counted equally often, the whole machines agree in the end and so do
all tone commands.
-/
theorem counting_points_matter_to_timer_instructions {σ τ : Type} [Host σ] [Host τ]
    {left : Console σ} {right : Console τ} (same : left.machine = right.machine)
    {ticks other : List Tick}
    (instructions : ticks.count .instruction = other.count .instruction)
    (answers : AnswersAgree (left.answers ticks) (right.answers other))
    (blind : ∀ instruction ∈ left.executed ticks, instruction.readsTimer = false)
    : (left.turnsAt .instruction ticks).map Turn.untimed
        = (right.turnsAt .instruction other).map Turn.untimed
      ∧ (left.calls ticks).filter (!·.isTone) = (right.calls other).filter (!·.isTone)
      ∧ ((∀ instruction ∈ left.executed ticks, ∀ timer, instruction.source? timer = none)
        → ticks.count .timer = other.count .timer
        → (left.run ticks).machine = (right.run other).machine
          ∧ left.tones ticks = right.tones other) := by
  have agree : Console.Agree left right ticks other :=
    Console.agree_of_blind (.of_count instructions) (congrArg Machine.untimed same) answers blind
  exact ⟨agree.turns, agree.calls, fun unset counts => agree.of_unset same counts unset⟩

/-- A key is awaited and a glyph drawn while both timers run out, before a script and before a
handoff.
-/
theorem late_counts_come_out_alike
    : let machine : Machine :=
        { Machine.boot #[0xF1, 0x0A, 0xD0, 0x05] .modern (.ofSeed 0) with
          delayTimer := 1, soundTimer := 2 }
      let left : Console Script := ⟨machine, .holding [0x3]⟩
      let right : Console Handoff := ⟨machine, Handoff.fresh.setKey 0x3 true⟩
      (left.turnsAt .instruction [.timer, .instruction, .timer, .instruction]).map Turn.untimed
          = (right.turnsAt .instruction [.instruction, .instruction, .timer, .timer]).map
              Turn.untimed
        ∧ (left.run [.timer, .instruction, .timer, .instruction]).machine
          = (right.run [.instruction, .instruction, .timer, .timer]).machine
        ∧ left.tones [.timer, .instruction, .timer, .instruction]
          = right.tones [.instruction, .instruction, .timer, .timer] := by
  intro machine left right
  have executed : left.executed [.timer, .instruction, .timer, .instruction]
      = [.awaitKey 1, .draw 0 0 5] := by
    decide +kernel
  have answers : left.answers [.timer, .instruction, .timer, .instruction]
      = right.answers [.instruction, .instruction, .timer, .timer] := by
    decide +kernel
  have blind
      : ∀ instruction ∈ left.executed [.timer, .instruction, .timer, .instruction],
          instruction.readsTimer = false := by
    rw [executed]
    decide
  have unset
      : ∀ instruction ∈ left.executed [.timer, .instruction, .timer, .instruction],
          ∀ timer, instruction.source? timer = none := by
    rw [executed]
    intro instruction listed timer
    cases timer <;> revert instruction <;> decide
  have same : left.machine = right.machine := rfl
  have agree
      : AnswersAgree (left.answers [.timer, .instruction, .timer, .instruction])
          (right.answers [.instruction, .instruction, .timer, .timer]) := by
    rw [answers]
    exact .refl _
  obtain ⟨turns, _, whole⟩ :=
    counting_points_matter_to_timer_instructions same (by decide) agree blind
  exact ⟨turns, whole unset (by decide)⟩

end Chip8
