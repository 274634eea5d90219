import Chip8.Host.Script
import Chip8.Proofs.History

/-! What the timers hold and when the tone sounds, told by the history of a run: by the value that
was copied to a timer last and by how often the timers were counted since.
-/

namespace Chip8

-----------------------------------------------------------------------------------------
-- One tick
-----------------------------------------------------------------------------------------

namespace Machine

/-- A cycle sets a timer exactly if the instruction ahead copies a register to it. -/
theorem cycle_timer (machine : Machine) (report : List UInt8) (timer : Timer)
    : (machine.cycle report).machine.timer timer
      = ((Instruction.decode? machine.ahead).bind (Instruction.source? timer)).elim
          (machine.timer timer) machine.register := by
  rw [machine_cycle]
  cases Instruction.decode? machine.ahead with
  | none => cases timer <;> rfl
  | some instruction =>
      rw [Option.elim_some, execute_timer]
      cases timer <;> rfl

theorem toNat_oneLess (byte : UInt8) : (oneLess byte).toNat = byte.toNat - 1 := by
  rw [oneLess]
  split
  · rename_i zero
    rw [zero]
    rfl
  · rename_i positive
    have bound : 1 ≤ byte := by
      rw [UInt8.le_iff_toNat_le]
      exact Nat.one_le_iff_ne_zero.mpr fun zero => positive (UInt8.toNat_inj.mp zero)
    rw [UInt8.toNat_sub_of_le _ _ bound]
    rfl

theorem countDown_timer (machine : Machine) (timer : Timer)
    : (machine.countDown.machine.timer timer).toNat = (machine.timer timer).toNat - 1 := by
  cases timer with
  | delay => exact toNat_oneLess machine.delayTimer
  | sound => exact toNat_oneLess machine.soundTimer

end Machine

-----------------------------------------------------------------------------------------
-- Stretches in which nothing is copied to a timer
-----------------------------------------------------------------------------------------

namespace Console

variable {σ : Type} [Host σ] {console : Console σ} {timer : Timer} {ticks : List Tick}

/-- An instruction tick that copies nothing to a timer leaves it alone. -/
theorem timer_turn_of_unset
    (unset
      : ∀ instruction ∈ (Instruction.decode? console.machine.ahead).toList,
          instruction.source? timer = none)
    : (console.turn .instruction).machine.timer timer = console.machine.timer timer := by
  rw [turn, Machine.cycle_timer]
  cases decodes : Instruction.decode? console.machine.ahead with
  | none => rfl
  | some instruction => simp [unset instruction (by simp [decodes])]

/-- While nothing is copied to a timer it counts down to zero and stays there, by induction over
the ticks: an instruction leaves it alone, a count takes one from it.
-/
theorem timer_run_of_unset
    (unset : ∀ instruction ∈ console.executed ticks, instruction.source? timer = none)
    : ((console.run ticks).machine.timer timer).toNat
      = (console.machine.timer timer).toNat - ticks.count .timer := by
  induction ticks generalizing console with
  | nil => rfl
  | cons tick rest ih =>
      cases tick with
      | instruction =>
          rw [executed_instruction] at unset
          obtain ⟨first, later⟩ := List.forall_mem_append.mp unset
          rw [run_cons, ih later, after, timer_turn_of_unset first]
          rfl
      | timer =>
          rw [executed_timer] at unset
          have counted := console.machine.countDown_timer timer
          rw [run_cons, ih unset, after, turn, counted, List.count_cons_self]
          omega

/-- While nothing is copied to the sound timer the tone is switched on at every count that leaves
the timer running, and off at every count after those. By induction over the ticks; a count
that finds the timer at one already switches off.
-/
theorem tones_of_unset
    (unset : ∀ instruction ∈ console.executed ticks, instruction.source? .sound = none)
    : console.tones ticks
      = List.replicate (min (ticks.count .timer) (console.machine.soundTimer.toNat - 1))
          .startTone
        ++ List.replicate (ticks.count .timer - (console.machine.soundTimer.toNat - 1))
            .stopTone := by
  induction ticks generalizing console with
  | nil => simp [tones, calls, turns, turnsBy]
  | cons tick rest ih =>
      cases tick with
      | instruction =>
          rw [executed_instruction] at unset
          obtain ⟨first, later⟩ := List.forall_mem_append.mp unset
          have kept : (console.turn .instruction).machine.soundTimer
              = console.machine.soundTimer :=
            timer_turn_of_unset first
          rw [tones_instruction, ih later, after, kept]
          rfl
      | timer =>
          rw [executed_timer] at unset
          have counted := console.machine.countDown_timer .sound
          have silent : console.machine.countDown.machine.soundTimer = 0
              ↔ console.machine.countDown.machine.soundTimer.toNat = 0 :=
            UInt8.toNat_inj.symm
          simp only [Machine.timer] at counted
          rw [tones_timer, ih unset, after, turn, Machine.calls_countDown,
            List.count_cons_self]
          simp only [silent, counted]
          generalize console.machine.soundTimer.toNat = sound
          generalize List.count Tick.timer rest = counts
          -- The count comes first: a timer at one is zero when it is looked at.
          by_cases sounds : sound - 1 = 0
          · simp [sounds, List.replicate_succ]
          · have before : min (counts + 1) (sound - 1) = min counts (sound - 1 - 1) + 1 := by
              omega
            have behind : counts + 1 - (sound - 1) = counts - (sound - 1 - 1) := by omega
            rw [if_neg sounds, before, behind, List.replicate_succ]
            rfl

-----------------------------------------------------------------------------------------
-- What was copied last
-----------------------------------------------------------------------------------------

/-- The value that a timer was set to last along a run and how often the timers were counted
since; if it never was, zero and all the counts of the run.
-/
inductive LastCopied (console : Console σ) (timer : Timer) (ticks : List Tick)
    : UInt8 → Nat → Prop where
  | never
      (unset : ∀ instruction ∈ console.executed ticks, instruction.source? timer = none)
      : LastCopied console timer ticks 0 (ticks.count .timer)
  | at (before since : List Tick) (instruction : Instruction) (x : Nibble)
      (split : ticks = before ++ .instruction :: since)
      (executes : ((console.run before).turn .instruction).executed? = some instruction)
      (copies : instruction.source? timer = some x)
      (unset
        : ∀ later ∈ (console.run (before ++ [.instruction])).executed since,
            later.source? timer = none)
      : LastCopied console timer ticks ((console.run before).machine.register x)
          (since.count .timer)

/-- An instruction that copies a register to a timer leaves it with what the register holds. -/
theorem timer_of_copies {before : List Tick} {instruction : Instruction} {x : Nibble}
    (executes : ((console.run before).turn .instruction).executed? = some instruction)
    (copies : instruction.source? timer = some x)
    : (console.run (before ++ [.instruction])).machine.timer timer
      = (console.run before).machine.register x := by
  rw [executed?_turn] at executes
  have cycled :=
    (console.run before).machine.cycle_timer (Host.pressedKeys (console.run before).host) timer
  rw [executes, Option.bind_some, copies] at cycled
  rw [run_append]
  exact cycled

/-- Every run has a last copy or none, by induction over its ticks from the end of the history
backwards: an instruction is the last copy if no later one is and it copies itself.
-/
theorem lastCopied_total (console : Console σ) (timer : Timer) (ticks : List Tick)
    : ∃ copied counted, console.LastCopied timer ticks copied counted := by
  induction ticks generalizing console with
  | nil => exact ⟨_, _, .never (by simp [executed, turns, turnsBy])⟩
  | cons tick rest ih =>
      obtain ⟨_, _, last⟩ := ih (console.after (console.turn tick))
      cases last with
      | «at» before since instruction x split executes copies unset =>
          exact ⟨_, _, .at (tick :: before) since instruction x
            (congrArg (tick :: ·) split) executes copies unset⟩
      | never unset =>
          cases tick with
          | timer => exact ⟨_, _, .never unset⟩
          | instruction =>
              cases decodes : Instruction.decode? console.machine.ahead with
              | none =>
                  refine ⟨_, _, .never ?_⟩
                  rw [executed_instruction, decodes]
                  exact unset
              | some instruction =>
                  cases copies : instruction.source? timer with
                  | none =>
                      refine ⟨_, _, .never ?_⟩
                      rw [executed_instruction, decodes]
                      exact List.forall_mem_cons.mpr ⟨copies, unset⟩
                  | some x =>
                      refine ⟨_, _, .at [] rest instruction x rfl ?_ copies unset⟩
                      exact console.executed?_turn.trans decodes

/-- The timer is what was copied to it last less the counts since. Before anything was copied it
has only counted down from zero.
-/
theorem timer_of_lastCopied {copied : UInt8} {counted : Nat}
    (zero : console.machine.timer timer = 0)
    (last : console.LastCopied timer ticks copied counted)
    : ((console.run ticks).machine.timer timer).toNat = copied.toNat - counted := by
  cases last with
  | never unset => rw [timer_run_of_unset unset, zero]
  | «at» before since instruction x split executes copies unset =>
      have joined : ticks = (before ++ [.instruction]) ++ since := by
        rw [split, List.append_assoc]
        rfl
      rw [joined, run_append, timer_run_of_unset unset, timer_of_copies executes copies]

/-- The tone commands of a run are those of its timer ticks, one each, by induction over the ticks.
-/
theorem tones_eq (console : Console σ) (ticks : List Tick)
    : console.tones ticks
      = (console.turnsAt .timer ticks).map fun turn =>
          if turn.machine.soundTimer = 0 then .stopTone else .startTone := by
  induction ticks generalizing console with
  | nil => rfl
  | cons tick rest ih =>
      cases tick with
      | instruction =>
          rw [tones_instruction, ih]
          rfl
      | timer =>
          rw [tones_timer, ih, turn, Machine.calls_countDown]
          rfl

end Console

-----------------------------------------------------------------------------------------
-- Timers and tone along every run of a loaded machine
-----------------------------------------------------------------------------------------

/-- Along every run of a freshly loaded machine each timer holds what was copied to it last less
the counts since, never less than zero, and there is always such a last copy or none. Every
timer tick makes one tone command, which is a start exactly if the sound timer runs after the
count, and no instruction makes any. So a value copied to the sound timer is followed, if the
counts reach it before the next copy, by one start less than the value and then by stops only.
-/
theorem timers_follow_their_copies {σ : Type} [Host σ] {program : Array UInt8}
    {dialect : Dialect} {random : Generator} {console : Console σ}
    (loads : Machine.load program dialect random = .ok console.machine) (ticks : List Tick)
    : (∀ timer,
        (∃ copied counted, console.LastCopied timer ticks copied counted)
        ∧ ∀ copied counted,
            console.LastCopied timer ticks copied counted
            → ((console.run ticks).machine.timer timer).toNat = copied.toNat - counted)
      ∧ (console.turnsAt .timer ticks).length = ticks.count .timer
      ∧ console.tones ticks
        = ((console.turnsAt .timer ticks).map fun turn =>
            if turn.machine.soundTimer = 0 then .stopTone else .startTone)
      ∧ (∀ turn ∈ console.turnsAt .instruction ticks, ∀ call ∈ turn.calls, call.isTone = false)
      ∧ ∀ before since instruction x,
          ticks = before ++ .instruction :: since
          → ((console.run before).turn .instruction).executed? = some instruction
          → instruction.source? .sound = some x
          → (∀ later ∈ (console.run (before ++ [.instruction])).executed since,
              later.source? .sound = none)
          → ((console.run before).machine.register x).toNat ≤ since.count .timer
          → (console.run (before ++ [.instruction])).tones since
            = List.replicate (((console.run before).machine.register x).toNat - 1) .startTone
              ++ List.replicate
                  (since.count .timer - (((console.run before).machine.register x).toNat - 1))
                  .stopTone := by
  obtain ⟨_, booted⟩ := Machine.load_eq_ok_iff.mp loads
  have zero (timer : Timer) : console.machine.timer timer = 0 := by
    rw [booted]
    cases timer <;> rfl
  refine ⟨fun timer => ⟨console.lastCopied_total timer ticks, fun copied counted last => ?_⟩,
    console.length_turnsAt .timer ticks, console.tones_eq ticks,
    fun turn led call made => Console.isTone_of_mem_turnsAt led made, ?_⟩
  · exact Console.timer_of_lastCopied (zero timer) last
  · intro before since instruction x _ executes copies unset reached
    have set : (console.run (before ++ [.instruction])).machine.soundTimer
        = (console.run before).machine.register x :=
      Console.timer_of_copies executes copies
    have starts : min (since.count .timer)
        (((console.run before).machine.register x).toNat - 1)
        = ((console.run before).machine.register x).toNat - 1 := by
      omega
    rw [Console.tones_of_unset unset, set, starts]

/-- Three copied to the sound timer sounds for two counts, with a fault in between. -/
theorem three_counts_sound_twice
    : ∃ machine,
        Machine.load #[0x60, 0x03, 0xF0, 0x18] .modern (.ofSeed 0) = .ok machine
        ∧ let console : Console Script := ⟨machine, .holding []⟩
          (((console.run [.instruction, .instruction, .timer, .timer, .instruction,
              .timer]).machine.timer .sound).toNat
            = 3 - 3)
          ∧ (console.run ([.instruction] ++ [.instruction])).tones
              [.timer, .timer, .instruction, .timer]
            = [.startTone, .startTone, .stopTone] := by
  refine ⟨_, rfl, ?_⟩
  let console : Console Script :=
    ⟨.boot #[0x60, 0x03, 0xF0, 0x18] .modern (.ofSeed 0), .holding []⟩
  have executes : ((console.run [.instruction]).turn .instruction).executed?
      = some (.setSound 0) := by
    decide +kernel
  have holds : (console.run [.instruction]).machine.register 0 = 3 := by
    decide +kernel
  have unset
      : ∀ later ∈ (console.run ([.instruction] ++ [.instruction])).executed
          [.timer, .timer, .instruction, .timer],
          later.source? .sound = none := by
    decide +kernel
  have loads : Machine.load #[0x60, 0x03, 0xF0, 0x18] .modern (.ofSeed 0)
      = .ok console.machine :=
    rfl
  obtain ⟨values, _, _, _, tones⟩ := timers_follow_their_copies loads
    [.instruction, .instruction, .timer, .timer, .instruction, .timer]
  have last : console.LastCopied .sound
      [.instruction, .instruction, .timer, .timer, .instruction, .timer]
      ((console.run [.instruction]).machine.register 0) 3 :=
    .at [.instruction] [.timer, .timer, .instruction, .timer] _ _ rfl executes rfl unset
  have value := (values .sound).2 _ _ last
  have sounds := tones [.instruction] _ _ _ rfl executes rfl unset (by rw [holds]; decide)
  rw [holds] at value sounds
  exact ⟨value, sounds⟩

end Chip8
