import Chip8.Host.Script
import Chip8.Proofs.History

/-! How far a dialect reaches: each of its rules is looked at by few instructions, so two machines
that differ in their dialects alone go on alike until an instruction looks at a rule on which
these disagree.
-/

namespace Chip8

-----------------------------------------------------------------------------------------
-- Machines that differ in their dialects alone
-----------------------------------------------------------------------------------------

/-- The machine as it were if it followed another dialect. -/
def Machine.following (machine : Machine) (dialect : Dialect) : Machine :=
  { machine with dialect := dialect }

/-- The turn as it were if its machine followed another dialect; fault, calls and notes are the
same.
-/
def Turn.following (turn : Turn) (dialect : Dialect) : Turn :=
  { turn with machine := turn.machine.following dialect }

def Console.following {σ : Type} (console : Console σ) (dialect : Dialect) : Console σ :=
  { console with machine := console.machine.following dialect }

namespace Instruction

/-- The rule of a dialect that an instruction looks at; most look at none. -/
def rule? : Instruction → Option (Dialect → Bool)
  | alu _ _ .shiftRight | alu _ _ .shiftLeft => some Dialect.shiftsSecond
  | jumpOffset _ => some Dialect.offsetByDigit
  | addIndex _ => some Dialect.keepsFlagOnIndexAdd
  | store _ | load _ => some Dialect.advancesIndex
  | _ => none

/-- Two dialects agree on the rule that an instruction looks at, if it looks at one. -/
def SameRule (instruction : Instruction) (first second : Dialect) : Prop :=
  ∀ rule, instruction.rule? = some rule → rule first = rule second

instance (instruction : Instruction) (first second : Dialect)
    : Decidable (instruction.SameRule first second) :=
  match found : instruction.rule? with
  | none => isTrue (by simp [SameRule, found])
  | some rule =>
      decidable_of_iff (rule first = rule second) (by simp [SameRule, found])

end Instruction

-----------------------------------------------------------------------------------------
-- One tick
-----------------------------------------------------------------------------------------

namespace Machine

theorem skipWhen_following (machine : Machine) (dialect : Dialect) (condition : Bool)
    : (machine.following dialect).skipWhen condition
      = (machine.skipWhen condition).following dialect := by
  cases condition <;> rfl

/-- An instruction does the same in two dialects that agree on its rule, by cases over the
instruction set.
-/
theorem execute_following {instruction : Instruction} {machine : Machine} {dialect : Dialect}
    (same : instruction.SameRule machine.dialect dialect) (report : List UInt8)
    : (machine.following dialect).execute instruction report
      = (machine.execute instruction report).following dialect := by
  cases instruction with
  | ret =>
      have stack : (machine.following dialect).stack = machine.stack := rfl
      simp only [execute, stack]
      cases machine.stack <;> rfl
  | skipEqualByte x nn | skipUnequalByte x nn | skipEqual x y | skipUnequal x y =>
      exact congrArg (Turn.mk · [] [] none) (machine.skipWhen_following dialect _)
  | skipPressed x | skipReleased x =>
      exact congrArg (Turn.mk · _ _ none) (machine.skipWhen_following dialect _)
  | alu x y op =>
      cases op with
      | shiftRight | shiftLeft =>
          have rule : machine.dialect.shiftsSecond = dialect.shiftsSecond := same _ rfl
          simp only [execute, applyAlu, following, ← rule]
          rfl
      | _ => rfl
  | jumpOffset nnn =>
      have rule : machine.dialect.offsetByDigit = dialect.offsetByDigit := same _ rfl
      simp only [execute, offsetRegister, following, ← rule]
      rfl
  | addIndex x =>
      have rule : machine.dialect.keepsFlagOnIndexAdd = dialect.keepsFlagOnIndexAdd :=
        same _ rfl
      simp only [execute, advanceIndex, following, ← rule]
      split <;> rfl
  | awaitKey x =>
      simp only [execute]
      cases Keypad.held report <;> rfl
  | store x | load x =>
      have rule : machine.dialect.advancesIndex = dialect.advancesIndex := same _ rfl
      simp only [execute, storeRegisters, loadRegisters, settleIndex, following, ← rule]
      split <;> rfl
  | _ => rfl

/-- A cycle does the same in two dialects that agree on the rule of the instruction ahead. -/
theorem cycle_following {machine : Machine} {dialect : Dialect}
    (same
      : ∀ instruction ∈ (Instruction.decode? machine.ahead).toList,
          instruction.SameRule machine.dialect dialect)
    (report : List UInt8)
    : (machine.following dialect).cycle report = (machine.cycle report).following dialect := by
  have ahead : (machine.following dialect).ahead = machine.ahead := rfl
  cases decodes : Instruction.decode? machine.ahead with
  | none =>
      rw [cycle_of_none report decodes, cycle_of_none report (ahead ▸ decodes)]
      rfl
  | some instruction =>
      rw [cycle_of_some report decodes, cycle_of_some report (ahead ▸ decodes)]
      have rule : instruction.SameRule machine.fetch.dialect dialect :=
        same instruction (by simp [decodes])
      have executed := execute_following rule report
      exact congrArg
        (fun turn : Turn =>
          { turn with
            notes :=
              .executing (UInt16.ofNat (machine.pc.toNat % 4096)) instruction :: turn.notes })
        executed

theorem cycle_dialect (machine : Machine) (report : List UInt8)
    : (machine.cycle report).machine.dialect = machine.dialect := by
  rw [machine_cycle]
  cases Instruction.decode? machine.ahead with
  | none => rfl
  | some instruction => exact machine.fetch.execute_dialect instruction report

end Machine

-----------------------------------------------------------------------------------------
-- Runs
-----------------------------------------------------------------------------------------

namespace Console

variable {σ : Type} [Host σ]

/-- A machine keeps its dialect, by induction over the ticks. -/
theorem dialect_run (console : Console σ) (ticks : List Tick)
    : (console.run ticks).machine.dialect = console.machine.dialect := by
  induction ticks generalizing console with
  | nil => rfl
  | cons tick rest ih =>
      rw [run_cons, ih]
      cases tick with
      | instruction => exact console.machine.cycle_dialect _
      | timer => rfl

/-- Runs in two dialects go through the same turns as long as these agree on the rules of the
instructions executed. By induction over the ticks: equal calls leave the hosts in one state, so
the next tick meets machines again that differ in their dialects alone.
-/
theorem turns_following {console : Console σ} {dialect : Dialect} {ticks : List Tick}
    (same
      : ∀ instruction ∈ console.executed ticks,
          instruction.SameRule console.machine.dialect dialect)
    : (console.following dialect).turns ticks
        = (console.turns ticks).map (Turn.following · dialect)
      ∧ (console.following dialect).run ticks = (console.run ticks).following dialect := by
  induction ticks generalizing console with
  | nil => exact ⟨rfl, rfl⟩
  | cons tick rest ih =>
      have alike : (console.following dialect).turn tick
          = (console.turn tick).following dialect := by
        cases tick with
        | timer => rfl
        | instruction =>
            rw [executed_instruction] at same
            exact Machine.cycle_following (List.forall_mem_append.mp same).1 _
      have kept : (console.after (console.turn tick)).machine.dialect
          = console.machine.dialect :=
        console.dialect_run [tick]
      have later
          : ∀ instruction ∈ (console.after (console.turn tick)).executed rest,
              instruction.SameRule (console.after (console.turn tick)).machine.dialect
                dialect := by
        rw [executed_cons] at same
        rw [kept]
        exact (List.forall_mem_append.mp same).2
      obtain ⟨turns, run⟩ := ih later
      rw [turns_cons, turns_cons, run_cons, run_cons, alike]
      exact ⟨List.cons_eq_cons.mpr ⟨rfl, turns⟩, run⟩

end Console

/-- A program is loaded or refused alike in any two dialects. A machine keeps its dialect along every
run. In another dialect it goes through the same run, fault for fault, call for call and note for
note, and every machine on the way is the same but for its dialect, as long as no instruction is
executed that looks at a rule on which the two dialects disagree: shifting looks at one rule,
jumping with offset at one, adding to the index register at one, and storing or loading registers
at one.
-/
theorem dialects_differ_in_their_rules {σ : Type} [Host σ]
    : (∀ program first second random,
        Machine.load program second random
        = (Machine.load program first random).map (Machine.following · second))
      ∧ ∀ (console : Console σ) (ticks : List Tick),
          (console.run ticks).machine.dialect = console.machine.dialect
          ∧ ∀ dialect,
              (∀ instruction ∈ console.executed ticks,
                instruction.SameRule console.machine.dialect dialect)
              → (console.following dialect).turns ticks
                  = (console.turns ticks).map (Turn.following · dialect)
                ∧ (console.following dialect).run ticks
                  = (console.run ticks).following dialect := by
  constructor
  · intro program first second random
    rw [Machine.load, Machine.load]
    split <;> rfl
  · intro console ticks
    exact ⟨console.dialect_run ticks, fun dialect same => Console.turns_following same⟩

/-- Registers are stored alike where both dialects leave the index register; the shift behind it tells
them apart.
-/
theorem shift_tells_dialects_apart
    : ∃ machine,
        Machine.load #[0x60, 0x05, 0x61, 0x02, 0xC2, 0xFF, 0xF1, 0x55, 0x80, 0x16] .modern
            (.ofSeed 0)
          = .ok machine
        ∧ let console : Console Script := ⟨machine, .holding []⟩
          let ticks : List Tick :=
            [.instruction, .instruction, .timer, .instruction, .instruction]
          (console.following .superChip).turns ticks
              = (console.turns ticks).map (Turn.following · .superChip)
            ∧ ((console.run ticks).turn .instruction).machine.register 0 = 1
            ∧ (((console.following .superChip).run ticks).turn .instruction).machine.register 0
              = 2 := by
  let console : Console Script :=
    ⟨.boot #[0x60, 0x05, 0x61, 0x02, 0xC2, 0xFF, 0xF1, 0x55, 0x80, 0x16] .modern (.ofSeed 0),
      .holding []⟩
  let ticks : List Tick := [.instruction, .instruction, .timer, .instruction, .instruction]
  have executed : console.executed ticks
      = [.setByte 0 0x05, .setByte 1 0x02, .random 2 0xFF, .store 1] := by
    decide +kernel
  have same
      : ∀ instruction ∈ console.executed ticks,
          instruction.SameRule console.machine.dialect .superChip := by
    rw [executed]
    decide
  obtain ⟨turns, _⟩ := (dialects_differ_in_their_rules.2 console ticks).2 .superChip same
  exact ⟨_, rfl, turns, by decide +kernel, by decide +kernel⟩

end Chip8
