import Chip8.Proofs.ForeignKeys
import Chip8.Proofs.KeyWait
import Chip8.Proofs.TimerPlacement

/-! The order in which held keys are reported. The tests for a key do not look at it; an instruction
that awaits a key takes the first one, so there the order decides what the register holds.
-/

namespace Chip8

theorem Keypad.isHeld_of_perm {report other : List UInt8} (same : report.Perm other)
    (key : UInt8)
    : isHeld report key = isHeld other key := by
  rw [isHeld_eq, isHeld_eq, same.contains_eq]

namespace Machine

theorem hushed_polling (machine : Machine) (report : List UInt8)
    : (Turn.polling report machine).hushed = { machine := machine, calls := [.poll] } := by
  rw [← polling_known, Turn.polling, Keypad.foreign_known]
  rfl

/-- An instruction does the same whatever the order of the report, if the first key is the same
where it awaits one. By cases over the instructions that poll.
-/
theorem execute_of_perm {report other : List UInt8} (same : report.Perm other)
    {instruction : Instruction}
    (first : ∀ x, instruction = .awaitKey x → Keypad.first? report = Keypad.first? other)
    (machine : Machine)
    : (machine.execute instruction report).hushed
      = (machine.execute instruction other).hushed := by
  cases instruction with
  | awaitKey x => simp only [execute, hushed_polling, takeKey_held, first x rfl]
  | skipPressed x | skipReleased x =>
      simp only [execute, hushed_polling, Keypad.isHeld_of_perm same]
  | _ => exact congrArg Turn.hushed (execute_of_not_polls rfl machine report other)

theorem cycle_of_perm {machine : Machine} {report other : List UInt8}
    (same : report.Perm other)
    (first
      : ∀ x,
          Instruction.decode? machine.ahead = some (.awaitKey x)
          → Keypad.first? report = Keypad.first? other)
    : (machine.cycle report).hushed = (machine.cycle other).hushed := by
  cases decodes : Instruction.decode? machine.ahead with
  | none => rw [cycle_of_none report decodes, cycle_of_none other decodes]
  | some instruction =>
      have executed :=
        execute_of_perm same (fun x awaits => first x (awaits ▸ decodes)) machine.fetch
      rw [cycle_of_some report decodes, cycle_of_some other decodes]
      exact congrArg
        (fun turn : Turn =>
          { turn with
            notes :=
              .executing (UInt16.ofNat (machine.pc.toNat % 4096)) instruction :: turn.notes })
        executed

/-- A machine that awaits a key tells any two reports apart whose first keys differ: it goes on if
there is one, and the register holds it.
-/
theorem first?_eq_of_cycle_awaitKey {machine : Machine} {x : Nibble}
    (awaits : Instruction.decode? machine.ahead = some (.awaitKey x)) {report other : List UInt8}
    (alike : (machine.cycle report).machine = (machine.cycle other).machine)
    : Keypad.first? report = Keypad.first? other := by
  have moves : machine.pc ≠ machine.pc + 2 := by
    intro still
    have numbers := congrArg UInt16.toNat still
    have bound := machine.pc.toNat_lt
    rw [UInt16.toNat_add] at numbers
    simp only [UInt16.reduceToNat] at numbers
    omega
  have holds (key : UInt8) : (replaceAt machine.v x key).get x = key :=
    Vector.getElem_set_self x.isLt
  rw [machine_cycle_awaitKey awaits, machine_cycle_awaitKey awaits] at alike
  cases first : Keypad.first? report with
  | none =>
      cases second : Keypad.first? other with
      | none => rfl
      | some key =>
          rw [first, second] at alike
          exact absurd (congrArg Machine.pc alike) moves
  | some key =>
      cases second : Keypad.first? other with
      | none =>
          rw [first, second] at alike
          exact absurd (congrArg Machine.pc alike).symm moves
      | some later =>
          rw [first, second] at alike
          have registers
              : (replaceAt machine.v x key).get x = (replaceAt machine.v x later).get x :=
            congrArg (·.register x) alike
          rw [holds, holds] at registers
          rw [registers]

end Machine

/-- Whether an instruction was executed that awaits a key. -/
def Turn.awaits (turn : Turn) : Bool :=
  match turn.executed? with
  | some (.awaitKey _) => true
  | _ => false

namespace Console

variable {σ τ : Type} [Host σ] [Host τ]

/-- The reports that instructions which await a key are told, in order. -/
def awaited (console : Console σ) : List Tick → List (List UInt8)
  | [] => []
  | tick :: rest =>
      let later := (console.after (console.turn tick)).awaited rest
      if (console.turn tick).awaits then Host.pressedKeys console.host :: later else later

theorem forall_zip_ite {α : Type} {asks : Prop} [Decidable asks] (related : α → α → Prop)
    {entry other : α} {entries others : List α}
    : (∀ both ∈ (if asks then entry :: entries else entries).zip
          (if asks then other :: others else others),
        related both.1 both.2)
      ↔ (asks → related entry other)
        ∧ ∀ both ∈ entries.zip others, related both.1 both.2 := by
  split
  · next asked => simp [asked]
  · next unasked => simp [unasked]

/-- Equal machines come to the same turn at a tick if the reports they are told differ in their
order only, and if an instruction that awaits a key finds the same first key in both.
-/
theorem turn_of_perm {left : Console σ} {right : Console τ} (same : left.machine = right.machine)
    {tick : Tick}
    (reordered
      : .poll ∈ (left.turn tick).calls
        → (Host.pressedKeys left.host).Perm (Host.pressedKeys right.host))
    (first
      : (left.turn tick).awaits = true
        → Keypad.first? (Host.pressedKeys left.host)
          = Keypad.first? (Host.pressedKeys right.host))
    : (left.turn tick).hushed = (right.turn tick).hushed := by
  cases tick with
  | timer => rw [turn, turn, same]
  | instruction =>
      by_cases polls : .poll ∈ (left.turn .instruction).calls
      · have sameFirst
            : ∀ x,
                Instruction.decode? left.machine.ahead = some (.awaitKey x)
                → Keypad.first? (Host.pressedKeys left.host)
                  = Keypad.first? (Host.pressedKeys right.host) := by
          intro x awaits
          apply first
          rw [Turn.awaits, executed?_turn, awaits]
        rw [turn, turn, ← same]
        exact Machine.cycle_of_perm (reordered polls) sameFirst
      · rw [turn, turn, ← same]
        exact congrArg Turn.hushed (Machine.cycle_of_not_polls polls _)

/-- Two runs of one machine go alike if poll for poll their hosts report the same keys in any order,
and if the instructions that await a key find the same first key. By induction over the ticks: as
long as the turns are the same, the runs poll and await at the same ticks.
-/
theorem run_of_perm {left : Console σ} {right : Console τ} (same : left.machine = right.machine)
    {ticks : List Tick}
    (reordered
      : ∀ both ∈ (left.answers ticks).zip (right.answers ticks), both.1.Perm both.2)
    (first
      : ∀ both ∈ (left.awaited ticks).zip (right.awaited ticks),
          Keypad.first? both.1 = Keypad.first? both.2)
    : (left.turns ticks).map Turn.hushed = (right.turns ticks).map Turn.hushed
      ∧ (left.run ticks).machine = (right.run ticks).machine := by
  induction ticks generalizing left right with
  | nil => exact ⟨rfl, same⟩
  | cons tick rest ih =>
      have polls : (.poll ∈ (right.turn tick).calls) = (.poll ∈ (left.turn tick).calls) := by
        cases tick with
        | timer => rw [turn, turn, same]
        | instruction =>
            simp only [turn, Machine.poll_mem_cycle, same]
      have awaits : (right.turn tick).awaits = (left.turn tick).awaits := by
        cases tick with
        | timer => rfl
        | instruction => simp only [Turn.awaits, executed?_turn, same]
      simp only [answers, polls] at reordered
      simp only [awaited, awaits] at first
      obtain ⟨reorderedNow, reordered⟩ := (forall_zip_ite List.Perm).mp reordered
      obtain ⟨firstNow, first⟩ :=
        (forall_zip_ite fun report other => Keypad.first? report = Keypad.first? other).mp first
      have alike := turn_of_perm same reorderedNow firstNow
      have machines : (left.turn tick).hushed.machine = (right.turn tick).hushed.machine :=
        congrArg Turn.machine alike
      obtain ⟨turns, machine⟩ := ih machines reordered first
      rw [turns_cons, turns_cons, List.map_cons, List.map_cons, alike, turns]
      exact ⟨rfl, machine⟩

end Console

/-- A run does not depend on the order in which held keys are reported, as long as the instructions
that await a key find the same first key: result for result, call for call and machine for machine
it is the same, and only the notes on foreign values may be in another order. Of one machine, two
orders of a report lead to the same turn exactly if it has no such instruction ahead or the first
keys are the same.
-/
theorem order_of_keys_matters_to_waiting_alone {σ τ : Type} [Host σ] [Host τ]
    : (∀ (left : Console σ) (right : Console τ) (ticks : List Tick),
        left.machine = right.machine
        → (∀ both ∈ (left.answers ticks).zip (right.answers ticks), both.1.Perm both.2)
        → (∀ both ∈ (left.awaited ticks).zip (right.awaited ticks),
            Keypad.first? both.1 = Keypad.first? both.2)
        → (left.turns ticks).map Turn.hushed = (right.turns ticks).map Turn.hushed
          ∧ (left.run ticks).machine = (right.run ticks).machine)
      ∧ ∀ (machine : Machine) (report other : List UInt8),
          report.Perm other
          → ((machine.cycle report).hushed = (machine.cycle other).hushed
            ↔ ∀ x,
                Instruction.decode? machine.ahead = some (.awaitKey x)
                → Keypad.first? report = Keypad.first? other) := by
  constructor
  · intro left right ticks same reordered first
    exact Console.run_of_perm same reordered first
  · intro machine report other same
    constructor
    · intro alike x awaits
      have machines
          : (machine.cycle report).hushed.machine = (machine.cycle other).hushed.machine :=
        congrArg Turn.machine alike
      exact Machine.first?_eq_of_cycle_awaitKey awaits machines
    · exact Machine.cycle_of_perm same

/-- A key is tested and one is awaited, before a host that reports three values in two orders. The
key that comes first is the same in both, though a foreign value comes before it in one. Where the
two keys change places the instruction that awaits one would tell.
-/
theorem reordered_keys_come_to_the_same
    : let machine :=
        Machine.boot #[0x60, 0x07, 0xE0, 0x9E, 0x00, 0x00, 0xF1, 0x0A] .modern (.ofSeed 0)
      let left : Console Script := ⟨machine, ⟨[[0x03, 0x07, 0x1F], [0x03, 0x07, 0x1F]], [], #[]⟩⟩
      let right : Console Script := ⟨machine, ⟨[[0x1F, 0x07, 0x03], [0x1F, 0x03, 0x07]], [], #[]⟩⟩
      let tested : List Tick := [.instruction, .instruction, .timer]
      let ticks := tested ++ [.instruction]
      let waiting := (left.run tested).machine
      (left.turns ticks).map Turn.hushed = (right.turns ticks).map Turn.hushed
      ∧ (left.run ticks).machine = (right.run ticks).machine
      ∧ (right.run ticks).machine.register 1 = 0x03
      ∧ (waiting.cycle [0x03, 0x07]).hushed ≠ (waiting.cycle [0x07, 0x03]).hushed := by
  intro machine left right tested ticks waiting
  obtain ⟨runs, cycles⟩ := @order_of_keys_matters_to_waiting_alone Script Script _ _
  have alike := runs left right ticks rfl (by decide +kernel) (by decide +kernel)
  have awaits : Instruction.decode? waiting.ahead = some (.awaitKey 1) := by decide +kernel
  have apart : Keypad.first? [0x03, 0x07] ≠ Keypad.first? [0x07, 0x03] := by decide
  have told := (cycles waiting [0x03, 0x07] [0x07, 0x03] (.swap _ _ _)).mp
  exact ⟨alike.1, alike.2, by decide +kernel, fun same => apart (told same 1 awaits)⟩

/-- A machine that awaits a key, told of two keys in either order, puts another one of them into its
register.
-/
theorem awaited_key_follows_the_order
    : ∃ machine,
        Machine.load #[0xF0, 0x0A] .modern (.ofSeed 0) = .ok machine
        ∧ let left : Console Script := ⟨machine, .holding [0x2, 0x1]⟩
          let right : Console Script := ⟨machine, .holding [0x1, 0x2]⟩
          (Host.pressedKeys left.host).Perm (Host.pressedKeys right.host)
          ∧ (left.run [.instruction]).machine.register 0 = 0x2
          ∧ (right.run [.instruction]).machine.register 0 = 0x1 :=
  ⟨_, rfl, .swap _ _ _, by decide +kernel, by decide +kernel⟩

end Chip8
