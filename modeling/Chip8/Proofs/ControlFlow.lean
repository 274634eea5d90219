import Chip8.Proofs.Fault
import Chip8.Proofs.Report

/-! Where a machine goes on behind a cycle: at an address that its instruction names, behind the
last call, at the same word again, behind the next word, or at the next word.
-/

namespace Chip8

-----------------------------------------------------------------------------------------
-- Successors
-----------------------------------------------------------------------------------------

namespace Machine

/-- Whether an instruction passes over the next word. A key is tested by its value, which has to be
one of the sixteen and among those reported.
-/
def skips (machine : Machine) (report : List UInt8) : Instruction → Bool
  | .skipEqualByte x nn => machine.register x == nn
  | .skipUnequalByte x nn => machine.register x != nn
  | .skipEqual x y => machine.register x == machine.register y
  | .skipUnequal x y => machine.register x != machine.register y
  | .skipPressed x =>
      decide (machine.register x < 16) && report.contains (machine.register x)
  | .skipReleased x =>
      !(decide (machine.register x < 16) && report.contains (machine.register x))
  | _ => false

/-- Where a machine goes on behind an instruction that it fetches, before the address is cut to
sixteen bits. A jump with offset adds the first register, or the one named by the top digit of its
target. A return goes to the latest return address and has no successor without one. Awaiting a key
stays where it is until one of the sixteen is reported.
-/
def successor? (machine : Machine) (report : List UInt8) : Instruction → Option Nat
  | .jump nnn | .call nnn => some nnn.val
  | .jumpOffset nnn =>
      let place := if machine.dialect.offsetByDigit then nnn.val / 256 else 0
      some (nnn.val + (machine.v.toArray.getD place 0).toNat)
  | .ret => machine.stack.head?.map UInt16.toNat
  | .awaitKey _ => some (machine.pc.toNat + if report.any (· < 16) then 2 else 0)
  | instruction => some (machine.pc.toNat + if machine.skips report instruction then 4 else 2)

theorem toNat_pc_fetch (machine : Machine)
    : machine.fetch.pc.toNat = (machine.pc.toNat + 2) % 65536 :=
  UInt16.toNat_add machine.pc 2

theorem toNat_pc_skipWhen (machine : Machine) (condition : Bool)
    : (machine.fetch.skipWhen condition).pc.toNat
      = (machine.pc.toNat + if condition then 4 else 2) % 65536 := by
  cases condition with
  | false => exact machine.toNat_pc_fetch
  | true =>
      show (machine.fetch.pc + 2).toNat = (machine.pc.toNat + 4) % 65536
      rw [UInt16.toNat_add, toNat_pc_fetch]
      show ((machine.pc.toNat + 2) % 65536 + 2) % 65536 = _
      omega

/-- Going back undoes the fetch, also where it wrapped. -/
theorem toNat_pc_takeKey (machine : Machine) (x : Nibble) (report : List UInt8)
    : (machine.fetch.takeKey x (Keypad.held report)).pc.toNat
      = (machine.pc.toNat + if report.any (· < 16) then 2 else 0) % 65536 := by
  cases held : Keypad.held report with
  | nil =>
      have back : machine.pc + 2 - 2 = machine.pc := by simp
      rw [Keypad.held_eq_nil_iff.mp held]
      show (machine.pc + 2 - 2).toNat = machine.pc.toNat % 65536
      rw [back, Nat.mod_eq_of_lt machine.pc.toNat_lt]
  | cons key rest =>
      have some : report.any (· < 16) = true := by
        rw [← Bool.not_eq_false, ← Keypad.held_eq_nil_iff, held]
        exact List.cons_ne_nil key rest
      rw [some]
      exact machine.toNat_pc_fetch

theorem toNat_pc_jumpOffset (machine : Machine) (nnn : Target)
    : (UInt16.ofNat nnn.val + (machine.register (machine.offsetRegister nnn)).toUInt16).toNat
      = (nnn.val
          + (machine.v.toArray.getD
              (if machine.dialect.offsetByDigit then nnn.val / 256 else 0) 0).toNat) % 65536 := by
  have place
      : (machine.offsetRegister nnn).val
        = if machine.dialect.offsetByDigit then nnn.val / 256 else 0 := by
    rw [offsetRegister]
    split <;> rfl
  have inside : (machine.offsetRegister nnn).val < machine.v.toArray.size := by
    rw [machine.v.size_toArray]
    exact (machine.offsetRegister nnn).isLt
  rw [← place, Array.getD_eq_getD_getElem?, Array.getElem?_eq_getElem inside, Option.getD_some,
    UInt16.toNat_add, UInt16.toNat_ofNat', UInt8.toNat_toUInt16]
  show (nnn.val % 65536 + _) % 65536 = _
  rw [Nat.mod_eq_of_lt (Nat.lt_trans nnn.isLt (by decide))]
  rfl

/-- A machine goes on at the successor of the instruction that it fetched, by cases over the
instruction set.
-/
theorem toNat_pc_execute {machine : Machine} {instruction : Instruction} {report : List UInt8}
    {next : Nat} (goes : machine.successor? report instruction = some next)
    : (machine.fetch.execute instruction report).machine.pc.toNat = next % 65536 := by
  cases instruction with
  | jump nnn | call nnn =>
      obtain rfl := Option.some.inj goes
      exact UInt16.toNat_ofNat'
  | jumpOffset nnn =>
      obtain rfl := Option.some.inj goes
      exact machine.fetch.toNat_pc_jumpOffset nnn
  | ret =>
      obtain ⟨address, latest, rfl⟩ := Option.map_eq_some_iff.mp goes
      obtain ⟨rest, stack⟩ := List.head?_eq_some_iff.mp latest
      have fetchedStack : machine.fetch.stack = address :: rest := stack
      simp only [execute, fetchedStack]
      exact (Nat.mod_eq_of_lt address.toNat_lt).symm
  | awaitKey x =>
      obtain rfl := Option.some.inj goes
      exact machine.toNat_pc_takeKey x report
  | skipEqualByte x nn | skipUnequalByte x nn | skipEqual x y | skipUnequal x y =>
      obtain rfl := Option.some.inj goes
      exact machine.toNat_pc_skipWhen _
  | skipPressed x | skipReleased x =>
      obtain rfl := Option.some.inj goes
      rw [skips, ← Keypad.isHeld_eq]
      exact machine.toNat_pc_skipWhen _
  | alu x y op =>
      obtain rfl := Option.some.inj goes
      simp only [execute]
      rw [applyAlu_eq]
      exact machine.toNat_pc_fetch
  | addIndex x =>
      obtain rfl := Option.some.inj goes
      simp only [execute]
      rw [advanceIndex_eq]
      exact machine.toNat_pc_fetch
  | store x =>
      obtain rfl := Option.some.inj goes
      simp only [execute, storeRegisters]
      rw [settleIndex_eq]
      exact machine.toNat_pc_fetch
  | load x =>
      obtain rfl := Option.some.inj goes
      simp only [execute]
      rw [loadRegisters_eq]
      exact machine.toNat_pc_fetch
  | _ =>
      obtain rfl := Option.some.inj goes
      exact machine.toNat_pc_fetch

/-- An instruction that does not fault has a successor. -/
theorem exists_successor {machine : Machine} {instruction : Instruction} {report : List UInt8}
    (faultless : (machine.fetch.execute instruction report).fault? = none)
    : ∃ next, machine.successor? report instruction = some next := by
  cases instruction with
  | ret =>
      rw [execute_fault?] at faultless
      have stack : machine.fetch.stack = machine.stack := rfl
      cases opened : machine.stack with
      | nil => simp [stack, opened] at faultless
      | cons address rest =>
          exact ⟨address.toNat, congrArg (·.head?.map UInt16.toNat) opened⟩
  | _ => exact ⟨_, rfl⟩

/-- A cycle that does not fault executes an instruction and leads to its successor. -/
theorem cycle_leads {machine : Machine} {report : List UInt8}
    (faultless : (machine.cycle report).fault? = none)
    : ∃ instruction next,
        Instruction.decode? machine.ahead = some instruction
        ∧ machine.successor? report instruction = some next
        ∧ (machine.cycle report).machine.pc.toNat = next % 65536 := by
  cases decodes : Instruction.decode? machine.ahead with
  | none =>
      rw [cycle_of_none report decodes] at faultless
      contradiction
  | some instruction =>
      rw [cycle_of_some report decodes] at faultless ⊢
      obtain ⟨next, goes⟩ := exists_successor faultless
      exact ⟨instruction, next, rfl, goes, toNat_pc_execute goes⟩

end Machine

-----------------------------------------------------------------------------------------
-- Opposite skips
-----------------------------------------------------------------------------------------

namespace Instruction

/-- The instruction that skips exactly where this one does not, if this one skips at all. -/
def opposite? : Instruction → Option Instruction
  | skipEqualByte x nn => some (skipUnequalByte x nn)
  | skipUnequalByte x nn => some (skipEqualByte x nn)
  | skipEqual x y => some (skipUnequal x y)
  | skipUnequal x y => some (skipEqual x y)
  | skipPressed x => some (skipReleased x)
  | skipReleased x => some (skipPressed x)
  | _ => none

theorem opposite?_opposite {instruction opposite : Instruction}
    (opposed : instruction.opposite? = some opposite)
    : opposite.opposite? = some instruction := by
  cases instruction with
  | skipEqualByte x nn | skipUnequalByte x nn | skipEqual x y | skipUnequal x y
  | skipPressed x | skipReleased x =>
      obtain rfl := Option.some.inj opposed
      rfl
  | _ => contradiction

end Instruction

namespace Machine

theorem successor?_of_opposite {instruction opposite : Instruction}
    (opposed : instruction.opposite? = some opposite) (machine : Machine) (report : List UInt8)
    : machine.successor? report instruction
      = some (machine.pc.toNat + if machine.skips report instruction then 4 else 2) := by
  cases instruction with
  | skipEqualByte x nn | skipUnequalByte x nn | skipEqual x y | skipUnequal x y
  | skipPressed x | skipReleased x => rfl
  | _ => contradiction

theorem skips_opposite {machine other : Machine} (alike : machine.v = other.v)
    {instruction opposite : Instruction} (opposed : instruction.opposite? = some opposite)
    (report : List UInt8)
    : other.skips report opposite = !machine.skips report instruction := by
  have registers : ∀ x, other.register x = machine.register x := by
    intro x
    rw [register, register, alike]
  cases instruction with
  | skipEqualByte x nn | skipEqual x y | skipPressed x =>
      obtain rfl := Option.some.inj opposed
      simp only [skips, registers, bne]
  | skipUnequalByte x nn | skipUnequal x y | skipReleased x =>
      obtain rfl := Option.some.inj opposed
      simp only [skips, registers, bne, Bool.not_not]
  | _ => contradiction

theorem pc_cycle_of_opposite {machine : Machine} {instruction opposite : Instruction}
    (decodes : Instruction.decode? machine.ahead = some instruction)
    (opposed : instruction.opposite? = some opposite) (report : List UInt8)
    : (machine.cycle report).machine.pc.toNat
      = (machine.pc.toNat + if machine.skips report instruction then 4 else 2) % 65536 := by
  rw [cycle_of_some report decodes]
  exact toNat_pc_execute (successor?_of_opposite opposed machine report)

end Machine

/-- A cycle that does not fault goes on at the successor of its instruction, whatever the address
that it came from. Of two machines with the same registers that meet opposite skips while the same
keys are reported, exactly one passes over its next word.
-/
theorem cycles_lead_to_successors
    : (∀ (machine : Machine) (report : List UInt8),
        (machine.cycle report).fault? = none
        → ∃ instruction next,
            Instruction.decode? machine.ahead = some instruction
            ∧ machine.successor? report instruction = some next
            ∧ (machine.cycle report).machine.pc.toNat = next % 65536)
      ∧ ∀ (machine other : Machine) (instruction opposite : Instruction) (report : List UInt8),
          machine.v = other.v
          → instruction.opposite? = some opposite
          → Instruction.decode? machine.ahead = some instruction
          → Instruction.decode? other.ahead = some opposite
          → let skips (machine : Machine) : Prop :=
              (machine.cycle report).machine.pc.toNat = (machine.pc.toNat + 4) % 65536
            let goesOn (machine : Machine) : Prop :=
              (machine.cycle report).machine.pc.toNat = (machine.pc.toNat + 2) % 65536
            skips machine ∧ goesOn other ∨ goesOn machine ∧ skips other := by
  constructor
  · exact fun _ _ => Machine.cycle_leads
  · intro machine other instruction opposite report alike opposed decodes decodesOther skips goesOn
    have here := Machine.pc_cycle_of_opposite decodes opposed report
    have there :=
      Machine.pc_cycle_of_opposite decodesOther (Instruction.opposite?_opposite opposed) report
    rw [Machine.skips_opposite alike opposed] at there
    cases skipped : machine.skips report instruction with
    | true =>
        rw [skipped] at here there
        exact .inl ⟨here, there⟩
    | false =>
        rw [skipped] at here there
        exact .inr ⟨here, there⟩

/-- A value that no key has is reported and named by a register. The instruction at the last two
addresses that skips if the key is held goes on at the first address; the opposite one skips the
word there.
-/
theorem foreign_key_skips_across_wrap
    : let machine : Machine :=
        { Machine.boot #[] .modern (.ofSeed 0) with
          memory := (Memory.image #[]).writeRun 0x0FFE [0xE0, 0x9E]
          v := .replicate 16 0x1F
          pc := 0xFFFE }
      let other := { machine with memory := machine.memory.write 0x0FFF 0xA1 }
      (machine.cycle [0x1F]).fault? = none
      ∧ (machine.cycle [0x1F]).machine.pc = 0x0000
      ∧ (other.cycle [0x1F]).machine.pc = 0x0002 := by
  intro machine other
  have faultless : (machine.cycle [0x1F]).fault? = none := by decide +kernel
  have decodes : Instruction.decode? machine.ahead = some (.skipPressed 0) := by decide +kernel
  have decodesOther : Instruction.decode? other.ahead = some (.skipReleased 0) := by
    decide +kernel
  have follows : machine.successor? [0x1F] (.skipPressed 0) = some 0x10000 := by decide +kernel
  obtain ⟨instruction, next, met, goes, pc⟩ :=
    cycles_lead_to_successors.1 machine [0x1F] faultless
  obtain rfl := Option.some.inj (decodes.symm.trans met)
  obtain rfl := Option.some.inj (follows.symm.trans goes)
  have first : (machine.cycle [0x1F]).machine.pc = 0x0000 := UInt16.toNat_inj.mp pc
  refine ⟨faultless, first, ?_⟩
  rcases cycles_lead_to_successors.2 machine other _ _ [0x1F] rfl rfl decodes decodesOther with
    ⟨skipped, _⟩ | ⟨_, skipped⟩
  · have apart : 0x10000 % 65536 ≠ (machine.pc.toNat + 4) % 65536 := by decide +kernel
    exact absurd (pc.symm.trans skipped) apart
  · have wraps : (other.pc.toNat + 4) % 65536 = 0x0002 := by decide +kernel
    exact UInt16.toNat_inj.mp (skipped.trans wraps)

end Chip8
