import Chip8.Host.Script
import Chip8.Proofs.DialectReach
import Chip8.Proofs.Footprint

/-! Adding a register to the index register. The sum is kept in sixteen bits and the flag is taken
from what is kept, so it tells that the sum is past the last address as long as the sum fits. A loop
that goes on adding gets past that.
-/

namespace Chip8

namespace Machine

theorem toNat_index_advanceIndex (machine : Machine) (x : Nibble)
    : (machine.advanceIndex x).index.toNat
      = (machine.index.toNat + (machine.register x).toNat) % 0x10000 := by
  have sum : (machine.advanceIndex x).index = machine.index + (machine.register x).toUInt16 := by
    rw [advanceIndex]
    split <;> rfl
  rw [sum, UInt16.toNat_add, UInt8.toNat_toUInt16]

/-- A sum that does not fit comes out below 255, where no flag is set. -/
theorem flag_advanceIndex {machine : Machine} (flags : machine.dialect.keepsFlagOnIndexAdd = false)
    (x : Nibble)
    : let sum := machine.index.toNat + (machine.register x).toNat
      (machine.advanceIndex x).register .flag
      = if 0x0FFF < sum ∧ sum < 0x10000 then 1 else 0 := by
  intro sum
  have kept : 0x0FFF < (machine.advanceIndex x).index ↔ 0x0FFF < sum ∧ sum < 0x10000 := by
    have index := machine.index.toNat_lt
    have register := (machine.register x).toNat_lt
    rw [UInt16.lt_iff_toNat_lt, toNat_index_advanceIndex]
    show 0x0FFF < sum % 0x10000 ↔ _
    omega
  have flag : (machine.advanceIndex x).register .flag
      = (decide (0x0FFF < (machine.advanceIndex x).index)).toUInt8 := by
    rw [advanceIndex, if_neg (by simp [flags])]
    exact (register_setRegister _ _ _ _).trans (if_pos rfl)
  rw [flag]
  simp only [kept]
  split
  · next due => rw [decide_eq_true due]; rfl
  · next undue => rw [decide_eq_false undue]; rfl

theorem Executes.sum_addIndex {machine : Machine} {x : Nibble} {turn : Turn}
    (executes : machine.Executes (.addIndex x) turn)
    (flags : machine.dialect.keepsFlagOnIndexAdd = false)
    : let sum := machine.index.toNat + (machine.register x).toNat
      turn.machine.register .flag = (if 0x0FFF < sum ∧ sum < 0x10000 then 1 else 0)
      ∧ turn.machine.index.toNat = sum % 0x10000 := by
  obtain ⟨fetched, pc, report, notes, rfl⟩ := executes.turn_eq
  let moved := { machine with fetched := fetched, pc := pc }
  have kept : moved.dialect.keepsFlagOnIndexAdd = false := flags
  exact ⟨flag_advanceIndex kept x, moved.toNat_index_advanceIndex x⟩

/-- A machine is about to add a register to its index register and will come back to do so again. -/
structure AddsAgain (machine : Machine) (x : Nibble) (target : Target) : Prop where
  here : machine.pc = UInt16.ofNat target.val
  adds : Instruction.decode? machine.ahead = some (.addIndex x)
  back : Instruction.decode? { machine with pc := machine.pc + 2 }.ahead = some (.jump target)
  apart : x ≠ .flag

/-- One round of the loop adds the register and leaves the loop as it is. -/
theorem AddsAgain.round {machine : Machine} {x : Nibble} {target : Target}
    (h : machine.AddsAgain x target) (report other : List UInt8)
    : let again := ((machine.cycle report).machine.cycle other).machine
      again.AddsAgain x target
      ∧ again.register x = machine.register x
      ∧ again.index.toNat = (machine.index.toNat + (machine.register x).toNat) % 0x10000 := by
  intro again
  have added : (machine.cycle report).machine = machine.fetch.advanceIndex x := by
    rw [machine_cycle, h.adds]
    rfl
  have frame := machine.fetch.advanceIndex_eq x
  have behind
      : (machine.cycle report).machine.ahead = { machine with pc := machine.pc + 2 }.ahead := by
    rw [added, frame]
    rfl
  have jumped : again
      = { (machine.fetch.advanceIndex x).fetch with pc := UInt16.ofNat target.val } := by
    refine ((machine.cycle report).machine.machine_cycle other).trans ?_
    rw [behind, h.back, added]
    rfl
  have memory : again.memory = machine.memory := by
    rw [jumped, frame]
    rfl
  have pc : again.pc = machine.pc := by
    rw [jumped, h.here]
  have unwritten : x ∉ (Instruction.addIndex x).written machine.fetch.dialect report := by
    rw [Instruction.written]
    split
    · exact List.not_mem_nil
    · exact List.not_mem_cons_of_ne_of_not_mem h.apart List.not_mem_nil
  refine ⟨⟨pc.trans h.here, ?_, ?_, h.apart⟩, ?_, ?_⟩
  · simpa only [ahead, memory, pc] using h.adds
  · simpa only [ahead, memory, pc] using h.back
  · rw [jumped]
    show (machine.fetch.execute (.addIndex x) report).machine.register x = machine.fetch.register x
    exact execute_register unwritten
  · rw [jumped]
    exact machine.fetch.toNat_index_advanceIndex x

end Machine

/-- Behind some rounds of the loop the index register holds what it held and as many times the
register, cut to sixteen bits. By induction over the rounds.
-/
theorem Console.index_run_of_addsAgain {σ : Type} [Host σ] {console : Console σ} {x : Nibble}
    {target : Target} (h : console.machine.AddsAgain x target) (rounds : Nat)
    : let later := (console.run (List.replicate (2 * rounds) .instruction)).machine
      later.AddsAgain x target
      ∧ later.register x = console.machine.register x
      ∧ later.index.toNat
        = (console.machine.index.toNat + rounds * (console.machine.register x).toNat)
          % 0x10000 := by
  induction rounds generalizing console with
  | zero =>
      have small := console.machine.index.toNat_lt
      refine ⟨h, rfl, ?_⟩
      rw [Nat.zero_mul, Nat.add_zero, Nat.mod_eq_of_lt small]
      rfl
  | succ rounds ih =>
      let next := console.run [.instruction, .instruction]
      obtain ⟨again, register, index⟩ : next.machine.AddsAgain x target
          ∧ next.machine.register x = console.machine.register x
          ∧ next.machine.index.toNat
            = (console.machine.index.toNat + (console.machine.register x).toNat) % 0x10000 :=
        h.round _ _
      obtain ⟨later, registers, indices⟩ := ih again
      refine ⟨later, registers.trans register, indices.trans ?_⟩
      rw [register, index, Nat.mod_add_mod, Nat.succ_mul, Nat.add_assoc, Nat.add_comm (rounds * _)]

/-- Along every run of a machine whose dialect gives a flag for the index register: an instruction
that adds a register to it sets the flag register exactly if the sum is past the last address and
fits into sixteen bits, and clears it otherwise. The index register keeps the sum, cut to sixteen
bits.
-/
theorem index_sums_are_flagged_in_sixteen_bits {σ : Type} [Host σ] (console : Console σ)
    (flags : console.machine.dialect.keepsFlagOnIndexAdd = false) (ticks : List Tick)
    {x : Nibble} {turn : Turn}
    (executes : (console.run ticks).machine.Executes (.addIndex x) turn)
    : let reached := (console.run ticks).machine
      let sum := reached.index.toNat + (reached.register x).toNat
      turn.machine.register .flag = (if 0x0FFF < sum ∧ sum < 0x10000 then 1 else 0)
      ∧ turn.machine.index.toNat = sum % 0x10000 := by
  apply executes.sum_addIndex
  rw [console.dialect_run ticks]
  exact flags

/-- The flag register is added to the highest index that still leaves room for it, and then the flag
that this gives to the sum: the first sum is flagged and the second one wraps around.
-/
theorem largest_sum_is_flagged_and_next_is_not
    : let machine : Machine :=
        { Machine.boot #[0xFF, 0x1E, 0xFF, 0x1E] .modern (.ofSeed 0) with
          index := 0xFF00
          v := .replicate 16 0xFF }
      let console : Console Script := ⟨machine, .holding []⟩
      let first := console.turn .instruction
      let second := (console.run [.instruction]).turn .instruction
      first.machine.register .flag = 1
      ∧ first.machine.index.toNat = 0xFFFF
      ∧ second.machine.register .flag = 0
      ∧ second.machine.index.toNat = 0x0000 := by
  intro machine console first second
  have adds : Instruction.decode? (console.run []).machine.ahead = some (.addIndex 0xF) := by
    decide +kernel
  have addsAgain : Instruction.decode? (console.run [.instruction]).machine.ahead
      = some (.addIndex 0xF) := by
    decide +kernel
  have sum : (console.run []).machine.index.toNat
      + ((console.run []).machine.register 0xF).toNat = 0xFFFF := by
    decide +kernel
  have next : (console.run [.instruction]).machine.index.toNat
      + ((console.run [.instruction]).machine.register 0xF).toNat = 0x10000 := by
    decide +kernel
  obtain ⟨flagged, index⟩ :=
    index_sums_are_flagged_in_sixteen_bits console rfl [] (.met [] adds)
  obtain ⟨unflagged, wrapped⟩ :=
    index_sums_are_flagged_in_sixteen_bits console rfl [.instruction] (.met _ addsAgain)
  rw [sum] at flagged index
  rw [next] at unflagged wrapped
  exact ⟨flagged, index, unflagged.trans (if_neg (by decide)), wrapped⟩

/-- A program adds 255 to the index register over and over. Behind 257 rounds the next sum is 65790,
past the last address by far, and the flag register is cleared.
-/
theorem sum_beyond_sixteen_bits_is_not_flagged
    : ∃ machine,
        Machine.load #[0x60, 0xFF, 0xF0, 0x1E, 0x12, 0x02] .modern (.ofSeed 0) = .ok machine
        ∧ let console : Console Script := ⟨machine, .holding []⟩
          let reached := (console.run (List.replicate 515 .instruction)).machine
          machine.dialect.keepsFlagOnIndexAdd = false
          ∧ Instruction.decode? reached.ahead = some (.addIndex 0)
          ∧ reached.index.toNat + (reached.register 0).toNat = 65790
          ∧ (reached.cycle []).machine.register .flag = 0 := by
  refine ⟨_, rfl, ?_⟩
  intro console reached
  let entered := console.run [.instruction]
  have enters : entered.machine.AddsAgain 0 0x202 :=
    ⟨by decide +kernel, by decide +kernel, by decide +kernel, by decide⟩
  have zero : entered.machine.index.toNat = 0 := by decide +kernel
  have holds : entered.machine.register 0 = 0xFF := by decide +kernel
  have cut : List.replicate 515 Tick.instruction
      = [.instruction] ++ List.replicate (2 * 257) .instruction :=
    List.replicate_succ
  have rest : reached = (entered.run (List.replicate (2 * 257) .instruction)).machine := by
    simp only [reached, cut, Console.run_append, entered]
  obtain ⟨again, register, index⟩ := Console.index_run_of_addsAgain enters 257
  rw [← rest] at again register index
  have sum : reached.index.toNat + (reached.register 0).toNat = 65790 := by
    rw [index, register, zero, holds]
    decide
  have dialect : reached.dialect = console.machine.dialect := by
    simp only [reached, Console.dialect_run]
  have flags : reached.dialect.keepsFlagOnIndexAdd = false :=
    congrArg Dialect.keepsFlagOnIndexAdd dialect
  have met : reached.Executes (.addIndex 0) (reached.cycle []) := .met [] again.adds
  obtain ⟨flag, _⟩ := met.sum_addIndex flags
  rw [sum] at flag
  exact ⟨rfl, again.adds, sum, flag.trans (if_neg (by decide))⟩

end Chip8
