import Chip8.Host.Script
import Chip8.Proofs.History

/-! The random bytes of a run, told by their number. Only a random instruction moves the generator on,
and always by one word, so what it draws depends on nothing but the words of the generator and on
how many instructions drew before it.
-/

namespace Chip8

-----------------------------------------------------------------------------------------
-- The words of a generator
-----------------------------------------------------------------------------------------

namespace Generator

/-- The words that a generator is going to give, by their number. -/
def wordAhead (generator : Generator) (number : Nat) : UInt32 :=
  KeyStream.word generator.key (generator.drawn + number)

/-- The generator behind a number of further words. -/
def skip (generator : Generator) (words : Nat) : Generator :=
  { generator with drawn := generator.drawn + words }

theorem skip_skip (generator : Generator) (words more : Nat)
    : (generator.skip words).skip more = generator.skip (words + more) := by
  simp only [skip, Nat.add_assoc]

theorem peek_skip (generator : Generator) (words : Nat)
    : (generator.skip words).peek = UInt8.ofNat ((generator.wordAhead words).toNat % 256) := by
  apply UInt8.toNat_inj.mp
  simp only [peek, skip, wordAhead, UInt32.toNat_toUInt8, UInt8.toNat_ofNat']
  omega

end Generator

-----------------------------------------------------------------------------------------
-- One tick
-----------------------------------------------------------------------------------------

namespace Machine

/-- A cycle takes a word from the generator exactly if the instruction ahead draws. -/
theorem cycle_random (machine : Machine) (report : List UInt8)
    : (machine.cycle report).machine.random
      = if (Instruction.decode? machine.ahead).any Instruction.draws then machine.random.advance
        else machine.random := by
  rw [machine_cycle]
  cases Instruction.decode? machine.ahead with
  | none => rfl
  | some instruction => exact machine.fetch.execute_random instruction report

/-- A random instruction sets its register to the next byte of the generator under its mask. -/
theorem cycle_register_of_random {machine : Machine} {x : Nibble} {nn : UInt8}
    (draws : Instruction.decode? machine.ahead = some (.random x nn)) (report : List UInt8)
    : (machine.cycle report).machine.register x = machine.random.peek &&& nn := by
  rw [machine_cycle, draws, Option.elim_some]
  show (machine.fetch.setRegister x (machine.random.peek &&& nn)).register x = _
  rw [register_setRegister, if_pos rfl]

end Machine

namespace Console

variable {σ : Type} [Host σ]

theorem random_turn (console : Console σ) (tick : Tick)
    : (console.turn tick).machine.random
      = if (console.turn tick).executed?.any Instruction.draws then
          console.machine.random.advance
        else console.machine.random := by
  cases tick with
  | timer => rfl
  | instruction =>
      rw [executed?_turn, turn, Machine.cycle_random]

-----------------------------------------------------------------------------------------
-- Runs
-----------------------------------------------------------------------------------------

/-- A run takes as many words from the generator as it executes random instructions, by induction
over the ticks.
-/
theorem random_run (console : Console σ) (ticks : List Tick)
    : (console.run ticks).machine.random
      = console.machine.random.skip ((console.executed ticks).countP Instruction.draws) := by
  induction ticks generalizing console with
  | nil => rfl
  | cons tick rest ih =>
      have first : (console.turn tick).machine.random
          = console.machine.random.skip
              ((console.turn tick).executed?.toList.countP Instruction.draws) := by
        rw [random_turn]
        cases (console.turn tick).executed? with
        | none => rfl
        | some instruction =>
            rw [Option.any_some, Option.toList_some, List.countP_singleton]
            split <;> rfl
      rw [run_cons, ih, executed_cons, List.countP_append, ← Generator.skip_skip, ← first]
      rfl

end Console

/-- Along every run of a freshly loaded machine, the random instruction that has some number of
random instructions before it sets its register to the low eight bits of the generator's word of
this number, under its mask. The generator stands behind as many words as random instructions
were executed: each takes one, whatever its mask, and no other instruction, no fault and no count
of the timers takes any.
-/
theorem random_bytes_follow_their_number {σ : Type} [Host σ] {program : Array UInt8}
    {dialect : Dialect} {random : Generator} {console : Console σ}
    (loads : Machine.load program dialect random = .ok console.machine) (ticks : List Tick)
    : let drawn := (console.executed ticks).countP Instruction.draws
      let reached := console.run ticks
      (∀ x nn,
        (reached.turn .instruction).executed? = some (.random x nn)
        → (reached.turn .instruction).machine.register x
          = UInt8.ofNat ((random.wordAhead drawn).toNat % 256) &&& nn)
      ∧ reached.machine.random = random.skip drawn
      ∧ ∀ tick,
          (reached.turn tick).machine.random
          = if (reached.turn tick).executed?.any Instruction.draws then
              reached.machine.random.advance
            else reached.machine.random := by
  obtain ⟨_, booted⟩ := Machine.load_eq_ok_iff.mp loads
  intro drawn reached
  have stands : reached.machine.random = random.skip drawn := by
    have fresh : console.machine.random = random := by
      rw [booted]
      rfl
    rw [← fresh]
    exact console.random_run ticks
  refine ⟨?_, stands, reached.random_turn⟩
  intro x nn executes
  rw [Console.executed?_turn] at executes
  rw [Console.turn, Machine.cycle_register_of_random executes, stands, Generator.peek_skip]

/-- Behind a byte drawn under an empty mask, a count of the timers and a fault, the third byte drawn is
of the third word.
-/
theorem third_draw_takes_third_word
    : ∃ machine,
        Machine.load #[0xC0, 0xFF, 0xC1, 0x00, 0x00, 0x00, 0xC2, 0xF0] .modern (.ofSeed 7)
          = .ok machine
        ∧ let console : Console Script := ⟨machine, .holding []⟩
          let reached := console.run [.instruction, .timer, .instruction, .instruction]
          reached.machine.random = (Generator.ofSeed 7).skip 2
          ∧ (reached.turn .instruction).machine.register 2
            = UInt8.ofNat (((Generator.ofSeed 7).wordAhead 2).toNat % 256) &&& 0xF0
          ∧ UInt8.ofNat (((Generator.ofSeed 7).wordAhead 2).toNat % 256) = 0x86 := by
  let console : Console Script :=
    ⟨.boot #[0xC0, 0xFF, 0xC1, 0x00, 0x00, 0x00, 0xC2, 0xF0] .modern (.ofSeed 7), .holding []⟩
  let ticks : List Tick := [.instruction, .timer, .instruction, .instruction]
  have executes : ((console.run ticks).turn .instruction).executed? = some (.random 2 0xF0) := by
    decide +kernel
  have drawn : (console.executed ticks).countP Instruction.draws = 2 := by
    decide +kernel
  have loads : Machine.load #[0xC0, 0xFF, 0xC1, 0x00, 0x00, 0x00, 0xC2, 0xF0] .modern (.ofSeed 7)
      = .ok console.machine :=
    rfl
  obtain ⟨stores, stands, _⟩ := random_bytes_follow_their_number loads ticks
  rw [drawn] at stands stores
  exact ⟨_, loads, stands, stores 2 0xF0 executes, by decide +kernel⟩

end Chip8
