import Chip8.Host.Script
import Chip8.Proofs.Countdown
import Chip8.Proofs.Report

/-! Waiting for a key. A machine asks once a tick and stays at the same word while no key is
reported; meanwhile only its timers go on. The first key of the first report that has one ends the
wait.
-/

namespace Chip8

namespace Machine

-----------------------------------------------------------------------------------------
-- One tick
-----------------------------------------------------------------------------------------

theorem takeKey_held (machine : Machine) (x : Nibble) (report : List UInt8)
    : machine.takeKey x (Keypad.held report)
      = (Keypad.first? report).elim { machine with pc := machine.pc - 2 }
          (machine.setRegister x) := by
  rw [← Keypad.head?_held]
  cases Keypad.held report <;> rfl

section Awaits

variable {machine : Machine} {x : Nibble}
  (awaits : Instruction.decode? machine.ahead = some (.awaitKey x)) (report : List UInt8)

include awaits

/-- An instruction that awaits a key polls once and does not fault, whether or not there is one. -/
theorem cycle_awaitKey_polls
    : (machine.cycle report).calls = [.poll] ∧ (machine.cycle report).fault? = none := by
  rw [cycle_of_some report awaits]
  exact ⟨rfl, rfl⟩

/-- Without a key the machine is where it was, since going back undoes the fetch at every address;
with one it goes on and the register holds the key.
-/
theorem machine_cycle_awaitKey
    : (machine.cycle report).machine
      = (Keypad.first? report).elim { machine with fetched := machine.ahead } fun key =>
          { machine with
            fetched := machine.ahead
            pc := machine.pc + 2
            v := replaceAt machine.v x key } := by
  have back : machine.pc + 2 - 2 = machine.pc := UInt16.add_sub_cancel machine.pc 2
  have word : machine.fetch = { machine with fetched := machine.ahead, pc := machine.pc + 2 } :=
    congrArg (fun fetched => { machine with fetched := fetched, pc := machine.pc + 2 })
      machine.fetched_fetch
  rw [machine_cycle, awaits]
  show machine.fetch.takeKey x (Keypad.held report) = _
  rw [takeKey_held, word]
  cases Keypad.first? report with
  | none => exact congrArg (fun pc => { machine with fetched := machine.ahead, pc := pc }) back
  | some key => rfl

end Awaits

-----------------------------------------------------------------------------------------
-- Ticks without a key
-----------------------------------------------------------------------------------------

/-- The machine that has waited for some ticks: its timers were counted by the timer ticks, never
below zero, and an instruction tick has fetched the word ahead. All else is as it was.
-/
def waited (machine : Machine) (ticks : List Tick) : Machine :=
  { machine with
    fetched := if .instruction ∈ ticks then machine.ahead else machine.fetched
    delayTimer := UInt8.ofNat (machine.delayTimer.toNat - ticks.count .timer)
    soundTimer := UInt8.ofNat (machine.soundTimer.toNat - ticks.count .timer) }

theorem ofNat_oneLess (timer : UInt8) (counts : Nat)
    : UInt8.ofNat ((oneLess timer).toNat - counts) = UInt8.ofNat (timer.toNat - (counts + 1)) := by
  rw [toNat_oneLess, Nat.sub_sub, Nat.add_comm]

theorem waited_nil (machine : Machine) : machine.waited [] = machine := by
  simp [waited]

theorem waited_instruction (machine : Machine) (rest : List Tick)
    : { machine with fetched := machine.ahead }.waited rest
      = machine.waited (.instruction :: rest) := by
  have word : (if .instruction ∈ rest then machine.ahead else machine.ahead)
      = if .instruction ∈ Tick.instruction :: rest then machine.ahead else machine.fetched := by
    rw [ite_self, if_pos (List.mem_cons_self ..)]
  have counts : (Tick.instruction :: rest).count .timer = rest.count .timer :=
    List.count_cons_of_ne (by decide)
  rw [waited, waited, ← word, counts]
  rfl

theorem waited_timer (machine : Machine) (rest : List Tick)
    : machine.countDown.machine.waited rest = machine.waited (.timer :: rest) := by
  have ticked : Tick.instruction ∈ Tick.timer :: rest ↔ .instruction ∈ rest := by simp
  rw [waited, waited, List.count_cons_self, ← ofNat_oneLess, ← ofNat_oneLess]
  simp only [ticked]
  rfl

end Machine

namespace Console

variable {σ : Type} [Host σ] {console : Console σ} {x : Nibble}

/-- While no key is reported the machine waits and each instruction tick is answered, by induction
over the ticks: behind each of them the same word is ahead.
-/
theorem waits_run
    (awaits : Instruction.decode? console.machine.ahead = some (.awaitKey x)) {ticks : List Tick}
    (unheld : ∀ report ∈ console.answers ticks, Keypad.first? report = none)
    : (console.run ticks).machine = console.machine.waited ticks
      ∧ (console.answers ticks).length = ticks.count .instruction := by
  induction ticks generalizing console with
  | nil => exact ⟨console.machine.waited_nil.symm, rfl⟩
  | cons tick rest ih =>
      cases tick with
      | timer =>
          rw [answers_timer] at unheld ⊢
          have later : (console.after (console.turn .timer)).machine
              = console.machine.countDown.machine :=
            rfl
          have same : Instruction.decode? console.machine.countDown.machine.ahead
              = some (.awaitKey x) :=
            awaits
          obtain ⟨waits, answered⟩ := ih (later ▸ same) unheld
          rw [run_cons, waits, later, Machine.waited_timer, answered]
          exact ⟨rfl, (List.count_cons_of_ne (by decide)).symm⟩
      | instruction =>
          have polls : .poll ∈ (console.turn .instruction).calls := by
            rw [turn, (Machine.cycle_awaitKey_polls awaits _).1]
            exact List.mem_singleton_self _
          rw [Console.answers, if_pos polls] at unheld ⊢
          obtain ⟨none, unheld⟩ := List.forall_mem_cons.mp unheld
          have later : (console.after (console.turn .instruction)).machine
              = { console.machine with fetched := console.machine.ahead } := by
            rw [after, turn, Machine.machine_cycle_awaitKey awaits, none]
            rfl
          obtain ⟨waits, answered⟩ := ih (by rw [later]; exact awaits) unheld
          rw [run_cons, waits, later, Machine.waited_instruction, List.length_cons, answered]
          exact ⟨rfl, List.count_cons_self.symm⟩

theorem awaits_run (awaits : Instruction.decode? console.machine.ahead = some (.awaitKey x))
    {ticks : List Tick}
    (unheld : ∀ report ∈ console.answers ticks, Keypad.first? report = none)
    : Instruction.decode? (console.run ticks).machine.ahead = some (.awaitKey x) := by
  rw [(waits_run awaits unheld).1]
  exact awaits

end Console

/-- Whatever the machine that has an instruction ahead which awaits a key, and however its timers
are counted in between: while no value that a key has is reported, every instruction tick polls
once, does not fault and leaves the machine as it was but for the word fetched, and the timers count
down. The first instruction tick that is told of a key polls once too, puts the first key of its
report into the register and goes on behind the instruction, and changes nothing else.
-/
theorem waiting_for_a_key_changes_nothing {σ : Type} [Host σ] {console : Console σ} {x : Nibble}
    (awaits : Instruction.decode? console.machine.ahead = some (.awaitKey x))
    {waiting : List Tick}
    (unheld : ∀ report ∈ console.answers waiting, ∀ byte ∈ report, 16 ≤ byte)
    : (console.answers waiting).length = waiting.count .instruction
      ∧ (∀ before since,
          waiting = before ++ since
          → let tick := (console.run before).turn .instruction
            (console.run before).machine = console.machine.waited before
            ∧ tick.calls = [.poll]
            ∧ tick.fault? = none)
      ∧ let report := Host.pressedKeys (console.run waiting).host
        (∃ byte ∈ report, byte < 16)
        → ∃ key,
            report.find? (· < 16) = some key
            ∧ (console.run (waiting ++ [.instruction])).machine
              = { console.machine.waited waiting with
                  fetched := console.machine.ahead
                  pc := console.machine.pc + 2
                  v := replaceAt console.machine.v x key } := by
  have unnamed : ∀ report ∈ console.answers waiting, Keypad.first? report = none :=
    fun report answered => Keypad.first?_eq_none_iff.mpr (unheld report answered)
  refine ⟨(Console.waits_run awaits unnamed).2, ?_, ?_⟩
  · intro before since split tick
    rw [split, Console.answers_append] at unnamed
    have untold := (List.forall_mem_append.mp unnamed).1
    exact ⟨(Console.waits_run awaits untold).1,
      Machine.cycle_awaitKey_polls (Console.awaits_run awaits untold) _⟩
  · rintro report ⟨byte, reported, small⟩
    have still := Console.awaits_run awaits unnamed
    cases first : Keypad.first? report with
    | none =>
        have foreign := Keypad.first?_eq_none_iff.mp first byte reported
        exact absurd small (UInt8.not_lt.mpr foreign)
    | some key =>
        have taken := Machine.machine_cycle_awaitKey still report
        rw [first, Option.elim_some] at taken
        refine ⟨key, first, ?_⟩
        rw [Console.run_append]
        refine taken.trans ?_
        rw [(Console.waits_run awaits unnamed).1]
        rfl

/-- The instruction lies across the end of memory. Twice no key is reported, once not even a foreign
value, and the timers are counted twice meanwhile; then two keys are reported behind a foreign
value.
-/
theorem first_key_ends_wait_across_wrap
    : let machine : Machine :=
        { Machine.boot #[] .modern (.ofSeed 0) with
          memory := (Memory.image #[]).writeRun 0x0FFF [0xF5, 0x0A]
          pc := 0xFFFF
          delayTimer := 1
          soundTimer := 9 }
      let console : Console Script := ⟨machine, ⟨[[], [0x10, 0xFF], [0x1F, 0x07, 0x03]], [], #[]⟩⟩
      let waiting : List Tick := [.instruction, .timer, .timer, .instruction]
      (console.answers waiting).length = 2
      ∧ (console.run waiting).machine
        = { machine with fetched := ⟨0xF5, 0x0A⟩, delayTimer := 0, soundTimer := 7 }
      ∧ ((console.run [.instruction, .timer]).turn .instruction).calls = [.poll]
      ∧ (console.run (waiting ++ [.instruction])).machine
        = { machine with
            fetched := ⟨0xF5, 0x0A⟩
            delayTimer := 0
            soundTimer := 7
            pc := 0x0001
            v := replaceAt machine.v 5 0x07 } := by
  intro machine console waiting
  have word : machine.ahead = ⟨0xF5, 0x0A⟩ := by decide +kernel
  have awaits : Instruction.decode? console.machine.ahead = some (.awaitKey 5) :=
    congrArg Instruction.decode? word
  have unheld : ∀ report ∈ console.answers waiting, ∀ byte ∈ report, 16 ≤ byte := by
    decide +kernel
  have waited : machine.waited waiting
      = { machine with fetched := machine.ahead, delayTimer := 0, soundTimer := 7 } :=
    rfl
  obtain ⟨answered, waits, ends⟩ := waiting_for_a_key_changes_nothing awaits unheld
  obtain ⟨key, first, taken⟩ := ends (by decide +kernel)
  have seven : (Host.pressedKeys (console.run waiting).host).find? (· < 16) = some 0x07 := by
    decide +kernel
  obtain rfl : key = 0x07 := Option.some.inj (first.symm.trans seven)
  have wraps : machine.pc + 2 = 0x0001 := by decide +kernel
  rw [← word, ← wraps]
  exact ⟨answered, (waits waiting [] rfl).1.trans waited,
    (waits [.instruction, .timer] _ rfl).2.1, taken⟩

end Chip8
