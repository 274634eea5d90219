import Chip8.Host.Script
import Chip8.Proofs.History
import Chip8.Proofs.Report
import Chip8.Scheduler.Basic

/-! Reported values that name no key of the keypad. A machine goes on as if they had not been reported,
and but for the notes on them its run tells nothing of them.
-/

namespace Chip8

-----------------------------------------------------------------------------------------
-- Reports without foreign values
-----------------------------------------------------------------------------------------

namespace Keypad

/-- The reported values that name a key, in the order of the report. -/
def known (report : List UInt8) : List UInt8 :=
  report.filter fun byte => byte ≤ 0x0F

theorem ofByte?_eq_none_iff {byte : UInt8} : Nibble.ofByte? byte = none ↔ 0x0F < byte := by
  rw [UInt8.lt_iff_toNat_lt, Nibble.ofByte?]
  show _ ↔ 15 < byte.toNat
  split <;> simp only [reduceCtorEq, true_iff, false_iff] <;> omega

theorem held_known (report : List UInt8) : held (known report) = held report := by
  have unheld
      : (fun byte => if byte ≤ 0x0F then Nibble.ofByte? byte else none) = Nibble.ofByte? := by
    funext byte
    split
    · rfl
    · next foreign => exact (ofByte?_eq_none_iff.mpr (UInt8.not_le.mp foreign)).symm
  simp only [held, known, List.filterMap_filter, decide_eq_true_eq, unheld]

theorem foreign_known (report : List UInt8) : foreign (known report) = [] := by
  rw [foreign, known, List.filter_filter, List.filter_eq_nil_iff]
  intro byte _
  rw [Bool.and_eq_true, Option.isNone_iff_eq_none, ofByte?_eq_none_iff, decide_eq_true_eq,
    ← UInt8.not_le]
  exact fun both => both.1 both.2

theorem held_of_foreign {report : List UInt8} (foreign : ∀ byte ∈ report, 0x0F < byte)
    : held report = [] := by
  rw [held, List.filterMap_eq_nil_iff]
  intro byte reported
  exact ofByte?_eq_none_iff.mpr (foreign byte reported)

/-- A value that names no key is not held, though it be reported. -/
theorem isHeld_of_foreign {key : UInt8} (foreign : 0x0F < key) (report : List UInt8)
    : isHeld report key = false := by
  have unnamed : ¬key < 16 := by
    have bound : 15 < key.toNat := UInt8.lt_iff_toNat_lt.mp foreign
    rw [UInt8.lt_iff_toNat_lt]
    exact Nat.not_lt_of_le bound
  rw [isHeld_eq, decide_eq_false unnamed, Bool.false_and]

end Keypad

-----------------------------------------------------------------------------------------
-- Turns without the notes on foreign values
-----------------------------------------------------------------------------------------

/-- Whether an entry of the journal is about a reported value that names no key. -/
def Note.isForeign : Note → Bool
  | ignoredKey _ => true
  | _ => false

/-- The turn without its notes on foreign values; machine, calls and fault are the same. -/
def Turn.hushed (turn : Turn) : Turn :=
  { turn with notes := turn.notes.filter (!·.isForeign) }

namespace Machine

theorem polling_known (machine : Machine) (report : List UInt8)
    : Turn.polling (Keypad.known report) machine = (Turn.polling report machine).hushed := by
  have noted : ((Keypad.foreign report).map Note.ignoredKey).filter (!·.isForeign) = [] := by
    rw [List.filter_map, List.map_eq_nil_iff, List.filter_eq_nil_iff]
    exact fun _ _ => Bool.false_ne_true
  rw [Turn.polling, Turn.polling, Turn.hushed, noted, Keypad.foreign_known, List.map_nil]

/-- An instruction does the same without the foreign values of the report, and then it has none to
note. By cases over the instruction set.
-/
theorem execute_known (machine : Machine) (instruction : Instruction) (report : List UInt8)
    : machine.execute instruction (Keypad.known report)
      = (machine.execute instruction report).hushed := by
  cases instruction with
  | skipPressed x | skipReleased x =>
      simp only [execute, Keypad.isHeld, Keypad.held_known, polling_known]
  | awaitKey x => simp only [execute, Keypad.held_known, polling_known]
  | ret =>
      simp only [execute]
      cases machine.stack <;> rfl
  | _ => rfl

theorem cycle_known (machine : Machine) (report : List UInt8)
    : machine.cycle (Keypad.known report) = (machine.cycle report).hushed := by
  cases decodes : Instruction.decode? machine.ahead with
  | none =>
      rw [cycle_of_none _ decodes, cycle_of_none _ decodes]
      rfl
  | some instruction =>
      rw [cycle_of_some _ decodes, cycle_of_some _ decodes, execute_known]
      rfl

theorem cycle_of_skipPressed {machine : Machine} {x : Nibble}
    (tests : Instruction.decode? machine.ahead = some (.skipPressed x))
    (foreign : 0x0F < machine.register x) (report : List UInt8)
    : (machine.cycle report).machine = machine.fetch := by
  have released : Keypad.isHeld report (machine.fetch.register x) = false :=
    Keypad.isHeld_of_foreign foreign report
  rw [machine_cycle, tests]
  show machine.fetch.skipWhen (Keypad.isHeld report (machine.fetch.register x)) = _
  rw [released]
  rfl

theorem cycle_of_skipReleased {machine : Machine} {x : Nibble}
    (tests : Instruction.decode? machine.ahead = some (.skipReleased x))
    (foreign : 0x0F < machine.register x) (report : List UInt8)
    : (machine.cycle report).machine = { machine.fetch with pc := machine.pc + 4 } := by
  have released : Keypad.isHeld report (machine.fetch.register x) = false :=
    Keypad.isHeld_of_foreign foreign report
  have twice : machine.fetch.pc + 2 = machine.pc + 4 := UInt16.add_assoc machine.pc 2 2
  rw [machine_cycle, tests]
  show machine.fetch.skipWhen (!Keypad.isHeld report (machine.fetch.register x)) = _
  rw [released, ← twice]
  rfl

theorem cycle_of_awaitKey {machine : Machine} {x : Nibble}
    (awaits : Instruction.decode? machine.ahead = some (.awaitKey x)) {report : List UInt8}
    (foreign : ∀ byte ∈ report, 0x0F < byte)
    : (machine.cycle report).machine = { machine.fetch with pc := machine.pc } := by
  have back : machine.fetch.pc - 2 = machine.pc := UInt16.add_sub_cancel machine.pc 2
  rw [machine_cycle, awaits]
  show machine.fetch.takeKey x (Keypad.held report) = _
  rw [Keypad.held_of_foreign foreign, takeKey, back]

end Machine

-----------------------------------------------------------------------------------------
-- Runs before a host that reports no foreign values
-----------------------------------------------------------------------------------------

/-- A host as it were if its reports were rid of foreign values. -/
structure Filtered (σ : Type) where
  host : σ

instance {σ : Type} [Host σ] : Host (Filtered σ) where
  pressedKeys filtered := Keypad.known (Host.pressedKeys filtered.host)
  receive filtered call := ⟨Host.receive filtered.host call⟩

namespace Console

variable {σ : Type} [Host σ]

/-- The machine before its host as it were if this reported no foreign values. -/
def filtered (console : Console σ) : Console (Filtered σ) where
  machine := console.machine
  host := ⟨console.host⟩

theorem turn_filtered (console : Console σ) (tick : Tick)
    : console.filtered.turn tick = (console.turn tick).hushed := by
  cases tick with
  | instruction => exact console.machine.cycle_known _
  | timer => rfl

theorem receiveAll_filtered (host : σ) (calls : List Call)
    : Host.receiveAll (⟨host⟩ : Filtered σ) calls = ⟨Host.receiveAll host calls⟩ := by
  induction calls generalizing host with
  | nil => rfl
  | cons call rest ih => exact ih (Host.receive host call)

theorem after_filtered (console : Console σ) (turn : Turn)
    : console.filtered.after turn.hushed = (console.after turn).filtered :=
  congrArg (Console.mk turn.machine) (receiveAll_filtered console.host turn.calls)

/-- Answer for answer and turn for turn, by induction over the ticks: equal calls leave the two hosts
in the same state, so the next tick finds them alike again.
-/
theorem run_filtered (console : Console σ) (ticks : List Tick)
    : console.filtered.answers ticks = (console.answers ticks).map Keypad.known
      ∧ console.filtered.turns ticks = (console.turns ticks).map Turn.hushed
      ∧ console.filtered.run ticks = (console.run ticks).filtered := by
  induction ticks generalizing console with
  | nil => exact ⟨rfl, rfl, rfl⟩
  | cons tick rest ih =>
      have first := console.turn_filtered tick
      have next : console.filtered.after (console.filtered.turn tick)
          = (console.after (console.turn tick)).filtered := by
        rw [first, after_filtered]
      obtain ⟨answers, turns, run⟩ := ih (console.after (console.turn tick))
      refine ⟨?_, ?_, ?_⟩
      · rw [Console.answers, Console.answers, next, answers, first, Turn.hushed]
        split <;> rfl
      · rw [turns_cons, turns_cons, next, turns, first]
        rfl
      · rw [run_cons, run_cons, next, run]

end Console

-----------------------------------------------------------------------------------------
-- Runs of a scheduler before such a host
-----------------------------------------------------------------------------------------

/-- The scheduler without its notes on foreign values. -/
def Scheduler.hushed (scheduler : Scheduler) : Scheduler :=
  { scheduler with journal := scheduler.journal.filter (!·.isForeign) }

/-- What a run comes to if its host reports no foreign values. -/
def Progress.filtered {σ : Type} (progress : Progress σ) : Progress (Filtered σ) where
  scheduler := progress.scheduler.hushed
  host := ⟨progress.host⟩
  result? := progress.result?

namespace Scheduler

variable {σ : Type} [Host σ]

theorem absorb_hushed (scheduler : Scheduler) (host : σ) (turn : Turn)
    : scheduler.hushed.absorb (⟨host⟩ : Filtered σ) turn.hushed
      = (scheduler.absorb host turn).filtered := by
  have journal
      : scheduler.journal.filter (!·.isForeign) ++ turn.notes.filter (!·.isForeign)
        = (scheduler.journal ++ turn.notes).filter (!·.isForeign) := by
    apply Array.toList_inj.mp
    simp
  have received := Console.receiveAll_filtered host turn.calls
  simp only [absorb, hushed, Progress.filtered, Turn.hushed, journal, received]

theorem serve_hushed (scheduler : Scheduler) (host : σ) (wake : Wake)
    : scheduler.hushed.serve (⟨host⟩ : Filtered σ) wake
      = (scheduler.serve host wake).filtered := by
  cases wake with
  | cancelled => rfl
  | instruction =>
      simp only [serve, instructionTick]
      rw [← absorb_hushed, ← Machine.cycle_known]
      rfl
  | timer => exact scheduler.absorb_hushed host scheduler.machine.countDown

theorem conclude_hushed (scheduler : Scheduler) (host : σ) (result : Except Fault Unit)
    : scheduler.hushed.conclude (⟨host⟩ : Filtered σ) result
      = (scheduler.conclude host result).filtered := by
  cases result <;> simp [conclude, hushed, Progress.filtered, Note.isForeign, Host.receive]

/-- Wake for wake, by induction over the wakes: the results of both passes are the same, so both loops
end together.
-/
theorem serveAll_hushed (scheduler : Scheduler) (host : σ) (wakes : List Wake)
    : scheduler.hushed.serveAll (⟨host⟩ : Filtered σ) wakes
      = (scheduler.serveAll host wakes).filtered := by
  induction wakes generalizing scheduler host with
  | nil => rfl
  | cons wake rest ih =>
      rw [serveAll, serveAll, serve_hushed]
      cases served : (scheduler.serve host wake).result? with
      | some result =>
          simp only [Progress.filtered, served]
          exact conclude_hushed _ _ result
      | none =>
          simp only [Progress.filtered, served]
          exact ih _ _

theorem run_hushed (scheduler : Scheduler) (host : σ) (wakes : List Wake)
    : scheduler.hushed.run (⟨host⟩ : Filtered σ) wakes
      = (scheduler.run host wakes).filtered := by
  have started : scheduler.hushed.start = scheduler.start.hushed := by
    simp [start, hushed, Note.isForeign]
  have refused : scheduler.hushed.refuse (⟨host⟩ : Filtered σ)
      = (scheduler.refuse host).filtered := by
    simp [refuse, hushed, Progress.filtered, Note.isForeign]
  rw [run, run, refused, started, serveAll_hushed]
  cases stopped : scheduler.stopped <;> simp [hushed, stopped]

end Scheduler

/-- A machine before any host goes through the same run if foreign values are taken out of every answer
to its polls: fault for fault, call for call and machine for machine, and the host comes to the
same. Only the notes on those values are gone. A scheduler comes to the same result. A test for
the key named by a register above fifteen comes out as if the key were released, also where this
very value is reported, and a report of foreign values alone leaves an instruction that awaits a
key where it is.
-/
theorem foreign_keys_have_no_influence {σ : Type} [Host σ]
    : (∀ (console : Console σ) (ticks : List Tick),
        console.filtered.answers ticks = (console.answers ticks).map Keypad.known
        ∧ console.filtered.turns ticks = (console.turns ticks).map Turn.hushed
        ∧ console.filtered.run ticks = (console.run ticks).filtered)
      ∧ (∀ (scheduler : Scheduler) (host : σ) (wakes : List Wake),
        scheduler.hushed.run (⟨host⟩ : Filtered σ) wakes = (scheduler.run host wakes).filtered)
      ∧ ∀ (machine : Machine) (x : Nibble) (report : List UInt8),
          (Instruction.decode? machine.ahead = some (.skipPressed x)
            → 0x0F < machine.register x
            → (machine.cycle report).machine = machine.fetch)
          ∧ (Instruction.decode? machine.ahead = some (.skipReleased x)
            → 0x0F < machine.register x
            → (machine.cycle report).machine = { machine.fetch with pc := machine.pc + 4 })
          ∧ (Instruction.decode? machine.ahead = some (.awaitKey x)
            → (∀ byte ∈ report, 0x0F < byte)
            → (machine.cycle report).machine = { machine.fetch with pc := machine.pc }) := by
  refine ⟨?_, ?_, ?_⟩
  · exact fun console ticks => console.run_filtered ticks
  · exact fun scheduler host wakes => scheduler.run_hushed host wakes
  · intro machine x report
    refine ⟨?_, ?_, ?_⟩
    · exact fun tests foreign => Machine.cycle_of_skipPressed tests foreign report
    · exact fun tests foreign => Machine.cycle_of_skipReleased tests foreign report
    · exact fun awaits foreign => Machine.cycle_of_awaitKey awaits foreign

/-- A register holds nineteen and the host reports nineteen: the key tests find it released, and what
comes behind them waits.
-/
theorem reported_nineteen_is_not_held
    : let report : List UInt8 := [0x13, 0xFF]
      let console : Console Script :=
        ⟨.boot #[0x60, 0x13, 0xE0, 0x9E, 0xE0, 0xA1, 0x00, 0x00, 0xF1, 0x0A] .modern (.ofSeed 0),
          .holding report⟩
      let ticks : List Tick := [.instruction, .instruction, .timer, .instruction]
      let testing := (console.run [.instruction]).machine
      let testingAgain := (console.run [.instruction, .instruction]).machine
      let waiting := (console.run ticks).machine
      console.filtered.turns ticks = (console.turns ticks).map Turn.hushed
      ∧ testing.register 0 = 0x13
      ∧ (testing.cycle report).machine = testing.fetch
      ∧ (testingAgain.cycle report).machine
        = { testingAgain.fetch with pc := testingAgain.pc + 4 }
      ∧ (waiting.cycle report).machine = { waiting.fetch with pc := waiting.pc }
      ∧ waiting.pc = 0x208 := by
  intro report console ticks testing testingAgain waiting
  obtain ⟨runs, _, tests⟩ := @foreign_keys_have_no_influence Script _
  obtain ⟨_, turns, _⟩ := runs console ticks
  obtain ⟨pressed, _, _⟩ := tests testing 0 report
  obtain ⟨_, released, _⟩ := tests testingAgain 0 report
  obtain ⟨_, _, awaits⟩ := tests waiting 1 report
  refine ⟨turns, by decide +kernel, ?_, ?_, ?_, by decide +kernel⟩
  · exact pressed (by decide +kernel) (by decide +kernel)
  · exact released (by decide +kernel) (by decide +kernel)
  · exact awaits (by decide +kernel) (by decide +kernel)

end Chip8
