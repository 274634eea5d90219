import Chip8.Host.Script
import Chip8.Proofs.Console
import Chip8.Proofs.Effect

/-! A loaded program without jumps does what its list of instructions says: fetching and decoding
neither skip nor repeat an instruction, and behind the last one the machine faults on zeros.
-/

namespace Chip8

-----------------------------------------------------------------------------------------
-- Programs as they lie in memory
-----------------------------------------------------------------------------------------

namespace Instruction

theorem length_encodeAll (program : List Instruction)
    : (encodeAll program).length = 2 * program.length := by
  induction program with
  | nil => rfl
  | cons instruction rest ih =>
      simp only [encodeAll, List.flatMap_cons, List.length_append, List.length_cons,
        List.length_nil] at *
      omega

/-- The two bytes of an encoded program at the place of its instruction number `index`, by
induction over the program.
-/
theorem getElem?_encodeAll (program : List Instruction) (index : Nat)
    : (encodeAll program)[2 * index]? = program[index]?.map (·.encode.high)
      ∧ (encodeAll program)[2 * index + 1]? = program[index]?.map (·.encode.low) := by
  induction program generalizing index with
  | nil => simp [encodeAll]
  | cons instruction rest ih =>
      cases index with
      | zero => exact ⟨rfl, rfl⟩
      | succ index => exact ih index

end Instruction

/-- The word in place of the instruction number `index` of a program; behind the last one there
are zeros.
-/
def Instruction.wordAt (program : List Instruction) (index : Nat) : Word :=
  program[index]?.elim ⟨0x00, 0x00⟩ encode

/-- A machine that got to an instruction of its loaded program by two bytes each has that
instruction ahead. The last place lies behind the end of memory, where the fetch wraps to the
zeros below the glyphs.
-/
theorem Machine.ahead_image {machine : Machine} {program : List Instruction}
    (fits : program.length ≤ 1792)
    (loaded : machine.memory = .image (Instruction.encodeAll program).toArray) {index : Nat}
    (bound : index ≤ 1792) (pc : machine.pc = UInt16.ofNat (0x200 + 2 * index))
    : machine.ahead = Instruction.wordAt program index := by
  have place : machine.pc.toNat = 0x200 + 2 * index := by
    rw [pc, UInt16.toNat_ofNat']
    omega
  simp only [ahead, loaded, Memory.getElem_image, place]
  rcases Nat.lt_or_eq_of_le bound with inside | rfl
  · have first : (Fin.ofNat 4096 (0x200 + 2 * index)).val = 0x200 + 2 * index :=
      Nat.mod_eq_of_lt (by omega)
    have second : (Fin.ofNat 4096 (0x200 + 2 * index + 1)).val = 0x200 + (2 * index + 1) :=
      Nat.mod_eq_of_lt (by omega)
    obtain ⟨high, low⟩ := Instruction.getElem?_encodeAll program index
    rw [Memory.initial_of_program _ (by omega), Memory.initial_of_program _ (by omega), first,
      second]
    simp only [Nat.add_sub_cancel_left, Array.getD_eq_getD_getElem?, List.getElem?_toArray, high,
      low, Instruction.wordAt]
    cases program[index]? <;> rfl
  · rw [Memory.initial_of_gap _ (by decide), Memory.initial_of_gap _ (by decide),
      Instruction.wordAt, List.getElem?_eq_none fits]
    rfl

-----------------------------------------------------------------------------------------
-- Instructions that do not look at where they were fetched
-----------------------------------------------------------------------------------------

/-- Whether an instruction neither goes elsewhere nor writes memory nor asks the host. -/
def Instruction.isStraight : Instruction → Bool
  | setByte _ _ | addByte _ _ | alu _ _ _ | random _ _ | setIndex _ | addIndex _ | clear
  | draw _ _ _ | readDelay _ | setDelay _ | setSound _ | pointGlyph _ | load _ => true
  | _ => false

namespace Machine

/-- The machine as it were if it had fetched another word elsewhere. -/
def relocate (machine : Machine) (pc : UInt16) (fetched : Word) : Machine :=
  { machine with pc := pc, fetched := fetched }

/-- Straight instructions do the same wherever they were fetched, by cases over them. -/
theorem execute_relocate {instruction : Instruction} (straight : instruction.isStraight = true)
    (machine : Machine) (pc : UInt16) (fetched : Word) (report : List UInt8)
    : (machine.relocate pc fetched).execute instruction report
      = { machine.execute instruction report with
          machine := (machine.execute instruction report).machine.relocate pc fetched } := by
  cases instruction with
  | setByte | addByte | random | setIndex | clear | draw | readDelay | setDelay | setSound
  | pointGlyph => rfl
  | alu x y op => cases op <;> rfl
  | addIndex x =>
      cases kept : machine.dialect.keepsFlagOnIndexAdd <;>
        simp only [execute, advanceIndex, relocate, kept] <;> rfl
  | load x =>
      cases advances : machine.dialect.advancesIndex <;>
        simp only [execute, loadRegisters, settleIndex, relocate, advances] <;> rfl
  | _ => contradiction

theorem execute_memory_of_straight {instruction : Instruction}
    (straight : instruction.isStraight = true) (machine : Machine) (report : List UInt8)
    : (machine.execute instruction report).machine.memory = machine.memory := by
  rw [execute_memory]
  cases instruction with
  | storeDecimal | store => contradiction
  | _ => rfl

theorem execute_fault?_of_straight {instruction : Instruction}
    (straight : instruction.isStraight = true) (machine : Machine) (report : List UInt8)
    : (machine.execute instruction report).fault? = none := by
  rw [execute_fault?, if_neg]
  rintro ⟨rfl, _⟩
  contradiction

-----------------------------------------------------------------------------------------
-- One instruction fetched from memory, and the same taken from the list
-----------------------------------------------------------------------------------------

/-- Two machines that are through with the same instructions of a program, one fetching them from
memory and the other taking them from a list: they differ in what fetching leaves behind, and
the program is still in memory.
-/
structure InStep (program : List Instruction) (index : Nat) (word : Word)
    (fetching direct : Machine)
    : Prop where
  located : fetching = direct.relocate (UInt16.ofNat (0x200 + 2 * index)) word
  loaded : direct.memory = .image (Instruction.encodeAll program).toArray

namespace InStep

variable {program : List Instruction} {index : Nat} {word : Word} {fetching direct : Machine}

theorem ahead (h : InStep program index word fetching direct) (fits : program.length ≤ 1792)
    (bound : index ≤ 1792)
    : fetching.ahead = Instruction.wordAt program index := by
  apply Machine.ahead_image fits _ bound
  · rw [h.located]
    rfl
  · rw [h.located]
    exact h.loaded

theorem fetch (h : InStep program index word fetching direct) (fits : program.length ≤ 1792)
    (bound : index < 1792)
    : fetching.fetch
      = direct.relocate (UInt16.ofNat (0x200 + 2 * (index + 1)))
          (Instruction.wordAt program index) := by
  have pc : fetching.pc = UInt16.ofNat (0x200 + 2 * index) := by
    rw [h.located]
    rfl
  have next : (fetching.pc.toNat + 2) % 65536 = 0x200 + 2 * (index + 1) := by
    rw [pc, UInt16.toNat_ofNat']
    omega
  rw [fetch_eq, h.ahead fits (by omega), next, h.located]
  rfl

/-- A cycle does to the one machine what the listed instruction does to the other. -/
theorem cycle (h : InStep program index word fetching direct) (fits : program.length ≤ 1792)
    {instruction : Instruction} (here : program[index]? = some instruction)
    (straight : instruction.isStraight = true) (report : List UInt8)
    : InStep program (index + 1) instruction.encode (fetching.cycle report).machine
        (direct.execute instruction report).machine
      ∧ (fetching.cycle report).calls = (direct.execute instruction report).calls
      ∧ (fetching.cycle report).fault? = none := by
  have inside : index < program.length := (List.getElem?_eq_some_iff.mp here).1
  have word : Instruction.wordAt program index = instruction.encode := by
    rw [Instruction.wordAt, here]
    rfl
  have decodes : Instruction.decode? fetching.ahead = some instruction := by
    rw [h.ahead fits (by omega), word, Instruction.decode?_encode]
  rw [cycle_of_some report decodes, h.fetch fits (by omega), execute_relocate straight, word]
  refine ⟨⟨rfl, ?_⟩, rfl, execute_fault?_of_straight straight direct report⟩
  rw [execute_memory_of_straight straight, h.loaded]

theorem countDown (h : InStep program index word fetching direct)
    : InStep program index word fetching.countDown.machine direct.countDown.machine
      ∧ fetching.countDown.calls = direct.countDown.calls
      ∧ fetching.countDown.fault? = none := by
  rw [h.located]
  exact ⟨⟨rfl, h.loaded⟩, rfl, rfl⟩

end InStep

end Machine

-----------------------------------------------------------------------------------------
-- Whole programs, with the timers counted at any points
-----------------------------------------------------------------------------------------

/-- A step of a performance that fetches nothing: a given instruction, or a count of the timers. -/
inductive Cue where
  | execute (instruction : Instruction)
  | countDown

namespace Cue

/-- The tick that takes the place of a cue where instructions are fetched from memory. -/
def tick : Cue → Tick
  | execute _ => .instruction
  | countDown => .timer

/-- The instructions of a score, in order. -/
def instructions (score : List Cue) : List Instruction :=
  score.filterMap fun
    | execute instruction => some instruction
    | countDown => none

theorem instructions_execute (instruction : Instruction) (rest : List Cue)
    : instructions (.execute instruction :: rest) = instruction :: instructions rest :=
  rfl

end Cue

/-- The turn that a cue leads to. -/
def Console.cued {σ : Type} [Host σ] (console : Console σ) : Cue → Turn
  | .execute instruction => console.machine.execute instruction (Host.pressedKeys console.host)
  | .countDown => console.machine.countDown

theorem Instruction.lastWord_cons (instruction : Instruction) (rest : List Instruction)
    (word : Word)
    : (instruction :: rest).getLast?.elim word encode
      = rest.getLast?.elim instruction.encode encode := by
  rw [List.getLast?_cons]
  cases rest.getLast? <;> rfl

/-- The first instruction of what is left of a program has its number, and behind it is left what
follows.
-/
theorem Instruction.of_cons_prefix_drop {program rest : List Instruction} {index : Nat}
    {instruction : Instruction} (h : instruction :: rest <+: program.drop index)
    : program[index]? = some instruction ∧ rest <+: program.drop (index + 1) := by
  obtain ⟨behind, split, follows⟩ := List.cons_prefix_iff.mp h
  constructor
  · have first := congrArg (·[0]?) split
    simpa only [List.getElem?_drop, Nat.add_zero, List.getElem?_cons_zero] using first
  · have tail := congrArg List.tail split
    rw [List.tail_drop, List.tail_cons] at tail
    exact tail ▸ follows

/-- Consoles in step stay in step while one is ticked and the other is cued, by induction over
the score: each cue takes one step of both, and equal calls leave their hosts in one state.
-/
theorem Machine.InStep.perform {σ : Type} [Host σ] {program : List Instruction}
    (fits : program.length ≤ 1792)
    (straight : ∀ instruction ∈ program, instruction.isStraight = true)
    {index : Nat} {word : Word} {fetching direct : Console σ}
    (h : InStep program index word fetching.machine direct.machine)
    (hosts : fetching.host = direct.host) {score : List Cue}
    (follows : Cue.instructions score <+: program.drop index)
    : InStep program (index + (Cue.instructions score).length)
          ((Cue.instructions score).getLast?.elim word Instruction.encode)
          (fetching.run (score.map Cue.tick)).machine
          (direct.runBy Console.cued score).machine
      ∧ (fetching.turns (score.map Cue.tick)).map Turn.calls
        = (direct.turnsBy Console.cued score).map Turn.calls
      ∧ ∀ turn ∈ fetching.turns (score.map Cue.tick), turn.fault? = none := by
  induction score generalizing index word fetching direct with
  | nil => exact ⟨h, rfl, by simp [Console.turns, Console.turnsBy]⟩
  | cons cue rest ih =>
      obtain ⟨fetching, host⟩ := fetching
      obtain ⟨direct, _⟩ := direct
      obtain rfl : host = _ := hosts
      cases cue with
      | countDown =>
          obtain ⟨next, calls, faultless⟩ := h.countDown
          have sameHosts := Console.host_after_congr ⟨fetching, host⟩ ⟨direct, host⟩ rfl calls
          obtain ⟨last, laterCalls, laterFaultless⟩ := ih next sameHosts follows
          exact ⟨last, List.cons_eq_cons.mpr ⟨calls, laterCalls⟩,
            List.forall_mem_cons.mpr ⟨faultless, laterFaultless⟩⟩
      | execute instruction =>
          obtain ⟨here, behind⟩ := Instruction.of_cons_prefix_drop follows
          have plain := straight instruction (List.mem_of_getElem? here)
          obtain ⟨next, calls, faultless⟩ := h.cycle fits here plain (Host.pressedKeys host)
          have sameHosts := Console.host_after_congr ⟨fetching, host⟩ ⟨direct, host⟩ rfl calls
          obtain ⟨last, laterCalls, laterFaultless⟩ := ih next sameHosts behind
          refine ⟨?_, List.cons_eq_cons.mpr ⟨calls, laterCalls⟩,
            List.forall_mem_cons.mpr ⟨faultless, laterFaultless⟩⟩
          have count : index + (Cue.instructions (.execute instruction :: rest)).length
              = index + 1 + (Cue.instructions rest).length := by
            rw [Cue.instructions_execute, List.length_cons]
            omega
          rw [count, Cue.instructions_execute, Instruction.lastWord_cons]
          exact last

/-- A machine behind the last instruction of its loaded program faults on two zeros there. -/
theorem Machine.InStep.cycle_behind {program : List Instruction} {word : Word}
    {fetching direct : Machine} (h : InStep program program.length word fetching direct)
    (fits : program.length ≤ 1792) (report : List UInt8)
    : (fetching.cycle report).fault?
      = some
          (.unknownInstruction (UInt16.ofNat ((0x200 + 2 * program.length) % 4096))
            ⟨0x00, 0x00⟩) := by
  have zeros : fetching.ahead = ⟨0x00, 0x00⟩ := by
    rw [h.ahead fits fits, Instruction.wordAt, List.getElem?_eq_none (Nat.le_refl _)]
    rfl
  have pc : fetching.pc.toNat = 0x200 + 2 * program.length := by
    rw [h.located]
    show (UInt16.ofNat _).toNat = _
    rw [UInt16.toNat_ofNat']
    omega
  have undecodable : Instruction.decode? fetching.ahead = none := by
    rw [zeros]
    rfl
  rw [cycle_of_none report undecodable, zeros, pc]

/-- A program of straight instructions that fits can be loaded, and the machine then does what
the list of its instructions says: after any number of instruction ticks, with timer ticks at any
points, it is the machine that executes as many instructions directly, except for the address
and the word that fetching leaves behind. The host receives the same calls in the same order,
nothing faults before the end, and the tick behind the last instruction faults on two zeros.
-/
theorem straight_programs_run_as_listed {σ : Type} [Host σ] (program : List Instruction)
    (fits : program.length ≤ 1792)
    (straight : ∀ instruction ∈ program, instruction.isStraight = true)
    (dialect : Dialect) (random : Generator) (host : σ)
    : ∃ machine,
        Machine.load (Instruction.encodeAll program).toArray dialect random = .ok machine
        ∧ ∀ n ≤ program.length,
            ∀ score,
              Cue.instructions score = program.take n
              → ((⟨machine, host⟩ : Console σ).run (score.map Cue.tick)).machine
                  = ((⟨machine, host⟩ : Console σ).runBy Console.cued score).machine.relocate
                      (UInt16.ofNat (0x200 + 2 * n))
                      ((program.take n).getLast?.elim ⟨0x00, 0x00⟩ Instruction.encode)
                ∧ ((⟨machine, host⟩ : Console σ).turns (score.map Cue.tick)).map Turn.calls
                  = ((⟨machine, host⟩ : Console σ).turnsBy Console.cued score).map Turn.calls
                ∧ (∀ turn ∈ (⟨machine, host⟩ : Console σ).turns (score.map Cue.tick),
                    turn.fault? = none)
                ∧ (n = program.length
                  → (((⟨machine, host⟩ : Console σ).run (score.map Cue.tick)).turn
                        .instruction).fault?
                    = some
                        (.unknownInstruction
                          (UInt16.ofNat ((0x200 + 2 * program.length) % 4096))
                          ⟨0x00, 0x00⟩)) := by
  have small : (Instruction.encodeAll program).toArray.size ≤ Memory.capacity := by
    rw [List.size_toArray, Instruction.length_encodeAll]
    show 2 * program.length ≤ 4096 - 0x200
    omega
  refine ⟨.boot (Instruction.encodeAll program).toArray dialect random, if_pos small, ?_⟩
  intro n within score listed
  let console : Console σ :=
    ⟨.boot (Instruction.encodeAll program).toArray dialect random, host⟩
  have start : Machine.InStep program 0 ⟨0x00, 0x00⟩ console.machine console.machine :=
    ⟨rfl, rfl⟩
  have follows : Cue.instructions score <+: program.drop 0 := by
    rw [listed, List.drop_zero]
    exact List.take_prefix n program
  obtain ⟨last, calls, faultless⟩ := start.perform fits straight rfl follows
  rw [listed, List.length_take_of_le within, Nat.zero_add] at last
  refine ⟨last.located, calls, faultless, ?_⟩
  rintro rfl
  exact last.cycle_behind fits _

/-- A program that fills memory to the end runs into the zeros at its start. -/
theorem full_memory_faults_at_zero
    : ∃ machine,
        Machine.load
            (Instruction.encodeAll (List.replicate 1792 (.addByte 15 1))).toArray .modern
            (.ofSeed 0)
          = .ok machine
        ∧ (((⟨machine, Script.holding []⟩ : Console Script).run
                (List.replicate 1792 .instruction)).turn .instruction).fault?
          = some (.unknownInstruction 0 ⟨0x00, 0x00⟩) := by
  have length : (List.replicate 1792 (Instruction.addByte 15 1)).length = 1792 :=
    List.length_replicate
  have straight
      : ∀ instruction ∈ List.replicate 1792 (Instruction.addByte 15 1),
          instruction.isStraight = true := by
    intro instruction listed
    rw [List.eq_of_mem_replicate listed]
    rfl
  have score
      : Cue.instructions (List.replicate 1792 (.execute (.addByte 15 1)))
        = (List.replicate 1792 (Instruction.addByte 15 1)).take 1792 := by
    rw [List.take_replicate, Nat.min_self, Cue.instructions, List.filterMap_replicate]
  obtain ⟨machine, loads, runs⟩ :=
    straight_programs_run_as_listed _ (Nat.le_of_eq length) straight .modern (.ofSeed 0)
      (Script.holding [])
  obtain ⟨_, _, _, behind⟩ := runs 1792 (Nat.le_of_eq length.symm) _ score
  have fault := behind length.symm
  rw [List.map_replicate, length] at fault
  exact ⟨machine, loads, fault⟩

end Chip8
