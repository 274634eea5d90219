import Chip8.Proofs.Effect

/-! When a cycle ends in a fault, which fault it is, and what has happened to the machine and its
host by then: nothing but the fetch.
-/

namespace Chip8

/-- A return has one spelling. -/
theorem Instruction.decode?_eq_ret_iff {word : Word}
    : decode? word = some .ret ↔ word = ⟨0x00, 0xEE⟩ := by
  constructor
  · intro decodes
    exact (encode_of_decode? decodes).symm
  · rintro rfl
    rfl

namespace Machine

-----------------------------------------------------------------------------------------
-- Which fault a cycle ends in
-----------------------------------------------------------------------------------------

/-- A word that stands for no instruction is one reason for a fault, a return without a call the
other. The words of the two are different, so no cycle has both.
-/
theorem cycle_fault?_iff (machine : Machine) (report : List UInt8) (fault : Fault)
    : (machine.cycle report).fault? = some fault
      ↔ (Instruction.decode? machine.ahead = none
          ∧ fault
            = .unknownInstruction (UInt16.ofNat (machine.pc.toNat % 4096)) machine.ahead)
        ∨ (machine.ahead = ⟨0x00, 0xEE⟩
          ∧ machine.stack = []
          ∧ fault = .emptyStack (UInt16.ofNat (machine.pc.toNat % 4096))) := by
  cases decodes : Instruction.decode? machine.ahead with
  | none =>
      have other : machine.ahead ≠ ⟨0x00, 0xEE⟩ := by
        intro returns
        rw [Instruction.decode?_eq_ret_iff.mpr returns] at decodes
        contradiction
      simp [cycle_of_none report decodes, other, eq_comm]
  | some instruction =>
      have returns : machine.ahead = ⟨0x00, 0xEE⟩ ↔ instruction = .ret := by
        rw [← Instruction.decode?_eq_ret_iff, decodes, Option.some.injEq]
      have stack : machine.fetch.stack = machine.stack := rfl
      simp only [cycle_of_some report decodes, execute_fault?, lastAddress_fetch, stack, returns]
      split
      · rename_i due
        simp [due, eq_comm]
      · rename_i notDue
        constructor
        · intro impossible
          contradiction
        · rintro (⟨impossible, _⟩ | ⟨returns, empty, _⟩)
          · contradiction
          · exact absurd ⟨returns, empty⟩ notDue

-----------------------------------------------------------------------------------------
-- What a faulting cycle leaves behind
-----------------------------------------------------------------------------------------

theorem execute_ret_of_nil {machine : Machine} (report : List UInt8)
    (empty : machine.stack = [])
    : machine.execute .ret report
      = { machine := machine, fault? := some (.emptyStack machine.lastAddress) } := by
  simp only [execute, empty]

/-- Neither kind of fault gets further than the fetch, by cases over the reasons. -/
theorem cycle_of_fault {machine : Machine} {report : List UInt8} {fault : Fault}
    (faults : (machine.cycle report).fault? = some fault)
    : (machine.cycle report).calls = []
      ∧ (machine.cycle report).machine = machine.fetch := by
  rcases (cycle_fault?_iff machine report fault).mp faults with
    ⟨undecodable, _⟩ | ⟨returns, empty, _⟩
  · rw [cycle_of_none report undecodable]
    exact ⟨rfl, rfl⟩
  · have decodes := Instruction.decode?_eq_ret_iff.mpr returns
    have fetchedEmpty : machine.fetch.stack = [] := empty
    rw [cycle_of_some report decodes, execute_ret_of_nil report fetchedEmpty]
    exact ⟨rfl, rfl⟩

/-- A cycle faults exactly if the two bytes ahead stand for no instruction, or are a return while
no call is open; the fault names the address they came from and no other fault occurs. A cycle
that faults calls nobody and changes the machine only by fetching.
-/
theorem faults_are_exact (machine : Machine) (report : List UInt8)
    : (∀ fault,
        (machine.cycle report).fault? = some fault
        ↔ (Instruction.decode? machine.ahead = none
            ∧ fault
              = .unknownInstruction (UInt16.ofNat (machine.pc.toNat % 4096)) machine.ahead)
          ∨ (machine.ahead = ⟨0x00, 0xEE⟩
            ∧ machine.stack = []
            ∧ fault = .emptyStack (UInt16.ofNat (machine.pc.toNat % 4096))))
      ∧ ((machine.cycle report).fault?.isSome = true
        → (machine.cycle report).calls = []
          ∧ (machine.cycle report).machine
            = { machine with
                fetched := machine.ahead
                pc := UInt16.ofNat ((machine.pc.toNat + 2) % 65536) }) := by
  constructor
  · exact cycle_fault?_iff machine report
  · intro some
    obtain ⟨fault, faults⟩ := Option.isSome_iff_exists.mp some
    obtain ⟨silent, fetched⟩ := cycle_of_fault faults
    exact ⟨silent, fetched.trans machine.fetch_eq⟩

theorem cycle_faults_across_wrap
    : (cycle { boot #[] .modern (.ofSeed 0) with pc := 0xFFFF } []).fault?.isSome = true
      ∧ (cycle { boot #[] .modern (.ofSeed 0) with pc := 0xFFFF } []).calls = []
      ∧ (cycle { boot #[] .modern (.ofSeed 0) with pc := 0xFFFF } []).machine
        = { boot #[] .modern (.ofSeed 0) with fetched := ⟨0x00, 0x00⟩, pc := 0x0001 } := by
  have faults
      : (cycle { boot #[] .modern (.ofSeed 0) with pc := 0xFFFF } []).fault?.isSome = true := by
    decide +kernel
  have word : ahead { boot #[] .modern (.ofSeed 0) with pc := 0xFFFF } = ⟨0x00, 0x00⟩ := by
    decide +kernel
  have fetched := (faults_are_exact _ []).2 faults
  rw [word] at fetched
  exact ⟨faults, fetched⟩

end Machine

end Chip8
