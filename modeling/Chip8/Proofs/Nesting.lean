import Chip8.Host.Script
import Chip8.Proofs.Fault
import Chip8.Proofs.History
import Mathlib.Data.List.Infix

/-! How calls and returns nest. A call leaves the open calls below it as they are until the return
that belongs to it, which comes back behind the call; over a whole run the open calls are those
made and not returned from.
-/

namespace Chip8

-----------------------------------------------------------------------------------------
-- One tick
-----------------------------------------------------------------------------------------

namespace Machine

theorem cycle_stack (machine : Machine) (report : List UInt8)
    : (machine.cycle report).machine.stack
      = (Instruction.decode? machine.ahead).elim machine.stack machine.fetch.stackAfter := by
  rw [machine_cycle]
  cases Instruction.decode? machine.ahead with
  | none => rfl
  | some instruction => exact machine.fetch.execute_stack instruction report

/-- A return goes to the latest return address and takes it off the stack. -/
theorem cycle_ret {machine : Machine} {address : UInt16} {rest : List UInt16}
    (returns : Instruction.decode? machine.ahead = some .ret)
    (stack : machine.stack = address :: rest) (report : List UInt8)
    : (machine.cycle report).machine.stack = rest
      ∧ (machine.cycle report).machine.pc = address := by
  have fetchedStack : machine.fetch.stack = address :: rest := stack
  rw [machine_cycle, returns, Option.elim_some]
  simp only [execute, fetchedStack, and_self]

/-- A return faults exactly if there is no call to return from. -/
theorem cycle_fault?_of_ret {machine : Machine}
    (returns : Instruction.decode? machine.ahead = some .ret) (report : List UInt8)
    : (machine.cycle report).fault?
      = if machine.stack = [] then
          some (.emptyStack (UInt16.ofNat (machine.pc.toNat % 4096)))
        else none := by
  have stack : machine.fetch.stack = machine.stack := rfl
  rw [cycle_of_some report returns]
  simp only [execute_fault?, stack, lastAddress_fetch, true_and]

end Machine

namespace Turn

/-- Whether a call was executed. -/
def enters (turn : Turn) : Bool :=
  match turn.executed? with
  | some (.call _) => true
  | _ => false

/-- Whether a return was executed that had a call to return from. -/
def leaves (turn : Turn) : Bool :=
  decide (turn.executed? = some .ret ∧ turn.fault? = none)

end Turn

namespace Console

variable {σ : Type} [Host σ] {console : Console σ} {back : UInt16} {below : List UInt16}

/-- A tick leaves a return address and those below it on the stack, or it is the return that takes
this address and leaves those below it. By the three things an instruction can do to the stack.
-/
theorem opened_turn (opened : back :: below <:+ console.machine.stack) (tick : Tick)
    : back :: below <:+ (console.turn tick).machine.stack
      ∨ (console.turn tick).executed? = some .ret
        ∧ (console.turn tick).machine.stack = below
        ∧ (console.turn tick).machine.pc = back := by
  cases tick with
  | timer => exact .inl opened
  | instruction =>
      have stack := console.machine.cycle_stack (Host.pressedKeys console.host)
      rw [executed?_turn, turn, stack]
      cases decodes : Instruction.decode? console.machine.ahead with
      | none => exact .inl opened
      | some instruction =>
          cases instruction with
          | call nnn => exact .inl (opened.trans (List.suffix_cons _ _))
          | ret =>
              obtain ⟨above, split⟩ := opened
              cases above with
              | nil =>
                  obtain ⟨left, went⟩ :=
                    Machine.cycle_ret decodes split.symm (Host.pressedKeys console.host)
                  rw [stack, decodes] at left
                  exact .inr ⟨rfl, left, went⟩
              | cons latest above =>
                  have rest : console.machine.stack.tail = above ++ back :: below :=
                    congrArg List.tail split.symm
                  exact .inl ⟨above, rest.symm⟩
          | _ => exact .inl opened

theorem opened_call {nnn : Target}
    (calls : Instruction.decode? console.machine.ahead = some (.call nnn))
    : console.machine.fetch.pc :: console.machine.stack
      <:+ (console.turn .instruction).machine.stack := by
  have stack := console.machine.cycle_stack (Host.pressedKeys console.host)
  rw [calls] at stack
  exact stack ▸ List.suffix_refl _

/-- The tick behind which a call is no longer open is the return that belongs to it. -/
theorem closed_turn (opened : back :: below <:+ console.machine.stack) {tick : Tick}
    (closed : (console.turn tick).machine.stack.length = below.length)
    : (console.turn tick).executed? = some .ret
      ∧ (console.turn tick).machine.stack = below
      ∧ (console.turn tick).machine.pc = back := by
  rcases console.opened_turn opened tick with still | returned
  · have longer := still.length_le
    rw [List.length_cons] at longer
    omega
  · exact returned

/-- While a call is open, no return lacks a call to return from. -/
theorem not_emptyStack_of_opened (opened : back :: below <:+ console.machine.stack) (tick : Tick)
    (address : UInt16)
    : (console.turn tick).fault? ≠ some (.emptyStack address) := by
  intro faults
  cases tick with
  | timer => contradiction
  | instruction =>
      rcases (Machine.cycle_fault?_iff _ _ _).mp faults with ⟨_, other⟩ | ⟨_, empty, _⟩
      · contradiction
      · rw [empty] at opened
        exact absurd (List.suffix_nil.mp opened) (List.cons_ne_nil back below)

/-- A tick makes the stack deeper by the call and shallower by the return that it executes. -/
theorem depth_turn (console : Console σ) (tick : Tick)
    : (console.turn tick).machine.stack.length + (console.turn tick).leaves.toNat
      = console.machine.stack.length + (console.turn tick).enters.toNat := by
  cases tick with
  | timer => rfl
  | instruction =>
      have stack := console.machine.cycle_stack (Host.pressedKeys console.host)
      rw [Turn.leaves, Turn.enters, executed?_turn, turn, stack]
      cases decodes : Instruction.decode? console.machine.ahead with
      | none => rfl
      | some instruction =>
          cases instruction with
          | call nnn => rfl
          | ret =>
              rw [Machine.cycle_fault?_of_ret decodes]
              show console.machine.stack.tail.length + _ = console.machine.stack.length + 0
              cases console.machine.stack with
              | nil => rfl
              | cons latest rest => rfl
          | _ => rfl

-----------------------------------------------------------------------------------------
-- Runs
-----------------------------------------------------------------------------------------

/-- At no moment of a run, its start and its end included, is the stack as deep as given. -/
def Avoids (console : Console σ) (depth : Nat) (ticks : List Tick) : Prop :=
  ∀ moment, moment <+: ticks → (console.run moment).machine.stack.length ≠ depth

theorem Avoids.later {depth : Nat} {tick : Tick} {rest : List Tick}
    (avoids : console.Avoids depth (tick :: rest))
    : (console.after (console.turn tick)).Avoids depth rest := by
  intro moment earlier
  exact avoids (tick :: moment) (List.cons_prefix_cons.mpr ⟨rfl, earlier⟩)

/-- A return address stays on the stack with those below it until the stack is as deep as these, by
induction over the ticks: the only tick that takes it leaves the stack that deep.
-/
theorem opened_run (opened : back :: below <:+ console.machine.stack) {ticks : List Tick}
    (avoids : console.Avoids below.length ticks)
    : back :: below <:+ (console.run ticks).machine.stack := by
  induction ticks generalizing console with
  | nil => exact opened
  | cons tick rest ih =>
      rw [run_cons]
      rcases console.opened_turn opened tick with still | ⟨_, left, _⟩
      · exact ih still avoids.later
      · have back : (console.after (console.turn tick)).machine.stack.length = below.length :=
          congrArg List.length left
        exact absurd back (avoids.later [] List.nil_prefix)

/-- The depth of the stack tells the calls that were made and not returned from, by induction over
the ticks.
-/
theorem depth_run (console : Console σ) (ticks : List Tick)
    : (console.run ticks).machine.stack.length + (console.turns ticks).countP Turn.leaves
      = console.machine.stack.length + (console.turns ticks).countP Turn.enters := by
  induction ticks generalizing console with
  | nil => rfl
  | cons tick rest ih =>
      have first := console.depth_turn tick
      have later := ih (console.after (console.turn tick))
      have number (b : Bool) : (if b = true then 1 else 0) = b.toNat := by
        cases b <;> rfl
      rw [run_cons, turns_cons, List.countP_cons, List.countP_cons, number, number]
      simp only [after] at later ⊢
      omega

/-- Behind a run from an empty stack, a return faults exactly if each call was returned from. -/
theorem ret_faults_iff (empty : console.machine.stack = []) {ticks : List Tick}
    (returns : ((console.run ticks).turn .instruction).executed? = some .ret)
    : ((console.run ticks).turn .instruction).fault?.isSome = true
      ↔ (console.turns ticks).countP Turn.enters = (console.turns ticks).countP Turn.leaves := by
  have depth := console.depth_run ticks
  rw [empty, List.length_nil, Nat.zero_add] at depth
  have balanced : (console.run ticks).machine.stack = []
      ↔ (console.turns ticks).countP Turn.enters = (console.turns ticks).countP Turn.leaves := by
    rw [← List.length_eq_zero_iff]
    omega
  rw [executed?_turn] at returns
  rw [← balanced, turn, Machine.cycle_fault?_of_ret returns]
  split
  · rename_i noneOpen
    exact iff_of_true rfl noneOpen
  · rename_i someOpen
    exact iff_of_false Bool.false_ne_true someOpen

end Console

/-- Behind a call, until the stack is as deep again as before it, the return addresses of the caller
stay below on the stack, no return lacks a call, and the tick that makes the stack as deep again
is a return that leaves exactly these addresses and goes on two bytes behind the call. Over a
whole run of a freshly loaded machine, whatever else is executed, faults or counts the timers, the
stack is as deep as calls were made less those returned from, and a return faults exactly if
these are equally many.
-/
theorem returns_match_their_calls {σ : Type} [Host σ]
    : (∀ (console : Console σ) (nnn : Target),
        Instruction.decode? console.machine.ahead = some (.call nnn)
        → let caller := console.machine
          let inside := console.after (console.turn .instruction)
          ∀ ticks,
            inside.Avoids caller.stack.length ticks
            → caller.stack.length < (inside.run ticks).machine.stack.length
              ∧ caller.stack <:+ (inside.run ticks).machine.stack
              ∧ ∀ tick,
                  (∀ address,
                    ((inside.run ticks).turn tick).fault? ≠ some (.emptyStack address))
                  ∧ ((inside.run (ticks ++ [tick])).machine.stack.length = caller.stack.length
                    → ((inside.run ticks).turn tick).executed? = some .ret
                      ∧ (inside.run (ticks ++ [tick])).machine.stack = caller.stack
                      ∧ (inside.run (ticks ++ [tick])).machine.pc.toNat
                        = (caller.pc.toNat + 2) % 65536))
      ∧ ∀ (program : Array UInt8) (dialect : Dialect) (random : Generator)
          (console : Console σ),
          Machine.load program dialect random = .ok console.machine
          → ∀ ticks,
              let calls := (console.turns ticks).countP Turn.enters
              let returns := (console.turns ticks).countP Turn.leaves
              (console.run ticks).machine.stack.length + returns = calls
              ∧ (((console.run ticks).turn .instruction).executed? = some .ret
                → (((console.run ticks).turn .instruction).fault?.isSome = true
                  ↔ calls = returns)) := by
  constructor
  · intro console nnn calls caller inside ticks avoids
    have opened : caller.fetch.pc :: caller.stack <:+ inside.machine.stack :=
      Console.opened_call calls
    have still := Console.opened_run opened avoids
    have deeper := still.length_le
    rw [List.length_cons] at deeper
    refine ⟨deeper, (List.suffix_cons _ _).trans still, ?_⟩
    intro tick
    refine ⟨Console.not_emptyStack_of_opened still tick, ?_⟩
    intro came
    rw [Console.run_append] at came ⊢
    obtain ⟨returns, left, went⟩ := Console.closed_turn still came
    refine ⟨returns, left, ?_⟩
    have place : ((inside.run ticks).turn tick).machine.pc.toNat = caller.fetch.pc.toNat :=
      congrArg UInt16.toNat went
    exact place.trans (by rw [Machine.fetch_eq, UInt16.toNat_ofNat']; omega)
  · intro program dialect random console loads ticks calls returns
    obtain ⟨_, booted⟩ := Machine.load_eq_ok_iff.mp loads
    have empty : console.machine.stack = [] := by
      rw [booted]
      rfl
    have depth := console.depth_run ticks
    rw [empty, List.length_nil, Nat.zero_add] at depth
    exact ⟨depth, fun executes => Console.ret_faults_iff empty executes⟩

/-- A call at the last address, with another one open, leads through a nested call and an unknown
word and comes back to the first address. In a run of the same program from its start, the return
behind the two matched ones faults.
-/
theorem nested_calls_come_back
    : let program : Array UInt8 :=
        #[0x22, 0x04, 0x00, 0xEE, 0x22, 0x08, 0x00, 0xEE, 0xFF, 0xFF, 0x00, 0xEE]
      let ticks : List Tick := [.instruction, .instruction, .timer, .instruction]
      (let caller : Console Script :=
          ⟨{ Machine.boot program .modern (.ofSeed 0) with
              memory := (Memory.image program).writeRun 0x0FFE [0x22, 0x04]
              pc := 0xFFFE
              stack := [0x0300] },
            .holding []⟩
        let inside := caller.after (caller.turn .instruction)
        inside.Avoids 1 ticks
        ∧ (inside.run (ticks ++ [.instruction])).machine.stack = [0x0300]
        ∧ (inside.run (ticks ++ [.instruction])).machine.pc.toNat = 0)
      ∧ ∃ machine,
          Machine.load program .modern (.ofSeed 0) = .ok machine
          ∧ (((⟨machine, .holding []⟩ : Console Script).run
                (.instruction :: (ticks ++ [.instruction]))).turn .instruction).fault?.isSome
            = true := by
  intro program ticks
  constructor
  · intro caller inside
    have calls : Instruction.decode? caller.machine.ahead = some (.call ⟨0x204, by decide⟩) := by
      decide +kernel
    have avoids : inside.Avoids 1 ticks := by
      have never
          : ∀ moment ∈ ticks.inits, (inside.run moment).machine.stack.length ≠ 1 := by
        decide +kernel
      exact fun moment earlier => never moment ((List.mem_inits moment ticks).mpr earlier)
    obtain ⟨_, _, ends⟩ := returns_match_their_calls.1 caller _ calls ticks avoids
    obtain ⟨_, left, went⟩ := (ends .instruction).2 (by decide +kernel)
    have wraps : (caller.machine.pc.toNat + 2) % 65536 = 0 := by
      decide +kernel
    exact ⟨avoids, left, went.trans wraps⟩
  · let console : Console Script := ⟨.boot program .modern (.ofSeed 0), .holding []⟩
    have loads : Machine.load program .modern (.ofSeed 0) = .ok console.machine := rfl
    obtain ⟨_, faults⟩ :=
      returns_match_their_calls.2 program .modern (.ofSeed 0) console loads
        (.instruction :: (ticks ++ [.instruction]))
    exact ⟨_, loads, (faults (by decide +kernel)).mpr (by decide +kernel)⟩

end Chip8
