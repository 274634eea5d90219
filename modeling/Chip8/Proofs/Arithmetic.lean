import Chip8.Proofs.Footprint
import Mathlib.Data.Nat.Bitwise

/-! Operations on two registers, against arithmetic on whole numbers: which number an operation
comes to, which flag it gives, and where the two go, also if the registers that it names are one
register or the flag register.
-/

namespace Chip8

namespace AluOp

-----------------------------------------------------------------------------------------
-- Bytes as numbers
-----------------------------------------------------------------------------------------

theorem toNat_sub (a b : UInt8)
    : (a - b).toNat = (((a.toNat : Int) - b.toNat) % 256).toNat := by
  have first := a.toNat_lt
  have second := b.toNat_lt
  rw [UInt8.toNat_sub]
  omega

theorem toNat_half (byte : UInt8) : (byte >>> 1).toNat = byte.toNat / 2 := by
  rw [UInt8.toNat_shiftRight]
  exact Nat.shiftRight_one byte.toNat

theorem toNat_double (byte : UInt8) : (byte <<< 1).toNat = 2 * byte.toNat % 256 := by
  rw [UInt8.toNat_shiftLeft]
  show byte.toNat <<< 1 % 256 = _
  rw [Nat.shiftLeft_eq, Nat.mul_comm]

/-- A mask of one bit leaves nothing exactly if the bit is not set. -/
theorem toNat_masked (byte : UInt8) {mask : UInt8} {place : Nat}
    (single : mask.toNat = 2 ^ place)
    : (byte &&& mask != 0).toNat = byte.toNat / 2 ^ place % 2 := by
  have bit : (byte &&& mask != 0) = byte.toNat.testBit place := by
    rw [Bool.eq_iff_iff, bne_iff_ne, ← UInt8.toNat_inj.ne, UInt8.toNat_and, single,
      Nat.and_two_pow]
    cases byte.toNat.testBit place <;> simp
  rw [bit, Nat.toNat_testBit]

theorem toNat_condition (condition : Prop) [Decidable condition]
    : (decide condition).toNat = if condition then 1 else 0 := by
  split
  · next holds => rw [decide_eq_true holds]; rfl
  · next fails => rw [decide_eq_false fails]; rfl

-----------------------------------------------------------------------------------------
-- The operations by their digits
-----------------------------------------------------------------------------------------

/-- What the operation with a last digit comes to on two operands and the operand of a shift, and
the flag that it gives, if it gives one. Operands, result and flag are bytes read as numbers. Seven
digits have no operation.
-/
def outcome? (a b shifted : Nat) : Nibble → Option (Nat × Option Nat)
  | 0x0 => some (b, none)
  | 0x1 => some (a ||| b, none)
  | 0x2 => some (a &&& b, none)
  | 0x3 => some (a ^^^ b, none)
  | 0x4 => some ((a + b) % 256, some (if 255 < a + b then 1 else 0))
  | 0x5 => some ((((a : Int) - b) % 256).toNat, some (if b ≤ a then 1 else 0))
  | 0x6 => some (shifted / 2, some (shifted % 2))
  | 0x7 => some ((((b : Int) - a) % 256).toNat, some (if a < b then 1 else 0))
  | 0xE => some (2 * shifted % 256, some (if 128 ≤ shifted then 1 else 0))
  | _ => none

theorem exists_digit_of_outcome? {a b shifted : Nat} {digit : Nibble} {outcome : Nat × Option Nat}
    (comesTo : outcome? a b shifted digit = some outcome)
    : ∃ op : AluOp, op.digit = digit := by
  unfold outcome? at comesTo
  split at comesTo
  · exact ⟨copy, rfl⟩
  · exact ⟨or, rfl⟩
  · exact ⟨and, rfl⟩
  · exact ⟨xor, rfl⟩
  · exact ⟨add, rfl⟩
  · exact ⟨subtract, rfl⟩
  · exact ⟨shiftRight, rfl⟩
  · exact ⟨subtractFrom, rfl⟩
  · exact ⟨shiftLeft, rfl⟩
  · contradiction

/-- An operation on bytes comes to what its digit says, by cases over the operations. -/
theorem outcome?_digit (op : AluOp) (a b shifted : UInt8)
    : outcome? a.toNat b.toNat shifted.toNat op.digit
      = some
          ((op.apply a b shifted).1.toNat, (op.apply a b shifted).2.map Bool.toNat) := by
  cases op with
  | copy | or | and | xor => rfl
  | add =>
      simp only [apply, Option.map_some, toNat_condition]
      rfl
  | subtract =>
      simp only [apply, Option.map_some, toNat_condition, toNat_sub, UInt8.le_iff_toNat_le]
      rfl
  | subtractFrom =>
      simp only [apply, Option.map_some, toNat_condition, toNat_sub, UInt8.lt_iff_toNat_lt]
      rfl
  | shiftRight =>
      have odd : (shifted &&& 0x01 != 0).toNat = shifted.toNat / 2 ^ 0 % 2 :=
        toNat_masked shifted rfl
      rw [Nat.pow_zero, Nat.div_one] at odd
      simp only [apply, Option.map_some, toNat_half, odd]
      rfl
  | shiftLeft =>
      have top : (shifted &&& 0x80 != 0).toNat = if 128 ≤ shifted.toNat then 1 else 0 := by
        have bound := shifted.toNat_lt
        rw [toNat_masked shifted (by rfl : (0x80 : UInt8).toNat = 2 ^ 7)]
        split <;> omega
      simp only [apply, Option.map_some, toNat_double, top]
      rfl

end AluOp

-----------------------------------------------------------------------------------------
-- Where result and flag go
-----------------------------------------------------------------------------------------

/-- A turn puts a result into a register and a flag, if there is one, into the flag register; if
these are one register, the flag stays in it. All other registers and all else are left alone, but
for what a fetch moves, and the host is not called.
-/
structure Turn.Yields (turn : Turn) (machine : Machine) (x : Nibble) (result : Nat)
    (flag? : Option Nat)
    : Prop where
  flag : ∀ flag, flag? = some flag → (turn.machine.register .flag).toNat = flag
  result : x ≠ .flag ∨ flag? = none → (turn.machine.register x).toNat = result
  others
    : ∀ register ≠ x,
        register ≠ .flag ∨ flag? = none
        → turn.machine.register register = machine.register register
  rest
    : turn.machine
      = { machine with
          v := turn.machine.v
          fetched := turn.machine.fetched
          pc := turn.machine.pc }
  calls : turn.calls = []
  faultless : turn.fault? = none

namespace Machine

/-- The operand of a shift: the second register or the first, as the dialect has it. -/
def shiftOperand (machine : Machine) (x y : Nibble) : UInt8 :=
  if machine.dialect.shiftsSecond then machine.register y else machine.register x

/-- The result of an operation on two registers, and its flag if it gives one. -/
def combined (machine : Machine) (x y : Nibble) (op : AluOp) : UInt8 × Option Bool :=
  op.apply (machine.register x) (machine.register y) (machine.shiftOperand x y)

section Combined

variable (machine : Machine) (x y : Nibble) (op : AluOp)

/-- The result is put down first and the flag, if there is one, behind it. -/
theorem applyAlu_eq_elim
    : machine.applyAlu x y op
      = (machine.combined x y op).2.elim (machine.setRegister x (machine.combined x y op).1)
          (machine.setRegister x (machine.combined x y op).1).setFlag := by
  simp only [applyAlu]
  split
  · next flag gives =>
    have flagged : (machine.combined x y op).2 = some flag := gives
    rw [flagged]
    rfl
  · next gives =>
    have plain : (machine.combined x y op).2 = none := gives
    rw [plain]
    rfl

theorem flag_applyAlu {flag : Bool} (gives : (machine.combined x y op).2 = some flag)
    : (machine.applyAlu x y op).register .flag = flag.toUInt8 := by
  rw [applyAlu_eq_elim, gives]
  exact (register_setRegister _ _ _ _).trans (if_pos rfl)

theorem result_applyAlu (free : x ≠ .flag ∨ (machine.combined x y op).2 = none)
    : (machine.applyAlu x y op).register x = (machine.combined x y op).1 := by
  have result
      : (machine.setRegister x (machine.combined x y op).1).register x
        = (machine.combined x y op).1 :=
    (register_setRegister _ _ _ _).trans (if_pos rfl)
  rw [applyAlu_eq_elim]
  cases gives : (machine.combined x y op).2 with
  | none => exact result
  | some flag =>
      rw [gives] at free
      have apart : x ≠ .flag := free.resolve_right (Option.some_ne_none flag)
      exact (register_setRegister_of_ne apart _ _).trans result

theorem others_applyAlu {register : Nibble} (other : register ≠ x)
    (free : register ≠ .flag ∨ (machine.combined x y op).2 = none)
    : (machine.applyAlu x y op).register register = machine.register register := by
  have kept := register_setRegister_of_ne other machine (machine.combined x y op).1
  rw [applyAlu_eq_elim]
  cases gives : (machine.combined x y op).2 with
  | none => exact kept
  | some flag =>
      rw [gives] at free
      have apart : register ≠ .flag := free.resolve_right (Option.some_ne_none flag)
      exact (register_setRegister_of_ne apart _ _).trans kept

end Combined

theorem outcome?_combined (machine : Machine) (x y : Nibble) (op : AluOp)
    : AluOp.outcome? (machine.register x).toNat (machine.register y).toNat
          (machine.shiftOperand x y).toNat op.digit
      = some
          ((machine.combined x y op).1.toNat, (machine.combined x y op).2.map Bool.toNat) :=
  op.outcome?_digit _ _ _

theorem toNat_toUInt8 (flag : Bool) : flag.toUInt8.toNat = flag.toNat := by
  cases flag <;> rfl

theorem yields_combined {machine : Machine} {x y : Nibble} {op : AluOp} {turn : Turn}
    (executes : machine.Executes (.alu x y op) turn)
    : turn.Yields machine x (machine.combined x y op).1.toNat
        ((machine.combined x y op).2.map Bool.toNat) := by
  obtain ⟨fetched, pc, report, notes, rfl⟩ := executes.turn_eq
  let moved := { machine with fetched := fetched, pc := pc }
  exact {
    flag := by
      intro number due
      obtain ⟨flag, gives, rfl⟩ := Option.map_eq_some_iff.mp due
      exact (congrArg UInt8.toNat (moved.flag_applyAlu x y op gives)).trans (toNat_toUInt8 flag)
    result := by
      intro free
      rw [Option.map_eq_none_iff] at free
      exact congrArg UInt8.toNat (moved.result_applyAlu x y op free)
    others := by
      intro register other free
      rw [Option.map_eq_none_iff] at free
      exact moved.others_applyAlu x y op other free
    rest := by
      show moved.applyAlu x y op
        = { machine with
            v := (moved.applyAlu x y op).v
            fetched := (moved.applyAlu x y op).fetched
            pc := (moved.applyAlu x y op).pc }
      rw [applyAlu_eq]
    calls := rfl
    faultless := rfl
  }

end Machine

/-- A word of an operation names two registers by its middle digits, which may be the same, and
either may be the flag register. Executed on any machine, it puts what its last digit makes of the
two bytes into the first of them and the flag, if there is one, into the flag register; the flag is
put down last. Every other register keeps its byte, the second one among them.
-/
theorem operations_are_exact_in_every_register (machine : Machine) (x y digit : Nibble)
    {result : Nat} {flag? : Option Nat}
    (comesTo
      : AluOp.outcome? (machine.register x).toNat (machine.register y).toNat
          (machine.shiftOperand x y).toNat digit
        = some (result, flag?))
    : ∃ op,
        Instruction.decode? (.ofDigits 0x8 x y digit) = some (.alu x y op)
        ∧ ∀ turn, machine.Executes (.alu x y op) turn → turn.Yields machine x result flag? := by
  obtain ⟨op, rfl⟩ := AluOp.exists_digit_of_outcome? comesTo
  rw [machine.outcome?_combined] at comesTo
  obtain ⟨rfl, rfl⟩ := Prod.mk.inj (Option.some.inj comesTo)
  exact ⟨op, Instruction.decode?_encode (.alu x y op), fun _ => Machine.yields_combined⟩

/-- The flag register is added to itself, which gives a carry: it holds the flag, not the sum. -/
theorem sum_in_flag_register_gives_way
    : let machine : Machine :=
        { Machine.boot #[0x8F, 0xF4] .modern (.ofSeed 0) with v := .replicate 16 0xFF }
      AluOp.outcome? (machine.register 0xF).toNat (machine.register 0xF).toNat
          (machine.shiftOperand 0xF 0xF).toNat 0x4
        = some (0xFE, some 1)
      ∧ (machine.cycle []).Yields machine 0xF 0xFE (some 1)
      ∧ (machine.cycle []).machine.register .flag = 1
      ∧ (machine.cycle []).machine.register 0x0 = 0xFF := by
  intro machine
  have comesTo
      : AluOp.outcome? (machine.register 0xF).toNat (machine.register 0xF).toNat
          (machine.shiftOperand 0xF 0xF).toNat 0x4
        = some (0xFE, some 1) := by
    decide +kernel
  obtain ⟨op, decodes, yields⟩ :=
    operations_are_exact_in_every_register machine 0xF 0xF 0x4 comesTo
  have met : machine.Executes (.alu 0xF 0xF op) (machine.cycle []) :=
    .met [] ((by decide +kernel : machine.ahead = .ofDigits 0x8 0xF 0xF 0x4) ▸ decodes)
  have added := yields _ met
  exact ⟨comesTo, added, UInt8.toNat_inj.mp (added.flag 1 rfl),
    added.others 0x0 (by decide) (.inl (by decide))⟩

end Chip8
