import Chip8.Host.Basic

/-! What a report of held keys says: the keys of the keypad are told by their values, and values
that no key has say nothing.
-/

namespace Chip8

namespace Nibble

theorem ofByte?_eq_some_iff {byte : UInt8} {nibble : Nibble}
    : ofByte? byte = some nibble ↔ nibble.toByte = byte := by
  constructor
  · intro found
    rw [ofByte?] at found
    split at found
    · obtain rfl := Option.some.inj found
      exact UInt8.ofNat_toNat
    · contradiction
  · rintro rfl
    exact ofByte?_toByte nibble

theorem exists_toByte_iff {byte : UInt8} : (∃ nibble, toByte nibble = byte) ↔ byte < 16 := by
  constructor
  · rintro ⟨nibble, rfl⟩
    rw [UInt8.lt_iff_toNat_lt, toNat_toByte]
    exact nibble.isLt
  · intro small
    exact ⟨⟨byte.toNat, UInt8.lt_iff_toNat_lt.mp small⟩, UInt8.ofNat_toNat⟩

end Nibble

namespace Keypad

theorem mem_held {report : List UInt8} {key : Nibble}
    : key ∈ held report ↔ key.toByte ∈ report := by
  simp only [held, List.mem_filterMap, Nibble.ofByte?_eq_some_iff, exists_eq_right']

/-- A key is held if its value is one of the sixteen and is reported. -/
theorem isHeld_eq (report : List UInt8) (key : UInt8)
    : isHeld report key = (decide (key < 16) && report.contains key) := by
  rw [Bool.eq_iff_iff, Bool.and_eq_true, decide_eq_true_eq, List.contains_iff_mem]
  simp only [isHeld, List.any_eq_true, beq_iff_eq, mem_held, ← Nibble.exists_toByte_iff]
  constructor
  · rintro ⟨nibble, reported, rfl⟩
    exact ⟨⟨nibble, rfl⟩, reported⟩
  · rintro ⟨⟨nibble, rfl⟩, reported⟩
    exact ⟨nibble, reported, rfl⟩

theorem held_eq_nil_iff {report : List UInt8}
    : held report = [] ↔ report.any (· < 16) = false := by
  simp only [List.eq_nil_iff_forall_not_mem, mem_held, List.any_eq_false, decide_eq_true_eq,
    ← Nibble.exists_toByte_iff]
  constructor
  · rintro none _ reported ⟨nibble, rfl⟩
    exact none nibble reported
  · intro none nibble reported
    exact none _ reported ⟨nibble, rfl⟩

/-- The first reported value that a key has. -/
def first? (report : List UInt8) : Option UInt8 :=
  report.find? (· < 16)

/-- The first key that is held is the first value reported that a key has, by induction over the
report.
-/
theorem head?_held (report : List UInt8)
    : (held report).head?.map Nibble.toByte = first? report := by
  induction report with
  | nil => rfl
  | cons byte rest ih =>
      rw [held, first?, List.filterMap_cons, List.find?_cons]
      cases named : Nibble.ofByte? byte with
      | none =>
          have foreign : ¬byte < 16 := by
            rw [← Nibble.exists_toByte_iff]
            rintro ⟨nibble, rfl⟩
            rw [Nibble.ofByte?_toByte] at named
            contradiction
          rw [decide_eq_false foreign]
          exact ih
      | some nibble =>
          obtain rfl := Nibble.ofByte?_eq_some_iff.mp named
          rw [decide_eq_true (Nibble.exists_toByte_iff.mp ⟨nibble, rfl⟩)]
          rfl

theorem first?_eq_none_iff {report : List UInt8}
    : first? report = none ↔ ∀ byte ∈ report, 16 ≤ byte := by
  simp only [first?, List.find?_eq_none, decide_eq_true_eq, UInt8.not_lt]

end Keypad

end Chip8
