import Chip8.Proofs.Footprint

/-! Sprites pixel by pixel. Drawing works on whole rows of the display; here it is told for each pixel
whether the sprite covers it, and what becomes of the pixel and of the flag register.
-/

namespace Chip8

-----------------------------------------------------------------------------------------
-- Pixels of a layer
-----------------------------------------------------------------------------------------

namespace Frame

/-- A row of bits is not zero exactly if one of its bits is set. -/
theorem ne_zero_iff_getMsbD {row : BitVec 64}
    : row ≠ 0 ↔ ∃ x : Fin 64, row.getMsbD x.val = true := by
  constructor
  · intro lit
    refine Classical.byContradiction fun dark => lit ?_
    apply BitVec.eq_of_getMsbD_eq
    intro x hx
    show row.getMsbD x = (0#64).getMsbD x
    rw [BitVec.getMsbD_zero]
    exact Bool.eq_false_iff.mpr fun set => dark ⟨⟨x, hx⟩, set⟩
  · rintro ⟨x, set⟩ rfl
    simp at set

theorem overlaps_iff {frame layer : Frame}
    : frame.overlaps layer = true
      ↔ ∃ y x, frame.lit y x = true ∧ layer.lit y x = true := by
  simp only [overlaps, Vector.any_eq_true, Vector.getElem_zipWith, decide_eq_true_eq]
  simp only [ne_zero_iff_getMsbD, BitVec.getMsbD_and, Bool.and_eq_true]
  constructor
  · rintro ⟨y, hy, x, set⟩
    exact ⟨⟨y, hy⟩, x, set⟩
  · rintro ⟨y, x, set⟩
    exact ⟨y.val, y.isLt, x, set⟩

theorem getMsbD_toBitVec (byte : UInt8) (place : Nat)
    : byte.toBitVec.getMsbD place = (decide (place < 8) && byte.toNat.testBit (7 - place)) :=
  rfl

theorem lit_sprite (top left : Nat) (patterns : List UInt8) (y : Fin 32) (x : Fin 64)
    : (sprite top left patterns).lit y x
      = (decide (top ≤ y.val) && decide (left ≤ x.val)
          && (patterns.getD (y.val - top) 0).toBitVec.getMsbD (x.val - left)) := by
  simp only [lit, sprite, Fin.getElem_fin, getElem_tabulate]
  by_cases within : top ≤ y.val
  · simp [within, getMsbD_strip]
  · simp [within]
end Frame

theorem Memory.read_add (memory : Memory) (start : UInt16) (place : Nat)
    : memory.read (start + UInt16.ofNat place)
      = memory.cells.toArray.getD ((start.toNat + place) % 4096) 0 := by
  have inside : (start.toNat + place) % 4096 < memory.cells.toArray.size := by
    rw [memory.cells.size_toArray]
    exact Nat.mod_lt _ (by decide)
  rw [Array.getD_eq_getD_getElem?, Array.getElem?_eq_getElem inside, Option.getD_some, read]
  simp only [Fin.getElem_fin, val_cell_add, Vector.getElem_toArray]

theorem Memory.getD_readRun (memory : Memory) (start : UInt16) (count place : Nat)
    : (memory.readRun start count).getD place 0
      = if place < count then memory.cells.toArray.getD ((start.toNat + place) % 4096) 0 else 0 := by
  rw [readRun, List.getD_eq_getElem?_getD, List.getElem?_map]
  split
  · next inside =>
    rw [List.getElem?_range inside, Option.map_some, Option.getD_some, read_add]
  · next outside =>
    rw [List.getElem?_eq_none (by simpa using outside)]
    rfl

-----------------------------------------------------------------------------------------
-- Pixels of a sprite
-----------------------------------------------------------------------------------------

namespace Machine

/-- Whether the sprite that a machine is about to draw has a bit for the pixel in row `r` and column
`c`. Its corner wraps around the display, and what passes the right or the lower edge is cut off; its
rows lie in memory from the index register on, which wraps around too.
-/
def covers (machine : Machine) (x y n : Nibble) (r : Fin 32) (c : Fin 64) : Bool :=
  let top := (machine.register y).toNat % 32
  let left := (machine.register x).toNat % 64
  let row := machine.memory.cells.toArray.getD ((machine.index.toNat + (r.val - top)) % 4096) 0
  decide (top ≤ r.val ∧ r.val < min (top + n.val) 32)
    && decide (left ≤ c.val ∧ c.val < min (left + 8) 64)
    && row.toNat.testBit (7 - (c.val - left))

/-- The layer that is flipped onto the display. -/
def layer (machine : Machine) (x y n : Nibble) : Frame :=
  Frame.sprite ((machine.register y).toNat % 32) ((machine.register x).toNat % 64)
    (machine.memory.readRun machine.index n.val)

theorem lit_layer (machine : Machine) (x y n : Nibble) (r : Fin 32) (c : Fin 64)
    : (machine.layer x y n).lit r c = machine.covers x y n r c := by
  simp only [layer, covers, Frame.lit_sprite, Memory.getD_readRun]
  generalize (machine.register y).toNat % 32 = top
  generalize (machine.register x).toNat % 64 = left
  have columns : (left ≤ c.val ∧ c.val < min (left + 8) 64) ↔ left ≤ c.val ∧ c.val - left < 8 := by
    omega
  split
  · next inside =>
    have rows : (top ≤ r.val ∧ r.val < min (top + n.val) 32) ↔ top ≤ r.val := by omega
    simp only [rows, columns, Frame.getMsbD_toBitVec, Bool.decide_and, Bool.and_assoc]
  · next outside =>
    have rows : ¬(top ≤ r.val ∧ r.val < min (top + n.val) 32) := by omega
    simp only [decide_eq_false rows, Bool.false_and]
    simp

theorem drawSprite_eq (machine : Machine) (x y n : Nibble)
    : machine.drawSprite x y n
      = { machine with display := machine.display.flip (machine.layer x y n) }.setFlag
          (machine.display.overlaps (machine.layer x y n)) :=
  rfl

end Machine

/-- A turn draws a sprite: every pixel that the sprite covers is flipped and no other one, the flag
register tells whether one of them was lit before, and the display is shown once as it is then.
-/
structure Turn.DrawsSprite (turn : Turn) (machine : Machine) (x y n : Nibble) : Prop where
  display
    : ∀ r c,
        turn.machine.display.lit r c = (machine.display.lit r c ^^ machine.covers x y n r c)
  collision
    : (∃ r c, machine.covers x y n r c = true ∧ machine.display.lit r c = true)
      → turn.machine.register .flag = 1
  noCollision
    : (¬∃ r c, machine.covers x y n r c = true ∧ machine.display.lit r c = true)
      → turn.machine.register .flag = 0
  registers
    : ∀ register ≠ .flag, turn.machine.register register = machine.register register
  index : turn.machine.index = machine.index
  memory : turn.machine.memory = machine.memory
  stack : turn.machine.stack = machine.stack
  delayTimer : turn.machine.delayTimer = machine.delayTimer
  soundTimer : turn.machine.soundTimer = machine.soundTimer
  random : turn.machine.random = machine.random
  calls : turn.calls = [.publish turn.machine.display]
  faultless : turn.fault? = none

namespace Machine

theorem drawSprite_draws (machine : Machine) (x y n : Nibble) (notes : List Note)
    : ({ Turn.publishing (machine.drawSprite x y n) with notes := notes }).DrawsSprite
        machine x y n := by
  have flag : (machine.drawSprite x y n).register .flag
      = (machine.display.overlaps (machine.layer x y n)).toUInt8 := by
    rw [drawSprite_eq, setFlag, register_setRegister, if_pos rfl]
  have overlaps : machine.display.overlaps (machine.layer x y n) = true
      ↔ ∃ r c, machine.covers x y n r c = true ∧ machine.display.lit r c = true := by
    simp only [Frame.overlaps_iff, lit_layer, and_comm]
  exact {
    display := by
      intro r c
      rw [← lit_layer]
      exact Frame.lit_flip _ _ r c
    collision := by
      intro collides
      rw [← overlaps] at collides
      exact flag.trans (by rw [collides]; rfl)
    noCollision := by
      intro free
      rw [← overlaps, Bool.not_eq_true] at free
      exact flag.trans (by rw [free]; rfl)
    registers := by
      intro register other
      exact register_setRegister_of_ne other _ _
    index := rfl
    memory := rfl
    stack := rfl
    delayTimer := rfl
    soundTimer := rfl
    random := rfl
    calls := rfl
    faultless := rfl
  }

end Machine

/-- Whatever the machine and whichever sprite, executing the instruction draws it pixel by pixel, and
so does a cycle that meets the instruction.
-/
theorem sprites_are_drawn_pixel_by_pixel
    : (∀ (machine : Machine) (x y n : Nibble) (report : List UInt8),
        (machine.execute (.draw x y n) report).DrawsSprite machine x y n)
      ∧ ∀ (machine : Machine) (x y n : Nibble) (report : List UInt8),
          Instruction.decode? machine.ahead = some (.draw x y n)
          → (machine.cycle report).DrawsSprite machine x y n := by
  constructor
  · exact fun machine x y n _ => machine.drawSprite_draws x y n []
  · intro machine x y n report decodes
    rw [Machine.cycle_of_some report decodes]
    -- The fetch moves nothing that a sprite depends on.
    have drawn := machine.fetch.drawSprite_draws x y n
      [.executing (UInt16.ofNat (machine.pc.toNat % 4096)) (.draw x y n)]
    exact ⟨drawn.display, drawn.collision, drawn.noCollision, drawn.registers, drawn.index,
      drawn.memory, drawn.stack, drawn.delayTimer, drawn.soundTimer, drawn.random, drawn.calls,
      drawn.faultless⟩

/-- A sprite of two rows in the lower right corner, with its column in the flag register and its first
row in the last cell of memory. Two of its pixels fall on the display, one of them on a lit one, and
nothing comes in again at the other edges.
-/
theorem sprite_is_cut_off_in_the_corner
    : let machine : Machine :=
        { Machine.boot #[0xDF, 0x12] .modern (.ofSeed 0) with
          memory := (Memory.image #[0xDF, 0x12]).write 0xFFF 0xF0
          display := Frame.sprite 31 63 [0x80]
          index := 0xFFFF
          v := replaceAt (Vector.replicate 16 0xFF) Nibble.flag 0x7E }
      (machine.cycle []).DrawsSprite machine 0xF 0x1 0x2
      ∧ (machine.cycle []).machine.display = Frame.sprite 31 62 [0x80]
      ∧ (machine.cycle []).machine.register .flag = 1
      ∧ (machine.cycle []).machine.register 0x1 = 0xFF := by
  intro machine
  have drawn : (machine.cycle []).DrawsSprite machine 0xF 0x1 0x2 :=
    sprites_are_drawn_pixel_by_pixel.2 machine 0xF 0x1 0x2 [] (by decide +kernel)
  exact ⟨drawn, by decide +kernel, drawn.collision ⟨31, 63, by decide +kernel⟩,
    drawn.registers 0x1 (by decide)⟩

end Chip8
