import Chip8.Proofs.Sprite

/-! Sprites drawn one after the other. Each draw flips a layer that memory and its own coordinates
determine, so the order of draws does not matter, and two of the same sprite at the same place undo
each other.
-/

namespace Chip8

-----------------------------------------------------------------------------------------
-- Layers flipped one after the other
-----------------------------------------------------------------------------------------

namespace Frame

theorem flip_right_comm (frame first second : Frame)
    : (frame.flip first).flip second = (frame.flip second).flip first := by
  apply ext_lit
  intro y x
  simp only [lit_flip, Bool.xor_assoc, Bool.xor_comm (first.lit y x)]

@[simp] theorem flip_flip (frame layer : Frame) : (frame.flip layer).flip layer = frame := by
  apply ext_lit
  intro y x
  simp only [lit_flip, Bool.xor_assoc, Bool.xor_self, Bool.xor_false]

theorem foldl_flip_perm {layers others : List Frame} (same : layers.Perm others) (frame : Frame)
    : layers.foldl flip frame = others.foldl flip frame :=
  same.foldl_eq' (fun first _ second _ frame => frame.flip_right_comm first second) frame

/-- Two equal layers undo each other, wherever they stand: they can be flipped first. -/
theorem foldl_flip_twice (frame layer : Frame) (before between behind : List Frame)
    : (before ++ layer :: between ++ layer :: behind).foldl flip frame
      = (before ++ between ++ behind).foldl flip frame := by
  have first
      : (before ++ layer :: between ++ layer :: behind).Perm
          (layer :: layer :: (before ++ between ++ behind)) := by
    calc before ++ layer :: between ++ layer :: behind
      _ = before ++ layer :: (between ++ layer :: behind) := by simp
      List.Perm _ (layer :: (before ++ (between ++ layer :: behind))) := List.perm_middle
      _ = layer :: (before ++ between ++ layer :: behind) := by simp
      List.Perm _ (layer :: layer :: (before ++ between ++ behind)) := .cons layer List.perm_middle
  rw [foldl_flip_perm first, List.foldl_cons, List.foldl_cons, flip_flip]

/-- A layer meets a display that it was flipped onto just before exactly where the display was dark. -/
theorem overlaps_flip {frame layer : Frame}
    : (frame.flip layer).overlaps layer = true
      ↔ ∃ y x, layer.lit y x = true ∧ frame.lit y x = false := by
  rw [overlaps_iff]
  simp only [lit_flip]
  constructor
  · rintro ⟨y, x, lit, bit⟩
    refine ⟨y, x, bit, ?_⟩
    simpa [bit] using lit
  · rintro ⟨y, x, bit, dark⟩
    exact ⟨y, x, by simp [bit, dark], bit⟩

end Frame

-----------------------------------------------------------------------------------------
-- Draws
-----------------------------------------------------------------------------------------

/-- A sprite at a place: its coordinates, the address of its first row, and how many rows it has. -/
structure Stamp where
  left : UInt8
  top : UInt8
  index : UInt16
  height : Nibble
  deriving DecidableEq, Repr

/-- A draw of a stamp, whose coordinates are put into two registers. -/
structure Draw where
  stamp : Stamp
  x : Nibble
  y : Nibble
  /-- One register for both coordinates holds one value. -/
  consistent : x = y → stamp.left = stamp.top

/-- What a stamp lights on a blank display, out of a memory. -/
def Memory.imprint (memory : Memory) (stamp : Stamp) : Frame :=
  Frame.sprite (stamp.top.toNat % 32) (stamp.left.toNat % 64)
    (memory.readRun stamp.index stamp.height.val)

namespace Machine

/-- The machine with the coordinates of a draw in their registers and its index register set. -/
def aim (machine : Machine) (draw : Draw) : Machine :=
  { (machine.setRegister draw.x draw.stamp.left).setRegister draw.y draw.stamp.top with
    index := draw.stamp.index }

/-- The machine behind a draw. -/
def drawOne (machine : Machine) (draw : Draw) : Machine :=
  ((machine.aim draw).execute (.draw draw.x draw.y draw.stamp.height) []).machine

/-- The machine behind draws, one after the other. -/
def drawAll (machine : Machine) (draws : List Draw) : Machine :=
  draws.foldl drawOne machine

theorem layer_aim (machine : Machine) (draw : Draw)
    : (machine.aim draw).layer draw.x draw.y draw.stamp.height
      = machine.memory.imprint draw.stamp := by
  have top : (machine.aim draw).register draw.y = draw.stamp.top := by
    exact (register_setRegister _ _ _ _).trans (if_pos rfl)
  have left : (machine.aim draw).register draw.x = draw.stamp.left := by
    refine (register_setRegister _ _ _ _).trans ?_
    split
    · next same => exact (draw.consistent same.symm).symm
    · exact (register_setRegister _ _ _ _).trans (if_pos rfl)
  rw [layer, top, left]
  rfl

theorem memory_drawOne (machine : Machine) (draw : Draw)
    : (machine.drawOne draw).memory = machine.memory :=
  rfl

theorem display_drawOne (machine : Machine) (draw : Draw)
    : (machine.drawOne draw).display
      = machine.display.flip (machine.memory.imprint draw.stamp) := by
  rw [← layer_aim]
  rfl

/-- Draws flip the layers of their stamps, by induction over the draws: none of them changes memory. -/
theorem display_drawAll (machine : Machine) (draws : List Draw)
    : (machine.drawAll draws).display
      = ((draws.map Draw.stamp).map machine.memory.imprint).foldl Frame.flip machine.display := by
  induction draws generalizing machine with
  | nil => rfl
  | cons draw rest ih =>
      rw [drawAll, List.foldl_cons, List.map_cons, List.map_cons, List.foldl_cons,
        ← display_drawOne, ← machine.memory_drawOne draw]
      exact ih (machine.drawOne draw)

theorem flag_drawOne (machine : Machine) (draw : Draw)
    : (machine.drawOne draw).register .flag
      = (machine.display.overlaps (machine.memory.imprint draw.stamp)).toUInt8 := by
  rw [← layer_aim]
  exact (register_setRegister _ _ _ _).trans (if_pos rfl)

section Twice

variable (machine : Machine) {first second : Draw} (same : first.stamp = second.stamp)

include same

theorem display_drawAll_twice : (machine.drawAll [first, second]).display = machine.display := by
  rw [display_drawAll]
  simp only [List.map_cons, ← same]
  exact Frame.flip_flip _ _

theorem flag_drawAll_twice
    : (machine.drawAll [first, second]).register .flag
      = ((machine.display.flip (machine.memory.imprint first.stamp)).overlaps
          (machine.memory.imprint first.stamp)).toUInt8 := by
  rw [← display_drawOne, same]
  exact flag_drawOne (machine.drawOne first) second

end Twice

/-- A stamp meets its own first draw where it has a bit for a pixel that was dark before. -/
theorem overlaps_imprint (machine : Machine) (draw : Draw)
    : (machine.display.flip (machine.memory.imprint draw.stamp)).overlaps
          (machine.memory.imprint draw.stamp) = true
      ↔ ∃ r c,
          (machine.aim draw).covers draw.x draw.y draw.stamp.height r c = true
          ∧ machine.display.lit r c = false := by
  simp only [Frame.overlaps_flip, ← lit_layer, layer_aim]

end Machine

open Machine in
/-- Whatever is on the display, two lists of draws that stamp the same, in any order and from any
registers, leave the same display, and so does a list from which two draws of the same stamp are
taken out. Drawing a stamp twice in a row leaves every pixel as it was, and the second draw sets the
flag register exactly if the sprite, as far as it was drawn, has a bit for a pixel that was dark
before the first.
-/
theorem draws_commute_and_cancel
    : (∀ (machine : Machine) (draws others : List Draw),
        (draws.map Draw.stamp).Perm (others.map Draw.stamp)
        → (machine.drawAll draws).display = (machine.drawAll others).display)
      ∧ (∀ (machine : Machine) (before between behind : List Draw) (first second : Draw),
          first.stamp = second.stamp
          → (machine.drawAll (before ++ first :: between ++ second :: behind)).display
            = (machine.drawAll (before ++ between ++ behind)).display)
      ∧ ∀ (machine : Machine) (first second : Draw),
          first.stamp = second.stamp
          → let again := machine.drawAll [first, second]
            (∀ r c, again.display.lit r c = machine.display.lit r c)
            ∧ ((∃ r c,
                (machine.aim first).covers first.x first.y first.stamp.height r c = true
                ∧ machine.display.lit r c = false)
              → again.register .flag = 1)
            ∧ ((¬∃ r c,
                (machine.aim first).covers first.x first.y first.stamp.height r c = true
                ∧ machine.display.lit r c = false)
              → again.register .flag = 0) := by
  refine ⟨?_, ?_, ?_⟩
  · intro machine draws others same
    rw [display_drawAll, display_drawAll]
    exact Frame.foldl_flip_perm (same.map _) machine.display
  · intro machine before between behind first second same
    rw [display_drawAll, display_drawAll]
    simp only [List.map_append, List.map_cons, ← same]
    exact Frame.foldl_flip_twice machine.display _ _ _ _
  · intro machine first second same again
    have flag := machine.flag_drawAll_twice same
    refine ⟨?_, ?_, ?_⟩
    · intro r c
      rw [machine.display_drawAll_twice same]
    · intro some
      rw [flag, (machine.overlaps_imprint first).mpr some]
      rfl
    · intro none
      rw [← machine.overlaps_imprint first, Bool.not_eq_true] at none
      rw [flag, none]
      rfl

open Machine in
/-- The glyphs of zero and eight, which overlap and pass two edges. The eight is drawn from one pair of
registers, and from another when it is drawn earlier or again.
-/
theorem overlapping_glyphs_commute_and_cancel
    : let machine := Machine.boot #[] .modern (.ofSeed 0)
      ∃ zero eight again : Draw,
        zero.stamp = ⟨60, 30, 0x050, 5⟩
        ∧ eight.stamp = ⟨62, 29, 0x078, 5⟩
        ∧ again.stamp = eight.stamp
        ∧ again.x ≠ eight.x
        ∧ (machine.drawAll [zero, eight]).display = (machine.drawAll [again, zero]).display
        ∧ (machine.drawAll [eight, zero, again]).display = (machine.drawAll [zero]).display
        ∧ (machine.drawAll [eight, again]).register .flag = 1 := by
  intro machine
  let zero : Draw := ⟨⟨60, 30, 0x050, 5⟩, 0, 1, by decide⟩
  let eight : Draw := ⟨⟨62, 29, 0x078, 5⟩, 2, 3, by decide⟩
  let again : Draw := ⟨⟨62, 29, 0x078, 5⟩, 4, 5, by decide⟩
  obtain ⟨commute, cancel, twice⟩ := draws_commute_and_cancel
  have swapped := commute machine [zero, eight] [again, zero] (.swap _ _ _)
  have removed := cancel machine [] [zero] [] eight again rfl
  have dark := (twice machine eight again rfl).2.1 ⟨29, 62, by decide +kernel⟩
  exact ⟨zero, eight, again, rfl, rfl, rfl, by decide, swapped, removed, dark⟩

end Chip8
