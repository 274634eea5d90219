import Chip8.Host.Script
import Chip8.Proofs.Footprint
import Chip8.Proofs.Sprite

/-! The built-in glyphs. They lie below every program, so memory holds them until an instruction
stores over them, and until then the instruction that points at a glyph makes the next sprite of
five rows the digit that it was given.
-/

namespace Chip8

/-- Whether the glyph of a digit lights the pixel in row `r` and column `c` when its corner is put
into row `top` and column `left`. What passes the right or the lower edge is cut off.
-/
def Glyph.lights (digit top left : Nat) (r : Fin 32) (c : Fin 64) : Bool :=
  decide (top ≤ r.val ∧ r.val < min (top + 5) 32)
    && decide (left ≤ c.val ∧ c.val < min (left + 8) 64)
    && (rows.toArray.getD (5 * digit + (r.val - top)) 0).toNat.testBit (7 - (c.val - left))

/-- Memory holds the rows of all glyphs where loading puts them. -/
def Memory.HoldsGlyphs (memory : Memory) : Prop :=
  ∀ cell : Fin 4096,
    0x50 ≤ cell.val ∧ cell.val ≤ 0x9F
    → Glyph.rows[cell.val - 0x50]? = some (memory.cells.get cell)

theorem Memory.HoldsGlyphs.row {memory : Memory} (holds : memory.HoldsGlyphs) {place : Nat}
    (within : place < 80)
    : memory.cells.toArray.getD (0x50 + place) 0 = Glyph.rows.toArray.getD place 0 := by
  let cell : Fin 4096 := ⟨0x50 + place, by omega⟩
  have inside : cell.val < memory.cells.toArray.size := by
    rw [memory.cells.size_toArray]
    exact cell.isLt
  have held : Glyph.rows.toArray[place]? = some (memory.cells.get cell) := by
    have upper : 0x50 + place ≤ 0x9F := by omega
    have found := holds cell ⟨Nat.le_add_right .., upper⟩
    rw [Nat.add_sub_cancel_left, ← Vector.getElem?_toArray] at found
    exact found
  rw [Array.getD_eq_getD_getElem?, Array.getD_eq_getD_getElem?, held,
    Array.getElem?_eq_getElem inside]
  rfl

namespace Machine

variable {machine : Machine} {turn : Turn}

/-- Pointing at a glyph leaves everything but the index register as it was, apart from what a fetch
moves.
-/
theorem Executes.of_pointGlyph {x : Nibble} (executes : machine.Executes (.pointGlyph x) turn)
    : turn.machine.memory = machine.memory
      ∧ turn.machine.display = machine.display
      ∧ turn.machine.v = machine.v
      ∧ turn.machine.index.toNat = 0x50 + 5 * ((machine.register x).toNat % 16) := by
  obtain ⟨fetched, pc, report, notes, rfl⟩ := executes.turn_eq
  refine ⟨rfl, rfl, rfl, ?_⟩
  show (UInt16.ofNat (0x50 + 5 * ((machine.register x).toNat % 16))).toNat = _
  rw [UInt16.toNat_ofNat']
  omega

theorem Executes.drawsSprite {x y n : Nibble} (executes : machine.Executes (.draw x y n) turn)
    : turn.DrawsSprite machine x y n := by
  obtain ⟨fetched, pc, report, notes, rfl⟩ := executes.turn_eq
  have drawn := { machine with fetched := fetched, pc := pc }.drawSprite_draws x y n notes
  exact ⟨drawn.display, drawn.collision, drawn.noCollision, drawn.registers, drawn.index,
    drawn.memory, drawn.stack, drawn.delayTimer, drawn.soundTimer, drawn.random, drawn.calls,
    drawn.faultless⟩

/-- Where the index register points at a glyph, the next sprite of five rows is this glyph. -/
theorem covers_of_glyph (holds : machine.memory.HoldsGlyphs) {digit : Nat} (named : digit < 16)
    (index : machine.index.toNat = 0x50 + 5 * digit) (x y : Nibble) (r : Fin 32) (c : Fin 64)
    : machine.covers x y 5 r c
      = Glyph.lights digit ((machine.register y).toNat % 32) ((machine.register x).toNat % 64)
          r c := by
  simp only [covers, Glyph.lights]
  generalize (machine.register y).toNat % 32 = top
  generalize (machine.register x).toNat % 64 = left
  by_cases rows : top ≤ r.val ∧ r.val < min (top + 5) 32
  · have place : (machine.index.toNat + (r.val - top)) % 4096
        = 0x50 + (5 * digit + (r.val - top)) := by
      omega
    rw [place, holds.row (by omega)]
    rfl
  · have outside : ¬(top ≤ r.val ∧ r.val < min (top + (5 : Nibble).val) 32) := rows
    rw [decide_eq_false rows, decide_eq_false outside, Bool.false_and, Bool.false_and]
    rfl

end Machine

namespace Console

variable {σ : Type} [Host σ] {console : Console σ} {tick : Tick} {ticks : List Tick}

/-- No tick of a run stores digits or registers into a cell of the glyphs. -/
def SparesGlyphs (console : Console σ) (ticks : List Tick) : Prop :=
  ∀ cell : Fin 4096, 0x50 ≤ cell.val ∧ cell.val ≤ 0x9F → console.Untouched ticks cell

theorem sparesGlyphs_nil : console.SparesGlyphs [] := by
  intro _ _ before tick since split
  exact absurd split (by simp)

/-- A tick spares the glyphs if none of the cells that its instruction reaches is one of theirs. -/
theorem SparesGlyphs.cons
    (apart
      : ∀ offset < (console.turn tick).executed?.elim 0 Instruction.reach,
          let place := (console.machine.index.toNat + offset) % 4096
          place < 0x50 ∨ 0x9F < place)
    (later : (console.after (console.turn tick)).SparesGlyphs ticks)
    : console.SparesGlyphs (tick :: ticks) := by
  intro cell within
  refine untouched_cons.mpr ⟨?_, later cell within⟩
  rintro byte ⟨instruction, executes, stores⟩
  obtain ⟨offset, listed, place⟩ := Machine.stores_iff.mp stores
  have bound : offset < instruction.reach := by
    rw [← console.machine.length_stored_eq instruction]
    exact (List.getElem?_eq_some_iff.mp listed).1
  have outside := apart offset (by rwa [executes])
  have same : (console.machine.index.toNat + offset) % 4096 = cell.val := congrArg Fin.val place
  rw [same] at outside
  omega

/-- Memory holds the glyphs along every run from loading on that spares them. -/
theorem holdsGlyphs_run {program : Array UInt8} {dialect : Dialect} {random : Generator}
    (loads : Machine.load program dialect random = .ok console.machine)
    (spares : console.SparesGlyphs ticks)
    : (console.run ticks).machine.memory.HoldsGlyphs := by
  intro cell within
  obtain ⟨_, booted⟩ := Machine.load_eq_ok_iff.mp loads
  rw [get_run_of_untouched (spares cell within), booted]
  exact (Memory.loaded_image program).glyphs cell within

end Console

/-- Along every run of a loaded program that spares the glyphs: with the memory reached and whatever
registers and display, pointing at the glyph of a register and then drawing five rows flips exactly
the pixels of the glyph of the register's last digit, with its corner wrapped around the display and
its pixels cut off at the edges. Whatever the memory, pointing at a glyph sets the index register to
the first row of one of the sixteen.
-/
theorem built_in_glyphs_stay_drawable {σ : Type} [Host σ] {console : Console σ}
    {program : Array UInt8} {dialect : Dialect} {random : Generator}
    (loads : Machine.load program dialect random = .ok console.machine) {ticks : List Tick}
    (spares : console.SparesGlyphs ticks)
    : (∀ (state : Machine) (digit column row : Nibble) (point draw : Turn),
        state.memory = (console.run ticks).machine.memory
        → state.Executes (.pointGlyph digit) point
        → point.machine.Executes (.draw column row 5) draw
        → ∀ r c,
            draw.machine.display.lit r c
            = (state.display.lit r c
              ^^ Glyph.lights ((state.register digit).toNat % 16)
                  ((state.register row).toNat % 32) ((state.register column).toNat % 64) r c))
      ∧ ∀ (machine : Machine) (digit : Nibble) (point : Turn),
          machine.Executes (.pointGlyph digit) point
          → point.machine.index.toNat = 0x50 + 5 * ((machine.register digit).toNat % 16)
            ∧ 0x50 ≤ point.machine.index.toNat
            ∧ point.machine.index.toNat ≤ 0x9B := by
  constructor
  · intro state digit column row point draw same points draws r c
    obtain ⟨memory, display, v, index⟩ := points.of_pointGlyph
    have holds : point.machine.memory.HoldsGlyphs := by
      rw [memory, same]
      exact Console.holdsGlyphs_run loads spares
    have registers (x : Nibble) : point.machine.register x = state.register x :=
      congrArg (·.get x) v
    have glyph := Machine.covers_of_glyph holds (Nat.mod_lt _ (by decide)) index column row r c
    rw [registers, registers] at glyph
    rw [draws.drawsSprite.display, display, glyph]
  · intro machine digit point points
    obtain ⟨_, _, _, index⟩ := points.of_pointGlyph
    exact ⟨index, by omega, by omega⟩

/-- Three digits are stored far behind the glyphs. Then the last digit of 0x2A is drawn so that two
of its columns pass the right edge of a blank display and two of its rows the lower one.
-/
theorem glyph_is_cut_off_in_the_corner
    : let program : Array UInt8 :=
        #[0x60, 0x2A, 0x61, 0x3E, 0x62, 0x1D, 0xA3, 0x00, 0xF0, 0x33, 0xF0, 0x29, 0xD1, 0x25]
      ∃ machine,
        Machine.load program .modern (.ofSeed 0) = .ok machine
        ∧ let console : Console Script := ⟨machine, .holding []⟩
          let ticks : List Tick :=
            [.instruction, .instruction, .instruction, .timer, .instruction, .instruction]
          let point := (console.run ticks).machine.cycle []
          let draw := point.machine.cycle []
          console.SparesGlyphs ticks
          ∧ point.machine.index.toNat = 0x82
          ∧ (∀ r c, draw.machine.display.lit r c = Glyph.lights 0xA 29 62 r c)
          ∧ draw.machine.display.lit 30 62 = true
          ∧ draw.machine.display.lit 30 63 = false := by
  intro program
  have loads : Machine.load program .modern (.ofSeed 0)
      = .ok (.boot program .modern (.ofSeed 0)) :=
    rfl
  refine ⟨_, loads, ?_⟩
  intro console ticks point draw
  let reached := (console.run ticks).machine
  have spares : console.SparesGlyphs ticks :=
    .cons (by decide +kernel) <| .cons (by decide +kernel) <| .cons (by decide +kernel) <|
      .cons (by decide +kernel) <| .cons (by decide +kernel) <| .cons (by decide +kernel)
        Console.sparesGlyphs_nil
  have points : reached.Executes (.pointGlyph 0) point := .met [] (by decide +kernel)
  have draws : point.machine.Executes (.draw 1 2 5) draw := .met [] (by decide +kernel)
  have digit : (reached.register 0).toNat = 0x2A := by decide +kernel
  have column : (reached.register 1).toNat = 62 := by decide +kernel
  have row : (reached.register 2).toNat = 29 := by decide +kernel
  have blank : reached.display = .blank := by decide +kernel
  obtain ⟨drawn, pointed⟩ :=
    @built_in_glyphs_stay_drawable Script _ console _ _ _ loads _ spares
  have index := (pointed reached 0 point points).1
  have lit := drawn reached 0 1 2 point draw rfl points draws
  rw [digit] at index
  simp only [digit, column, row, blank, Frame.lit_blank, Bool.false_xor] at lit
  exact ⟨spares, index, lit, (lit 30 62).trans (by decide), (lit 30 63).trans (by decide)⟩

end Chip8
