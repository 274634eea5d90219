import Chip8.FrontEnd.Basic
import Chip8.Proofs.Checked.Painting

/-! What a display that fades shows of one pixel. However often the front end draws, the brightness
of a pixel and its bytes come from the signals of this pixel alone: it is bright while it is lit,
and fades from then on.
-/

namespace Chip8

-----------------------------------------------------------------------------------------
-- One pixel by itself
-----------------------------------------------------------------------------------------

namespace Phosphor

/-- What a frame says of one pixel, `dt` seconds after the frame before. -/
structure Signal where
  lit : Bool
  dt : Float32

/-- One pixel of a display: its brightness, and its bytes on the surface. -/
structure Cell where
  brightness : Float32
  bytes : List UInt8

namespace Cell

variable (palette : Palette) (x : Nat)

/-- A pixel of column `x` after one more signal. -/
def step (cell : Cell) (signal : Signal) : Cell :=
  let brightness := fadePixel signal.lit cell.brightness signal.dt
  { brightness, bytes := Checked.opaqueBytes (palette.shade x signal.lit brightness) }

/-- A pixel of column `x` after signals that come one by one. -/
def run (cell : Cell) (signals : List Signal) : Cell :=
  signals.foldl (step palette x) cell

theorem run_append (cell : Cell) (earlier later : List Signal)
    : cell.run palette x (earlier ++ later) = (cell.run palette x earlier).run palette x later :=
  List.foldl_append

/-- A dark pixel fades, by induction over the signals. -/
theorem brightness_run_of_dark (cell : Cell) {signals : List Signal}
    (dark : ∀ signal ∈ signals, signal.lit = false)
    : (cell.run palette x signals).brightness
      = (signals.map Signal.dt).foldl decay cell.brightness := by
  induction signals generalizing cell with
  | nil => rfl
  | cons signal rest ih =>
      obtain ⟨dark_now, dark_later⟩ := List.forall_mem_cons.mp dark
      have faded : (cell.step palette x signal).brightness = decay cell.brightness signal.dt := by
        rw [step, dark_now]
        rfl
      rw [List.map_cons, List.foldl_cons, ← faded]
      exact ih (cell.step palette x signal) dark_later

/-- What was before a pixel was lit is forgotten, as lighting it makes it bright at once. -/
theorem brightness_run_of_lit (cell : Cell) (earlier : List Signal) {flash : Signal}
    (lit : flash.lit = true) {since : List Signal} (dark : ∀ signal ∈ since, signal.lit = false)
    : (cell.run palette x (earlier ++ flash :: since)).brightness
      = (since.map Signal.dt).foldl decay 1.0 := by
  have bright : ((cell.run palette x earlier).step palette x flash).brightness = 1.0 := by
    rw [step, lit]
    rfl
  rw [run_append, ← bright]
  exact brightness_run_of_dark palette x _ dark

/-- The bytes are those of the latest signal, at the brightness that it leaves. -/
theorem bytes_run_of_last (cell : Cell) {signals : List Signal} {last : Signal}
    (ends : signals.getLast? = some last)
    : (cell.run palette x signals).bytes
      = Checked.opaqueBytes
          (palette.shade x last.lit (cell.run palette x signals).brightness) := by
  obtain ⟨earlier, rfl⟩ := List.getLast?_eq_some_iff.mp ends
  rw [run_append]
  rfl

end Cell

/-- The bytes of a pixel of column `x`, with both colours that it may have. -/
theorem opaqueBytes_shade (palette : Palette) (x : Nat) (lit : Bool) (brightness : Float32)
    : let mixed := palette.background.blend palette.foreground brightness
      Checked.opaqueBytes (palette.shade x lit brightness)
      = if lit ∧ palette.marksColumns ∧ x % 2 = 0 then [0xFF, 0x00, 0x00, 0xFF]
        else [mixed.red, mixed.green, mixed.blue, 0xFF] := by
  intro mixed
  have marked
      : (lit && palette.marksColumns && x % 2 == 0) = true
        ↔ lit ∧ palette.marksColumns ∧ x % 2 = 0 := by
    simp only [Bool.and_eq_true, beq_iff_eq, and_assoc]
  rw [Palette.shade]
  simp only [marked]
  split <;> rfl

/-- The four bytes of the pixel in row `y` and column `x`. -/
def Picture.bytesAt (picture : Picture) (y : Fin 32) (x : Fin 64) : List UInt8 :=
  (picture.toList.drop (4 * (64 * y.val + x.val))).take 4

/-- The bytes of a pixel in a whole picture are those of its own colour. -/
theorem bytesAt_picture (palette : Palette) (frame : Frame) (brightness : Brightness)
    (y : Fin 32) (x : Fin 64)
    : Picture.bytesAt (picture palette frame brightness) y x
      = Checked.opaqueBytes (palette.shade x.val (frame.lit y x) ((brightness.get y).get x)) := by
  apply List.ext_getElem?
  intro channel
  rw [Picture.bytesAt, List.getElem?_take]
  split
  · next small =>
      let place : Fin 8192 := ⟨4 * (64 * y.val + x.val) + channel, by omega⟩
      have there
          : (picture palette frame brightness).toList[place.val]?
            = some ((picture palette frame brightness).get place) := by
        rw [Vector.getElem?_toList, Vector.getElem?_eq_getElem place.isLt]
        rfl
      have inRow : y.val = place.val / 4 / 64 := by
        simp only [place]
        omega
      have inColumn : x.val = place.val / 4 % 64 := by
        simp only [place]
        omega
      have inPixel : place.val % 4 = channel := by
        simp only [place]
        omega
      rw [List.getElem?_drop, there,
        Checked.get_picture palette frame brightness place inRow inColumn, inPixel,
        Checked.getElem?_opaqueBytes _ small]
  · next large =>
      exact (List.getElem?_eq_none (Nat.le_of_not_lt large)).symm

end Phosphor

-----------------------------------------------------------------------------------------
-- Drawing again and again
-----------------------------------------------------------------------------------------

/-- A frame that is drawn `dt` seconds after the one before. -/
structure Exposure where
  frame : Frame
  dt : Float32

/-- What is drawn of the pixel in row `y` and column `x`. -/
def Exposure.at (exposure : Exposure) (y : Fin 32) (x : Fin 64) : Phosphor.Signal where
  lit := exposure.frame.lit y x
  dt := exposure.dt

namespace FrontEnd

/-- Draws a frame that was just taken. -/
def expose (frontEnd : FrontEnd) (exposure : Exposure) : Except FrontEndError FrontEnd :=
  { frontEnd with frame := exposure.frame }.paint exposure.dt

/-- Draws frames one by one, up to the first failure. -/
def exposeAll (frontEnd : FrontEnd) (exposures : List Exposure) : Except FrontEndError FrontEnd :=
  exposures.foldlM expose frontEnd

/-- The pixel in row `y` and column `x`, on the surface of a front end. -/
def cell (frontEnd : FrontEnd) (surface : Surface) (y : Fin 32) (x : Fin 64) : Phosphor.Cell where
  brightness := (frontEnd.brightness.get y).get x
  bytes := Phosphor.Picture.bytesAt surface.picture y x

variable {frontEnd : FrontEnd} {surface : Surface} (shown : frontEnd.surface? = some surface)

include shown

/-- With a surface a drawing succeeds, and each pixel takes one step of its own. -/
theorem cell_expose (exposure : Exposure)
    : ∃ next drawn,
        frontEnd.expose exposure = .ok next
        ∧ next.surface? = some drawn
        ∧ next.palette = frontEnd.palette
        ∧ ∀ y x,
            next.cell drawn y x
            = (frontEnd.cell surface y x).step frontEnd.palette x.val (exposure.at y x) := by
  simp only [expose, paint, shown]
  refine ⟨_, _, rfl, rfl, rfl, ?_⟩
  intro y x
  simp only [cell, Phosphor.Cell.step, Exposure.at, Phosphor.bytesAt_picture, Checked.get_fade]

/-- After any drawings each pixel has run through its own signals, by induction over the drawings.
-/
theorem cell_exposeAll (exposures : List Exposure)
    : ∃ later drawn,
        frontEnd.exposeAll exposures = .ok later
        ∧ later.surface? = some drawn
        ∧ ∀ y x,
            later.cell drawn y x
            = (frontEnd.cell surface y x).run frontEnd.palette x.val
                (exposures.map (·.at y x)) := by
  induction exposures generalizing frontEnd surface with
  | nil => exact ⟨frontEnd, surface, rfl, shown, fun _ _ => rfl⟩
  | cons exposure rest ih =>
      obtain ⟨next, canvas, drawn_now, shown_next, palette, stepped⟩ := cell_expose shown exposure
      obtain ⟨later, drawn, drawn_later, shown_later, run⟩ := ih shown_next
      refine ⟨later, drawn, ?_, shown_later, ?_⟩
      · rw [exposeAll, List.foldlM_cons, drawn_now]
        exact drawn_later
      · intro y x
        rw [run, stepped, palette]
        rfl

end FrontEnd

open Phosphor in
/-- A front end that has a surface draws any frames, at any times. Then a pixel that was ever lit
has what is left of full brightness after the times since it was last lit, which is full
brightness if it is lit now, and a pixel that was never lit has what is left of the brightness
it began with. Its four bytes are the marking colour if it is lit and its column is marked, and
otherwise the colours of the palette mixed by its brightness. Another front end, with the same
palette and the same pixel to begin with, comes to the same brightness and the same bytes of this
pixel by any frames that say the same of it, whatever they say of others.
-/
theorem pixels_fade_by_themselves {frontEnd : FrontEnd} {surface : Surface}
    (shown : frontEnd.surface? = some surface) (exposures : List Exposure)
    : ∃ later drawn,
        frontEnd.exposeAll exposures = .ok later
        ∧ later.surface? = some drawn
        ∧ ∀ (y : Fin 32) (x : Fin 64),
            let signals := exposures.map (·.at y x)
            let level := (later.brightness.get y).get x
            (∀ earlier flash since,
              signals = earlier ++ flash :: since
              → flash.lit = true
              → (∀ signal ∈ since, signal.lit = false)
              → level = (since.map Signal.dt).foldl decay 1.0)
            ∧ ((∀ signal ∈ signals, signal.lit = false)
              → level
                = (signals.map Signal.dt).foldl decay ((frontEnd.brightness.get y).get x))
            ∧ (∀ last,
              exposures.getLast? = some last
              → let mixed := frontEnd.palette.background.blend frontEnd.palette.foreground level
                Picture.bytesAt drawn.picture y x
                = if last.frame.lit y x ∧ frontEnd.palette.marksColumns ∧ x.val % 2 = 0 then
                    [0xFF, 0x00, 0x00, 0xFF]
                  else [mixed.red, mixed.green, mixed.blue, 0xFF])
            ∧ ∀ (twin : FrontEnd) (canvas : Surface) (others : List Exposure),
                twin.surface? = some canvas
                → twin.palette = frontEnd.palette
                → twin.cell canvas y x = frontEnd.cell surface y x
                → others.map (·.at y x) = signals
                → ∃ alike covered,
                    twin.exposeAll others = .ok alike
                    ∧ alike.surface? = some covered
                    ∧ alike.cell covered y x = later.cell drawn y x := by
  obtain ⟨later, drawn, drawn_all, shown_later, cells⟩ := FrontEnd.cell_exposeAll shown exposures
  refine ⟨later, drawn, drawn_all, shown_later, ?_⟩
  intro y x signals level
  let before := frontEnd.cell surface y x
  have brightness : level = (before.run frontEnd.palette x.val signals).brightness :=
    congrArg Cell.brightness (cells y x)
  have bytes
      : Picture.bytesAt drawn.picture y x = (before.run frontEnd.palette x.val signals).bytes :=
    congrArg Cell.bytes (cells y x)
  refine ⟨?_, ?_, ?_, ?_⟩
  · intro earlier flash since split lit dark
    rw [brightness, split]
    exact before.brightness_run_of_lit frontEnd.palette x.val earlier lit dark
  · intro dark
    rw [brightness]
    exact before.brightness_run_of_dark frontEnd.palette x.val dark
  · intro last is_last mixed
    have ends : signals.getLast? = some (last.at y x) := by
      rw [List.getLast?_map, is_last]
      rfl
    rw [bytes, before.bytes_run_of_last frontEnd.palette x.val ends, ← brightness]
    exact opaqueBytes_shade frontEnd.palette x.val (last.frame.lit y x) level
  · intro twin canvas others shown_twin same_palette same_cell same_signals
    obtain ⟨alike, covered, drawn_alike, shown_alike, alike_cells⟩ :=
      FrontEnd.cell_exposeAll shown_twin others
    refine ⟨alike, covered, drawn_alike, shown_alike, ?_⟩
    rw [alike_cells, cells, same_palette, same_cell, same_signals]

open Phosphor in
/-- Three pixels of a row are lit, and fifty milliseconds later the third is lit alone. The first
has half of its brightness left and the third is marked. The first would come to the same if the
others had never been lit.
-/
theorem first_pixel_fades_beside_marked_one
    : let frontEnd :=
        (FrontEnd.detached
          { path := "glow", clock := 500, scale := 10, frequency := 350
            foreground := ⟨0x3D, 0x80, 0x26⟩, background := ⟨0xF9, 0xFF, 0xB3⟩
            dialect := .modern, seed? := none, verbose := true }
          "glow").resume
      let drawn (first second : UInt8) : List Exposure :=
        [⟨.sprite 0 0 [first], 0.016⟩, ⟨.sprite 0 0 [second], 0.05⟩]
      frontEnd.surface? = some .empty
      ∧ ∃ later surface alike covered,
          frontEnd.exposeAll (drawn 0xE0 0x20) = .ok later
          ∧ later.surface? = some surface
          ∧ (later.brightness.get 0).get 0 = 0.5
          ∧ Picture.bytesAt surface.picture 0 2 = [0xFF, 0x00, 0x00, 0xFF]
          ∧ frontEnd.exposeAll (drawn 0x80 0x00) = .ok alike
          ∧ alike.surface? = some covered
          ∧ alike.cell covered 0 0 = later.cell surface 0 0 := by
  intro frontEnd drawn
  have shown : frontEnd.surface? = some .empty := rfl
  obtain ⟨later, surface, drawn_all, shown_later, pixels⟩ :=
    pixels_fade_by_themselves shown (drawn 0xE0 0x20)
  obtain ⟨lit_first, _, _, twins⟩ := pixels 0 0
  obtain ⟨_, _, third, _⟩ := pixels 0 2
  -- The first pixel is lit by the highest bit of the pattern in the first frame alone.
  have first_signals {first second : UInt8}
      (lit : (Frame.sprite 0 0 [first]).lit 0 0 = true)
      (dark : (Frame.sprite 0 0 [second]).lit 0 0 = false)
      : (drawn first second).map (·.at 0 0) = [⟨true, 0.016⟩, ⟨false, 0.05⟩] := by
    simp only [drawn, List.map_cons, List.map_nil, Exposure.at, lit, dark]
  have signals := first_signals (by decide : (Frame.sprite 0 0 [0xE0]).lit 0 0 = true)
    (by decide : (Frame.sprite 0 0 [0x20]).lit 0 0 = false)
  have same := first_signals (by decide : (Frame.sprite 0 0 [0x80]).lit 0 0 = true)
    (by decide : (Frame.sprite 0 0 [0x00]).lit 0 0 = false)
  obtain ⟨alike, covered, twin⟩ :=
    twins frontEnd .empty (drawn 0x80 0x00) shown rfl rfl (same.trans signals.symm)
  refine ⟨shown, later, surface, alike, covered, drawn_all, shown_later, ?_, ?_, twin⟩
  · have half : decay 1.0 0.05 = 0.5 := by decide
    have faded := lit_first [] ⟨true, 0.016⟩ [⟨false, 0.05⟩] signals rfl (by simp)
    exact faded.trans half
  · have marked : (Frame.sprite 0 0 [0x20]).lit 0 2 = true := by decide
    exact (third ⟨.sprite 0 0 [0x20], 0.05⟩ rfl).trans (if_pos ⟨marked, rfl, rfl⟩)

end Chip8
