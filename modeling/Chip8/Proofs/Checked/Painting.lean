import Chip8.FrontEnd.Phosphor
import Chip8.Proofs.Checked.Basic

/-! Painting pixel by pixel with every operation checked. A loop over the pixels of a picture lets
the brightness of each one fade and copies its colour into the picture; the front end lets the whole
display fade and makes the picture of it at once.
-/

namespace Chip8.Checked

variable (palette : Phosphor.Palette) (frame : Frame) (dt : Float32)

/-- The bytes of a colour, with full opacity. -/
def opaqueBytes (colour : Colour) : List UInt8 :=
  [colour.red, colour.green, colour.blue, 0xFF]

/-- The colour of a pixel, whose brightness is looked up unless its column is marked. -/
def shade (brightness : Phosphor.Brightness) (y x : Nat) (lit : Bool) : Checked Colour := do
  let odd ← remainder x 2
  if lit && palette.marksColumns && odd == 0 then return Phosphor.Palette.marking
  else return palette.background.blend palette.foreground (← entry (← entry brightness y) x)

/-- The brightness of a pixel after `dt` seconds, which is looked up unless the pixel is lit. -/
def fadePixel (row : Vector Float32 64) (x : Nat) (lit : Bool) : Checked Float32 :=
  if lit then return 1.0 else do return Phosphor.decay (← entry row x) dt

/-- One round: the pixel with the number of the round fades, and its colour is copied. -/
def paintPixel (state : Phosphor.Brightness × Phosphor.Picture) (place : Nat)
    : Checked (Phosphor.Brightness × Phosphor.Picture) := do
  let x ← remainder place Frame.width
  let y ← quotient place Frame.width
  let lit ← pixel frame y x
  let row ← entry state.1 y
  let level ← fadePixel dt row x lit
  let brightness ← replace state.1 y (← replace row x level)
  let colour ← shade palette brightness y x lit
  let picture ← copyInto state.2 (4 * place) (4 * place + 4) (opaqueBytes colour)
  return (brightness, picture)

/-- Paints all pixels of a picture, four bytes each. -/
def paintAll (brightness : Phosphor.Brightness) (picture : Phosphor.Picture)
    : Checked (Phosphor.Brightness × Phosphor.Picture) := do
  let pixels ← quotient picture.size 4
  (List.range pixels).foldlM (paintPixel palette frame dt) (brightness, picture)

/-- How far a painting has come: the pixels before `count` have faded and have their colours. -/
structure Painted (before : Phosphor.Brightness) (count : Nat)
    (state : Phosphor.Brightness × Phosphor.Picture)
    : Prop where
  brightness
    : ∀ y x,
        (state.1.get y).get x
          = if 64 * y.val + x.val < count then ((Phosphor.fade frame dt before).get y).get x
            else (before.get y).get x
  picture
    : ∀ place,
        place.val < 4 * count
        → state.2.get place
          = (Phosphor.picture palette frame (Phosphor.fade frame dt before)).get place

theorem get_fade (before : Phosphor.Brightness) (y : Fin 32) (x : Fin 64)
    : ((Phosphor.fade frame dt before).get y).get x
      = Phosphor.fadePixel (frame.lit y x) ((before.get y).get x) dt := by
  rw [Phosphor.fade, get_tabulate, get_tabulate]

theorem get_picture (brightness : Phosphor.Brightness) (place : Fin 8192) {y : Fin 32} {x : Fin 64}
    (inRow : y.val = place.val / 4 / 64) (inColumn : x.val = place.val / 4 % 64)
    : (Phosphor.picture palette frame brightness).get place
      = Phosphor.channel
          (palette.shade x.val (frame.lit y x) ((brightness.get y).get x)) (place.val % 4) := by
  obtain ⟨y, _⟩ := y
  obtain ⟨x, _⟩ := x
  simp only at inRow inColumn
  subst inRow inColumn
  rw [Phosphor.picture, get_tabulate, getElem_tabulate]

theorem fadePixel_eq (row : Vector Float32 64) (x : Fin 64) (lit : Bool)
    : fadePixel dt row x.val lit = .ok (Phosphor.fadePixel lit (row.get x) dt) := by
  cases lit with
  | true => rfl
  | false =>
      rw [fadePixel, entry_fin]
      rfl

theorem shade_eq (brightness : Phosphor.Brightness) (y : Fin 32) (x : Fin 64) (lit : Bool)
    : shade palette brightness y.val x.val lit
      = .ok (palette.shade x.val lit ((brightness.get y).get x)) := by
  rw [shade, remainder_of_ne (by decide), ok_bind, entry_fin, ok_bind, entry_fin, ok_bind,
    Phosphor.Palette.shade]
  split <;> rfl

theorem getElem?_opaqueBytes (colour : Colour) {place : Nat} (small : place < 4)
    : (opaqueBytes colour)[place]? = some (Phosphor.channel colour place) := by
  match place with
  | 0 | 1 | 2 | 3 => rfl

theorem paintPixel_eq (state : Phosphor.Brightness × Phosphor.Picture) {place : Nat} {y : Fin 32}
    {x : Fin 64} (here : 64 * y.val + x.val = place)
    : let level := Phosphor.fadePixel (frame.lit y x) ((state.1.get y).get x) dt
      paintPixel palette frame dt state place
        = .ok
            (replaceAt state.1 y (replaceAt (state.1.get y) x level),
              overlay state.2 (4 * place)
                (opaqueBytes (palette.shade x.val (frame.lit y x) level))) := by
  intro level
  have column : remainder place Frame.width = .ok x.val := by
    rw [remainder_of_ne (by decide)]
    apply congrArg Except.ok
    rw [Frame.width]
    omega
  have row : quotient place Frame.width = .ok y.val := by
    rw [quotient_of_ne (by decide)]
    apply congrArg Except.ok
    rw [Frame.width]
    omega
  have faded
      : ((replaceAt state.1 y (replaceAt (state.1.get y) x level)).get y).get x = level := by
    rw [get_replaceAt, if_pos rfl, get_replaceAt, if_pos rfl]
  have inside : 4 * place ≤ 4 * place + 4 ∧ 4 * place + 4 ≤ 8192 := by omega
  have four : (opaqueBytes (palette.shade x.val (frame.lit y x) level)).length
      = 4 * place + 4 - 4 * place := by
    rw [Nat.add_sub_cancel_left]
    rfl
  simp only [paintPixel, column, row, pixel_fin, entry_fin, replace_fin, fadePixel_eq, shade_eq,
    ok_bind, pure_eq_ok]
  rw [faded, copyInto_of_fits _ inside four]
  rfl

theorem paintPixel_goes {before : Phosphor.Brightness} {count : Nat} (within : count < 2048)
    {state : Phosphor.Brightness × Phosphor.Picture}
    (painted : Painted palette frame dt before count state)
    : ∃ next,
        paintPixel palette frame dt state count = .ok next
        ∧ Painted palette frame dt before (count + 1) next := by
  let y : Fin 32 := ⟨count / 64, by omega⟩
  let x : Fin 64 := ⟨count % 64, by omega⟩
  have here : 64 * y.val + x.val = count := Nat.div_add_mod count 64
  refine ⟨_, paintPixel_eq palette frame dt state here, ?_⟩
  have kept : (state.1.get y).get x = (before.get y).get x := by
    rw [painted.brightness, if_neg (by omega)]
  rw [kept, ← get_fade]
  constructor
  · intro r c
    rw [get_replaceAt]
    by_cases row : y = r
    · subst row
      rw [if_pos rfl, get_replaceAt]
      by_cases column : x = c
      · subst column
        rw [if_pos rfl, if_pos (by omega)]
      · have same : 64 * y.val + c.val < count + 1 ↔ 64 * y.val + c.val < count := by
          rw [Fin.ext_iff] at column
          omega
        rw [if_neg column, painted.brightness]
        simp only [same]
    · have same : 64 * r.val + c.val < count + 1 ↔ 64 * r.val + c.val < count := by
        rw [Fin.ext_iff] at row
        omega
      rw [if_neg row, painted.brightness]
      simp only [same]
  · intro place bound
    rw [get_overlay]
    by_cases earlier : place.val < 4 * count
    · rw [if_pos earlier]
      exact painted.picture place earlier
    · have channel : place.val - 4 * count = place.val % 4 := by omega
      rw [if_neg earlier, channel, getElem?_opaqueBytes _ (by omega), Option.getD_some]
      exact (get_picture palette frame _ place (by omega) (by omega)).symm

theorem paintAll_eq (brightness : Phosphor.Brightness) (picture : Phosphor.Picture)
    : paintAll palette frame dt brightness picture
      = .ok
          (Phosphor.fade frame dt brightness,
            Phosphor.picture palette frame (Phosphor.fade frame dt brightness)) := by
  have begun : Painted palette frame dt brightness 0 (brightness, picture) := by
    constructor
    · intro y x
      rw [if_neg (Nat.not_lt_zero _)]
    · intro place before
      omega
  obtain ⟨last, loop, painted⟩ :=
    foldlM_range (fun count => Painted palette frame dt brightness count) begun
      fun count (within : count < 2048) _ => paintPixel_goes palette frame dt within
  have faded : last.1 = Phosphor.fade frame dt brightness := by
    apply ext_get
    intro y
    apply ext_get
    intro x
    rw [painted.brightness, if_pos (by omega)]
  have drawn : last.2 = Phosphor.picture palette frame (Phosphor.fade frame dt brightness) := by
    apply ext_get
    intro place
    exact painted.picture place (by omega)
  have pixels : quotient picture.size 4 = .ok 2048 := by
    rw [Vector.size]
    rfl
  rw [paintAll, pixels, ok_bind, loop, ← drawn, ← faded]

end Chip8.Checked
