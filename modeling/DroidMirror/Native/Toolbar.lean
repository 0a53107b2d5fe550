import DroidMirror.Lib.Checked
import DroidMirror.Native.App

/-! # The toolbar

`crates/native/src/toolbar.rs`, every operation on unsigned numbers and every
write a step that may panic, and `App::paint_bar`, which paints the toolbar
again whenever the window changes. What is drawn outside the picture is cut off
and never panics; what panics is the width left between the gaps at the two
ends, when the window has no room for them (`paint_returns_iff`). -/
namespace DroidMirror.Native
open DroidMirror.Proto DroidMirror.Lib.Checked

namespace Toolbar

structure ToolbarState where
  gif : Bool
  mp4 : Bool

abbrev Rgba := Vector UInt8 4

/-- `v as u32`. -/
def asU32 (v : Nat) : Nat := v % 2 ^ 32

/-! ## Pixels -/

def put (px : List UInt8) (stride x y : Nat) (rgba : Rgba) : Option (List UInt8) := do
  let i ← mul 64 (← add 32 (← mul 32 y stride) x) 4
  let stop ← add 64 i 4
  if stop ≤ px.length then write px i rgba.toList else some px

def fill (px : List UInt8) (stride x y w h : Nat) (rgba : Rgba) : Option (List UInt8) := do
  let rows := min (saturatingAdd 32 y h) (asU32 px.length / max (← mul 32 stride 4) 1)
  let cols := min (saturatingAdd 32 x w) stride
  (List.range' y (rows - y)).foldlM (fun px row =>
    (List.range' x (cols - x)).foldlM (fun px col => put px stride col row rgba) px) px

/-! ## Text -/

/-- Seven rows of five pixels, bit 4 the leftmost. -/
def glyph (c : Char) : Vector UInt8 7 :=
  match c.toUpper with
  | 'A' => #v[0x0E, 0x11, 0x11, 0x1F, 0x11, 0x11, 0x11]
  | 'B' => #v[0x1E, 0x11, 0x11, 0x1E, 0x11, 0x11, 0x1E]
  | 'C' => #v[0x0E, 0x11, 0x10, 0x10, 0x10, 0x11, 0x0E]
  | 'E' => #v[0x1F, 0x10, 0x10, 0x1E, 0x10, 0x10, 0x1F]
  | 'F' => #v[0x1F, 0x10, 0x10, 0x1E, 0x10, 0x10, 0x10]
  | 'G' => #v[0x0E, 0x11, 0x10, 0x17, 0x11, 0x11, 0x0F]
  | 'H' => #v[0x11, 0x11, 0x11, 0x1F, 0x11, 0x11, 0x11]
  | 'I' => #v[0x0E, 0x04, 0x04, 0x04, 0x04, 0x04, 0x0E]
  | 'K' => #v[0x11, 0x12, 0x14, 0x18, 0x14, 0x12, 0x11]
  | 'L' => #v[0x10, 0x10, 0x10, 0x10, 0x10, 0x10, 0x1F]
  | 'M' => #v[0x11, 0x1B, 0x15, 0x15, 0x11, 0x11, 0x11]
  | 'N' => #v[0x11, 0x19, 0x15, 0x13, 0x11, 0x11, 0x11]
  | 'O' => #v[0x0E, 0x11, 0x11, 0x11, 0x11, 0x11, 0x0E]
  | 'P' => #v[0x1E, 0x11, 0x11, 0x1E, 0x10, 0x10, 0x10]
  | 'R' => #v[0x1E, 0x11, 0x11, 0x1E, 0x14, 0x12, 0x11]
  | 'S' => #v[0x0F, 0x10, 0x10, 0x0E, 0x01, 0x01, 0x1E]
  | 'V' => #v[0x11, 0x11, 0x11, 0x11, 0x11, 0x0A, 0x04]
  | 'W' => #v[0x11, 0x11, 0x11, 0x15, 0x15, 0x15, 0x0A]
  | '4' => #v[0x04, 0x04, 0x14, 0x1F, 0x04, 0x04, 0x04]
  | '+' => #v[0x04, 0x04, 0x04, 0x1F, 0x04, 0x04, 0x04]
  | '-' => #v[0x00, 0x00, 0x00, 0x1F, 0x00, 0x00, 0x00]
  | _ => #v[0, 0, 0, 0, 0, 0, 0]

/-- The pixels of one character, each a square. -/
def blitGlyph (px : List UInt8) (stride cx cy scale : Nat) (ch : Char) (rgba : Rgba) :
    Option (List UInt8) :=
  (glyph ch).toList.zipIdx.foldlM (fun px (row, gy) =>
    (List.range 5).foldlM (fun px gx => do
      if row.toNat &&& 1 <<< (4 - gx) = 0 then some px
      else
        let x ← add 32 cx (← mul 32 gx scale)
        let y ← add 32 cy (← mul 32 gy scale)
        fill px stride x y scale scale rgba) px) px

/-- One character of `blit_text`, and on to the place of the next. -/
def blitChar (stride cy scale gap : Nat) (rgba : Rgba) (p : List UInt8 × Nat) (ch : Char) :
    Option (List UInt8 × Nat) := do
  let px ← blitGlyph p.1 stride p.2 cy scale ch rgba
  let cx ← add 32 p.2 (← add 32 (← mul 32 5 scale) gap)
  some (px, cx)

def blitText (px : List UInt8) (stride x y w h : Nat) (text : String) (scale : Int) (rgba : Rgba) :
    Option (List UInt8) := do
  let scale := (max scale 1).toNat
  let gap := scale
  let textW ← mul 32 (asU32 text.length) (← add 32 (← mul 32 5 scale) gap)
  let textH ← mul 32 7 scale
  let cx ← add 32 x ((w - textW) / 2)
  let cy ← add 32 y ((h - textH) / 2)
  let (px, _) ← text.toList.foldlM (blitChar stride cy scale gap rgba) (px, cx)
  some px

/-! ## Rows -/

/-- One slot of `draw_row`, its background and its label. -/
def drawSlot (px : List UInt8) (stride sx y sw h : Nat) (label : String) (hot : Bool) :
    Option (List UInt8) := do
  let bg : Rgba := if hot then #v[150, 32, 36, 255] else #v[36, 36, 42, 255]
  let px ← fill px stride sx y sw h bg
  let scale : Nat := min (max (h / 10) 2) 6
  blitText px stride sx y sw h label scale #v[242, 242, 244, 255]

def drawRow (px : List UInt8) (stride x y w h : Nat) (labels : List String) (hot : List Bool) :
    Option (List UInt8) :=
  if w = 0 ∨ h = 0 ∨ labels = [] then some px
  else do
    let slot ← div w (asU32 labels.length)
    labels.zipIdx.foldlM (fun px (label, i) => do
      let sx ← add 32 x (← mul 32 slot (asU32 i))
      if i + 1 = labels.length then
        let sw ← sub w (← mul 32 slot (asU32 i))
        drawSlot px stride sx y sw h label (hot.getD i false)
      else drawSlot px stride sx y (slot - 2) h label (hot.getD i false)) px

def captureLabels : List String := ["PNG", "GIF", "MP4"]

def navLabels : List String := ["Back", "Home", "Apps", "Power", "Vol-", "Vol+"]

def paint (width height : Nat) (state : ToolbarState) : Option (List UInt8) := do
  let w := max width 1
  let h := max height 1
  let len ← mul 32 (← mul 32 w h) 4
  let px ← fill (List.replicate len 0) w 0 0 w h #v[18, 18, 20, 255]
  let rowH := h / 2
  let gap := max (h / 40) 1
  let px ← drawRow px w gap gap (← sub w (← mul 32 gap 2)) (rowH - gap)
    captureLabels [false, state.gif, state.mp4]
  drawRow px w gap rowH (← sub w (← mul 32 gap 2)) (← sub (← sub h rowH) gap)
    navLabels (List.replicate 6 false)

/-! ## What never panics -/

/-- The step gives a picture of so many bytes. -/
def Paints (n : Nat) (r : Option (List UInt8)) : Prop := ∃ px, r = some px ∧ px.length = n

section
variable {px : List UInt8} {stride x y w h n : Nat}

/-- A pixel of a row the picture has is written. -/
theorem put_paints (hn : n < 2 ^ 32) (hx : x < stride) (hy : (y + 1) * stride * 4 ≤ n)
    (hpx : px.length = n) (rgba : Rgba) : Paints n (put px stride x y rgba) := by
  rw [Nat.succ_mul] at hy
  have hlen : rgba.toList.length = 4 := rgba.size_toArray
  obtain ⟨out, hout, hsize⟩ := @write_ok _ px ((y * stride + x) * 4) rgba.toList (by omega)
  refine ⟨out, ?_, by omega⟩
  rw [put, bind_value (mul_ok (by omega)), bind_value (add_ok (by omega)),
    bind_value (mul_ok (by omega)), bind_value (add_ok (by omega)), if_pos (by omega), hout]

/-- A rectangle is cut to the picture, wherever it lies. -/
theorem fill_paints (hn : n < 2 ^ 32) (hs : stride * 4 < 2 ^ 32) (x y w h : Nat)
    (hpx : px.length = n) (rgba : Rgba) : Paints n (fill px stride x y w h rgba) := by
  rw [fill, bind_value (mul_ok hs)]
  refine foldlM_value (fun _ (px : List UInt8) => px.length = n) ?_ hpx
  intro row _ px' hrow hpx'
  refine foldlM_value (fun _ (px : List UInt8) => px.length = n) ?_ hpx'
  intro col _ px'' hcol hpx''
  rw [List.mem_range'_1] at hrow hcol
  have hstride : max (stride * 4) 1 = stride * 4 := by omega
  have hlen : asU32 px.length = n := by rw [hpx, asU32, Nat.mod_eq_of_lt hn]
  have hrows : row + 1 ≤ n / (stride * 4) := by rw [hlen, hstride] at hrow; omega
  have hy : (row + 1) * (stride * 4) ≤ n := (Nat.le_div_iff_mul_le (by omega)).mp hrows
  exact put_paints hn (by omega) (by rw [Nat.mul_assoc]; exact hy) hpx'' rgba

/-- The squares of a character start within five of it. -/
theorem blitGlyph_paints (hn : n < 2 ^ 32) (hs : stride * 4 < 2 ^ 32) {cx cy scale : Nat}
    (hx : cx + 5 * scale < 2 ^ 32) (hy : cy + 7 * scale < 2 ^ 32) (ch : Char) (rgba : Rgba)
    (hpx : px.length = n) : Paints n (blitGlyph px stride cx cy scale ch rgba) := by
  refine foldlM_value (fun _ (px : List UInt8) => px.length = n) ?_ hpx
  intro (row, gy) _ px' hrow hpx'
  refine foldlM_value (fun _ (px : List UInt8) => px.length = n) ?_ hpx'
  intro gx _ px'' hgx hpx''
  have hgy : gy < 7 := by
    have hlen : (glyph ch).toList.length = 7 := (glyph ch).size_toArray
    exact hlen ▸ (List.mem_zipIdx' hrow).1
  have hgx : gx < 5 := List.mem_range.mp hgx
  have hright : gx * scale ≤ 5 * scale := Nat.mul_le_mul_right scale hgx.le
  have hdown : gy * scale ≤ 7 * scale := Nat.mul_le_mul_right scale hgy.le
  show Paints n (if _ then _ else _)
  split
  · exact ⟨px'', rfl, hpx''⟩
  · rw [bind_value (mul_ok (by omega)), bind_value (add_ok (by omega)),
      bind_value (mul_ok (by omega)), bind_value (add_ok (by omega))]
    exact fill_paints hn hs _ _ _ _ hpx'' rgba

theorem blitChar_paints (hn : n < 2 ^ 32) (hs : stride * 4 < 2 ^ 32) (cy scale : Nat)
    {p : List UInt8 × Nat} (hx : p.2 + 6 * scale < 2 ^ 32) (hy : cy + 7 * scale < 2 ^ 32) (ch : Char)
    (rgba : Rgba) (hp : p.1.length = n) :
    ∃ out, blitChar stride cy scale scale rgba p ch = some (out, p.2 + 6 * scale) ∧ out.length = n := by
  obtain ⟨out, hglyph, hout⟩ :=
    @blitGlyph_paints p.1 stride n hn hs p.2 cy scale (by omega) hy ch rgba hp
  have hadvance : 5 * scale + scale = 6 * scale := by omega
  refine ⟨out, ?_, hout⟩
  rw [blitChar, bind_value hglyph, bind_value (mul_ok (by omega)), bind_value (add_ok (by omega)),
    hadvance, bind_value (add_ok (by omega))]

/-- A text is placed, and walked along, without passing the largest word. -/
theorem blitText_paints (hn : n < 2 ^ 32) (hs : stride * 4 < 2 ^ 32) {text : String} {scale : Nat}
    (hscale : 1 ≤ scale) (hx : x + w + text.length * (6 * scale) < 2 ^ 32)
    (hy : y + h + 7 * scale < 2 ^ 32) (hpx : px.length = n) (rgba : Rgba) :
    Paints n (blitText px stride x y w h text scale rgba) := by
  have hmax : (max (scale : Int) 1).toNat = scale := by omega
  have hcount : asU32 text.length = text.length := by
    have : text.length * 1 ≤ text.length * (6 * scale) := Nat.mul_le_mul_left _ (by omega)
    exact Nat.mod_eq_of_lt (by omega)
  have hadvance : 5 * scale + scale = 6 * scale := by omega
  rw [blitText, hmax, hcount, bind_value (mul_ok (by omega)), bind_value (add_ok (by omega)), hadvance,
    bind_value (mul_ok (by omega)), bind_value (mul_ok (by omega)), bind_value (add_ok (by omega)),
    bind_value (add_ok (by omega))]
  have hstart : px.length = n ∧
      x + (w - text.length * (6 * scale)) / 2 + text.toList.length * (6 * scale) < 2 ^ 32 := by
    rw [String.length_toList]
    omega
  -- what is left of the text fits behind the position reached
  obtain ⟨⟨px', cx⟩, hloop, hpx', -⟩ := foldlM_value
    (f := blitChar stride (y + (h - 7 * scale) / 2) scale scale rgba) (l := text.toList)
    (b := (px, x + (w - text.length * (6 * scale)) / 2))
    (fun rest p => p.1.length = n ∧ p.2 + rest.length * (6 * scale) < 2 ^ 32) (by
      intro ch rest p _ ⟨hp, hcx⟩
      rw [List.length_cons, Nat.succ_mul] at hcx
      obtain ⟨out, hchar, hout⟩ := blitChar_paints hn hs (y + (h - 7 * scale) / 2) scale
        (by omega) (by omega) ch rgba hp
      exact ⟨_, hchar, hout, by omega⟩) hstart
  rw [bind_value hloop]
  exact ⟨px', rfl, hpx'⟩

theorem drawSlot_paints (hn : n < 2 ^ 32) (hs : stride * 4 < 2 ^ 32) {label : String}
    (hshort : label.length ≤ 5) (hx : x + w + 180 < 2 ^ 32) (hy : y + h + 42 < 2 ^ 32)
    (hpx : px.length = n) (hot : Bool) : Paints n (drawSlot px stride x y w h label hot) := by
  have hwide : label.length * (6 * min (max (h / 10) 2) 6) ≤ 180 := by
    calc label.length * (6 * min (max (h / 10) 2) 6)
        ≤ 5 * 36 := Nat.mul_le_mul hshort (by omega)
      _ = 180 := rfl
  obtain ⟨px', hfill, hpx'⟩ := fill_paints hn hs x y w h hpx
    (if hot then #v[150, 32, 36, 255] else #v[36, 36, 42, 255])
  rw [drawSlot, bind_value hfill]
  exact blitText_paints hn hs (by omega) (by omega) (by omega) hpx' _

/-- The slots of a row lie within it, whatever their number. -/
theorem drawRow_paints (hn : n < 2 ^ 32) (hs : stride * 4 < 2 ^ 32) {labels : List String}
    (hlabels : labels.length < 2 ^ 32) (htext : ∀ label ∈ labels, label.length ≤ 5)
    (hx : x + 2 * w + 180 < 2 ^ 32) (hy : y + h + 42 < 2 ^ 32) (hpx : px.length = n)
    (hot : List Bool) : Paints n (drawRow px stride x y w h labels hot) := by
  unfold drawRow
  split
  · exact ⟨px, rfl, hpx⟩
  · rename_i hdrawn
    have hcount : asU32 labels.length = labels.length := Nat.mod_eq_of_lt hlabels
    have hpos : labels.length ≠ 0 := by
      rw [Ne, List.length_eq_zero_iff]
      exact fun h => hdrawn (.inr (.inr h))
    rw [hcount, bind_value (div_ok hpos)]
    refine foldlM_value (fun _ (px : List UInt8) => px.length = n) ?_ hpx
    intro (label, i) _ px' hlabel hpx'
    obtain ⟨hi, hget⟩ := List.mem_zipIdx' hlabel
    have hshort : label.length ≤ 5 := htext label (hget ▸ List.getElem_mem hi)
    have hi' : asU32 i = i := Nat.mod_eq_of_lt (by omega)
    have hslot : w / labels.length * i ≤ w :=
      Nat.le_trans (Nat.mul_le_mul_left _ hi.le) (Nat.div_mul_le_self w labels.length)
    have hwidth : w / labels.length ≤ w := Nat.div_le_self w labels.length
    have hmul : mul 32 (w / labels.length) i = some (w / labels.length * i) := mul_ok (by omega)
    simp only [hi', bind_value hmul,
      bind_value (add_ok (show x + w / labels.length * i < 2 ^ 32 by omega))]
    split
    · rw [bind_value (sub_ok hslot)]
      exact drawSlot_paints hn hs hshort (by omega) hy hpx' _
    · exact drawSlot_paints hn hs hshort (by omega) hy hpx' _

end

/-! ## What panics -/

/-- The window is wide enough for the gaps at the two ends of a row. -/
def RoomForGaps (width height : Nat) : Prop := max (height / 40) 1 * 2 ≤ width

section
variable {width height : Nat} (hw : 1 ≤ width) (hh : 1 ≤ height) (hfit : width * height * 4 < 2 ^ 32)
include hw hh hfit

/-- Neither side of the picture passes a quarter of the largest word. -/
theorem sides_lt : width < 2 ^ 30 ∧ height < 2 ^ 30 := by
  have hwide : width * 1 ≤ width * height := Nat.mul_le_mul_left width hh
  have htall : 1 * height ≤ width * height := Nat.mul_le_mul_right height hw
  omega

/-- The picture is there, filled, before its width is looked at. -/
theorem background_paints : Paints (width * height * 4)
    (fill (List.replicate (width * height * 4) 0) width 0 0 width height #v[18, 18, 20, 255]) := by
  obtain ⟨hwide, -⟩ := sides_lt hw hh hfit
  exact fill_paints hfit (by omega) _ _ _ _ List.length_replicate _

theorem paint_paints (hroom : RoomForGaps width height) (state : ToolbarState) :
    Paints (width * height * 4) (paint width height state) := by
  obtain ⟨hwide, htall⟩ := sides_lt hw hh hfit
  obtain ⟨px, hfill, hpx⟩ := background_paints hw hh hfit
  unfold RoomForGaps at hroom
  obtain ⟨px', hcapture, hpx'⟩ := @drawRow_paints px width (max (height / 40) 1) (max (height / 40) 1)
    (width - max (height / 40) 1 * 2) (height / 2 - max (height / 40) 1) _ hfit (by omega) captureLabels
    (by decide) (by decide) (by omega) (by omega) hpx [false, state.gif, state.mp4]
  rw [paint, max_eq_left hw, max_eq_left hh, bind_value (mul_ok (by omega)), bind_value (mul_ok hfit),
    bind_value hfill, bind_value (mul_ok (by omega)), bind_value (sub_ok hroom), bind_value hcapture,
    bind_value (mul_ok (by omega)), bind_value (sub_ok hroom), bind_value (sub_ok (by omega)),
    bind_value (sub_ok (by omega))]
  exact drawRow_paints hfit (by omega) (by decide) (by decide) (by omega) (by omega) hpx' _

/-- Without the room the width left between the gaps is below zero. -/
theorem paint_none (hroom : ¬ RoomForGaps width height) (state : ToolbarState) :
    paint width height state = none := by
  obtain ⟨hwide, htall⟩ := sides_lt hw hh hfit
  obtain ⟨px, hfill, -⟩ := background_paints hw hh hfit
  unfold RoomForGaps at hroom
  rw [paint, max_eq_left hw, max_eq_left hh, bind_value (mul_ok (by omega)), bind_value (mul_ok hfit),
    bind_value hfill, bind_value (mul_ok (by omega)), sub_underflow (by omega)]
  rfl

end

/-! ## The window -/

/-- What `write_texture` is given. -/
structure Texture where
  width : Nat
  height : Nat
  bytesPerRow : Nat
  rgba : List UInt8

def uploadToolbar (width height : Nat) (rgba : List UInt8) : Option (Option Texture) :=
  if width = 0 ∨ height = 0 then some none
  else do
    let len ← mul 32 (← mul 32 width height) 4
    if rgba.length < len then some none
    else
      let bytesPerRow ← mul 32 4 width
      some (some ⟨width, height, bytesPerRow, rgba⟩)

end Toolbar

namespace App
variable {F : Type} [F32Unsigned F]

/-- `toolbar_px.round().max(2.0) as u32`. -/
def barHeight (a : App F) : Nat :=
  let px := F32.round a.toolbarPx
  (F32Unsigned.toU32 (if 2.0 < px then px else 2.0)).toNat

/-- The texture uploaded, where the window has a surface to draw on. -/
def paintBar (a : App F) (gpu : Bool) : Option (Option Toolbar.Texture) :=
  match a.window with
  | none => some none
  | some size => do
    let width := max size.1.toNat 1
    let height := a.barHeight
    let px ← Toolbar.paint width height ⟨a.gif, a.mp4On⟩
    if gpu then Toolbar.uploadToolbar width height px else some none

end App

namespace Toolbar

theorem uploadToolbar_returns {width height : Nat} (hw : 1 ≤ width) (hh : 1 ≤ height)
    (hfit : width * height * 4 < 2 ^ 32) {rgba : List UInt8} (hlen : rgba.length = width * height * 4) :
    uploadToolbar width height rgba = some (some ⟨width, height, 4 * width, rgba⟩) := by
  obtain ⟨hwide, -⟩ := sides_lt hw hh hfit
  rw [uploadToolbar, if_neg (by omega), bind_value (mul_ok (by omega)), bind_value (mul_ok hfit),
    if_neg (by omega), bind_value (mul_ok (by omega))]

/-- Painting returns exactly in a window with room for the gaps, and so does the window's handler. -/
theorem paint_returns_iff {F : Type} [F32Unsigned F] {width height : Nat} (hw : 1 ≤ width)
    (hh : 1 ≤ height) (hfit : width * height * 4 < 2 ^ 32) :
    (∀ state, (paint width height state).isSome ↔ RoomForGaps width height) ∧
      ∀ (a : App F) (gpu : Bool) (size : UInt32 × UInt32), a.window = some size →
        max size.1.toNat 1 = width → a.barHeight = height →
        ((a.paintBar gpu).isSome ↔ RoomForGaps width height) := by
  by_cases hroom : RoomForGaps width height
  · refine ⟨fun state => iff_of_true ?_ hroom, ?_⟩
    · obtain ⟨px, hpaint, -⟩ := paint_paints hw hh hfit hroom state
      rw [hpaint]
      rfl
    · intro a gpu size hwindow hwidth hheight
      obtain ⟨px, hpaint, hpx⟩ := paint_paints hw hh hfit hroom ⟨a.gif, a.mp4On⟩
      refine iff_of_true ?_ hroom
      simp only [App.paintBar, hwindow, hwidth, hheight]
      rw [bind_value hpaint, uploadToolbar_returns hw hh hfit hpx]
      cases gpu with
      | true => rfl
      | false => rfl
  · refine ⟨fun state => iff_of_false ?_ hroom, ?_⟩
    · rw [paint_none hw hh hfit hroom state]
      exact Bool.false_ne_true
    · intro a gpu size hwindow hwidth hheight
      refine iff_of_false ?_ hroom
      simp only [App.paintBar, hwindow, hwidth, hheight, paint_none hw hh hfit hroom]
      exact Bool.false_ne_true

/-- The window of the source's test has room. -/
theorem paint_returns_at_300_80 : 300 * 80 * 4 < 2 ^ 32 ∧
    ∀ state, (paint 300 80 state).isSome :=
  ⟨by decide, fun state => ((@paint_returns_iff ℚ _ 300 80 (by decide) (by decide) (by decide)).1 state).mpr
    (by unfold RoomForGaps; decide)⟩

/-- A minimised window with the toolbar of a new one, eighty pixels high. -/
def minimised : App ℚ := (App.start false).resumed (0, 0) 1.0

theorem minimised_barHeight : minimised.barHeight = 80 := by
  have hpx : minimised.toolbarPx = (80 : ℚ) := by
    show (80.0 : ℚ) * 1.0 = 80
    norm_num
  have hround : F32.round (80 : ℚ) = ((80 : ℤ) : ℚ) := by
    rw [round_nearest (by norm_num)]
    exact congrArg Int.cast (Lib.Rounding.nearest_natCast 80)
  have hmax : (if (2.0 : ℚ) < ((80 : ℤ) : ℚ) then ((80 : ℤ) : ℚ) else 2.0) = ((80 : ℤ) : ℚ) :=
    if_pos (by norm_num)
  have h := @toU32_intCast 80 (by decide) (by decide)
  show (F32Unsigned.toU32 (if (2.0 : ℚ) < F32.round minimised.toolbarPx
    then F32.round minimised.toolbarPx else 2.0)).toNat = 80
  rw [hpx, hround, hmax]
  omega

/-- A minimised window has no room. -/
theorem minimised_bar_panics :
    (¬ ∀ width height state, 1 ≤ width → 1 ≤ height → width * height * 4 < 2 ^ 32 →
      (paint width height state).isSome) ∧
      minimised.barHeight = 80 ∧ ∀ gpu, minimised.paintBar gpu = none := by
  have hpanic (state : ToolbarState) : paint 1 80 state = none :=
    paint_none (by decide) (by decide) (by decide) (by unfold RoomForGaps; decide) state
  refine ⟨?_, minimised_barHeight, ?_⟩
  · intro h
    have hsome := h 1 80 ⟨false, false⟩ (by decide) (by decide) (by decide)
    rw [hpanic] at hsome
    exact Bool.false_ne_true hsome
  · intro gpu
    have hwindow : minimised.window = some (0, 0) := rfl
    have hwidth : max (0 : UInt32).toNat 1 = 1 := rfl
    simp only [App.paintBar, hwindow, hwidth, minimised_barHeight, hpanic]
    rfl

end Toolbar
end DroidMirror.Native
