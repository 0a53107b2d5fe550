import DroidMirror.Lib.Checked
import DroidMirror.Native.Gif
import DroidMirror.Server.FitSize

/-! # Smaller pictures

`fit_max_edge` of `crates/native/src/capture.rs`, with the loops that fill its
buffer and every operation of theirs that can panic. On a picture of the size it
says they never do, and give the picture `fitMaxEdge` is: its longest side is the
limit, no side grows, and every pixel is one of the picture's, the nearest above
and to the left (`fitMaxEdge_shrinks`). So are the frames of a recording
(`gif_frames_shrunk`). -/
namespace DroidMirror.Native
open DroidMirror.Proto DroidMirror.Lib.Checked DroidMirror.Lib.LittleEndian DroidMirror.Lib.Rounding
open DroidMirror.Lib.Run
open DroidMirror.Server (toNat_max toU32_round)

/-! ## The loops -/

/-- The body of the loops, at the pixel `(x, y)`. -/
def copyPixel (width nw : Nat) (rgba : List UInt8) (sy y : Nat) (out : List UInt8) (x : Nat) :
    Option (List UInt8) := do
  let sx := min (← div (← mul 32 x width) nw) (← sub width 1)
  let si ← mul 32 (← add 32 (← mul 32 sy width) sx) 4
  let di ← mul 32 (← add 32 (← mul 32 y nw) x) 4
  write out di (← range rgba si (si + 4))

def copyRow (width height nw nh : Nat) (rgba : List UInt8) (out : List UInt8) (y : Nat) :
    Option (List UInt8) := do
  let sy := min (← div (← mul 32 y height) nh) (← sub height 1)
  (List.range nw).foldlM (copyPixel width nw rgba sy y) out

/-- `out`, of the sizes computed. -/
def copyRows (width height nw nh : Nat) (rgba : List UInt8) : Option (List UInt8) := do
  let len ← mul 32 (← mul 32 nw nh) 4
  (List.range nh).foldlM (copyRow width height nw nh rgba) (List.replicate len 0)

section
variable (F : Type) [F32Unsigned F]

/-- `fit_max_edge`; `none` where it panics. -/
def fitMaxEdgeLoops (width height : UInt32) (rgba : List UInt8) (maxEdge : UInt32) :
    Option (UInt32 × UInt32 × List UInt8) := do
  let long := max (max width height) 1
  if long ≤ maxEdge ∨ width = 0 ∨ height = 0 then return (width, height, rgba)
  let scale : F := F32.ofInt maxEdge.toNat / F32.ofInt long.toNat
  let nw := max (F32Unsigned.toU32 (F32.round (F32.ofInt width.toNat * scale))) 1
  let nh := max (F32Unsigned.toU32 (F32.round (F32.ofInt height.toNat * scale))) 1
  let out ← copyRows width.toNat height.toNat nw.toNat nh.toNat rgba
  return (nw, nh, out)

end

/-! ## Pixels -/

/-- The pixel in the column `x` of the row `y`. -/
def pixel (rgba : List UInt8) (width x y : Nat) : List UInt8 :=
  slice rgba ((y * width + x) * 4) ((y * width + x) * 4 + 4)

/-- The pixel a pixel of the smaller picture is. -/
def sourcePixel (width height nw nh : Nat) (rgba : List UInt8) (x y : Nat) : List UInt8 :=
  pixel rgba width (x * width / nw) (y * height / nh)

/-- A picture of a pixel for each place. -/
def picture (nw nh : Nat) (at_ : Nat → Nat → List UInt8) : List UInt8 :=
  (List.range nh).flatMap fun y => (List.range nw).flatMap fun x => at_ x y

section
variable {width height nw nh : Nat} {rgba : List UInt8}

theorem length_pixel {x y : Nat} (hrgba : rgba.length = width * height * 4) (hx : x < width) (hy : y < height) :
    (pixel rgba width x y).length = 4 := by
  have hroom : (y + 1) * width ≤ height * width := Nat.mul_le_mul_right width hy
  rw [Nat.succ_mul] at hroom
  rw [pixel, length_slice, hrgba, Nat.mul_comm width height]
  omega

/-- A place of the smaller picture has one in the picture. -/
theorem scaled_lt {x : Nat} (hx : x < nw) (hw : 0 < width) : x * width / nw < width := by
  rw [Nat.div_lt_iff_lt_mul (by omega), Nat.mul_comm width nw]
  exact Nat.mul_lt_mul_of_pos_right hx hw

theorem length_sourcePixel (hrgba : rgba.length = width * height * 4) (hw : 0 < width) (hh : 0 < height)
    {x y : Nat} (hx : x < nw) (hy : y < nh) : (sourcePixel width height nw nh rgba x y).length = 4 :=
  length_pixel hrgba (scaled_lt hx hw) (scaled_lt hy hh)

/-- Sizes that fit the words they are computed in. -/
structure Sizes (width height nw nh : Nat) (rgba : List UInt8) : Prop where
  rgba : rgba.length = width * height * 4
  input : width * height * 4 < 2 ^ 32
  output : nw * nh * 4 < 2 ^ 32
  columns : nw * width < 2 ^ 32
  rows : nh * height < 2 ^ 32
  width_pos : 0 < width
  height_pos : 0 < height

/-- A place of a picture, in bytes. -/
theorem place_le {x y : Nat} (hx : x < nw) (hy : y < nh) : (y * nw + x) * 4 + 4 ≤ nw * nh * 4 := by
  have hroom : (y + 1) * nw ≤ nh * nw := Nat.mul_le_mul_right nw hy
  rw [Nat.succ_mul] at hroom
  rw [Nat.mul_comm nw nh]
  omega

theorem place_fits {a x n : Nat} (h : (a + x) * 4 + 4 ≤ n) (hn : n < 2 ^ 32) :
    a < 2 ^ 32 ∧ a + x < 2 ^ 32 ∧ (a + x) * 4 < 2 ^ 32 := by
  omega

theorem copyPixel_eq (h : Sizes width height nw nh rgba) {x y : Nat} (hx : x < nw) (hy : y < nh)
    (out : List UInt8) :
    copyPixel width nw rgba (y * height / nh) y out x =
      write out (y * nw * 4 + x * 4) (sourcePixel width height nw nh rgba x y) := by
  have hsx := scaled_lt hx h.width_pos
  have hsy := scaled_lt hy h.height_pos
  have hsource := place_le hsx hsy
  have hplace := place_le hx hy
  have hcolumn : x * width < 2 ^ 32 :=
    Nat.lt_of_le_of_lt (Nat.mul_le_mul_right width (Nat.le_of_lt hx)) h.columns
  have hi := place_fits hsource h.input
  have ho := place_fits hplace h.output
  unfold copyPixel
  rw [bind_value (mul_ok hcolumn), bind_value (div_ok (by omega)), bind_value (sub_ok h.width_pos)]
  simp only
  rw [Nat.min_eq_left (Nat.le_sub_one_of_lt hsx), bind_value (mul_ok hi.1), bind_value (add_ok hi.2.1),
    bind_value (mul_ok hi.2.2), bind_value (mul_ok ho.1), bind_value (add_ok ho.2.1),
    bind_value (mul_ok ho.2.2), bind_value (range_ok (Nat.le_add_right _ 4) (h.rgba.symm ▸ hsource)),
    Nat.add_mul (y * nw) x 4]
  rfl

theorem copyRow_eq (h : Sizes width height nw nh rgba) {y : Nat} (hy : y < nh) {out : List UInt8}
    (hout : out.length = nw * nh * 4) :
    copyRow width height nw nh rgba out y =
      write out (y * (nw * 4)) ((List.range nw).flatMap fun x => sourcePixel width height nw nh rgba x y) := by
  have hsy := scaled_lt hy h.height_pos
  have hrow : y * height < 2 ^ 32 := Nat.lt_of_le_of_lt (Nat.mul_le_mul_right height (Nat.le_of_lt hy)) h.rows
  have hmin : min (y * height / nh) (height - 1) = y * height / nh := Nat.min_eq_left (by omega)
  have hroom : y * nw * 4 + nw * 4 ≤ out.length := by
    have hrows : (y + 1) * nw ≤ nh * nw := Nat.mul_le_mul_right nw hy
    rw [Nat.succ_mul] at hrows
    rw [hout, Nat.mul_comm nw nh]
    omega
  unfold copyRow
  rw [bind_value (mul_ok hrow), bind_value (div_ok (by omega)), bind_value (sub_ok h.height_pos)]
  simp only
  rw [hmin, ← Nat.mul_assoc]
  exact foldlM_write (fun x hx => length_sourcePixel h.rgba h.width_pos h.height_pos hx hy)
    (fun x hx out _ => copyPixel_eq h hx hy out) hroom

/-- The loops fill the buffer with the picture. -/
theorem copyRows_eq (h : Sizes width height nw nh rgba) :
    copyRows width height nw nh rgba = some (picture nw nh (sourcePixel width height nw nh rgba)) := by
  have hlen : (List.replicate (nw * nh * 4) (0 : UInt8)).length = nw * nh * 4 := List.length_replicate
  have hpieces (y : Nat) (hy : y < nh) :
      ((List.range nw).flatMap fun x => sourcePixel width height nw nh rgba x y).length = nw * 4 :=
    length_flatMap_range fun x hx => length_sourcePixel h.rgba h.width_pos h.height_pos hx hy
  have hout := h.output
  unfold copyRows
  rw [bind_value (mul_ok (by omega)), bind_value (mul_ok hout)]
  have hsize : (picture nw nh (sourcePixel width height nw nh rgba)).length = nw * nh * 4 := by
    rw [picture, length_flatMap_range hpieces, ← Nat.mul_assoc, Nat.mul_comm nh nw]
  have hloop : (List.range nh).foldlM (copyRow width height nw nh rgba) (List.replicate (nw * nh * 4) 0) =
      write (List.replicate (nw * nh * 4) 0) 0 (picture nw nh (sourcePixel width height nw nh rgba)) := by
    refine foldlM_write hpieces (fun y hy out hsame => ?_) ?_
    · rw [Nat.zero_add]
      exact copyRow_eq h hy (hsame.trans hlen)
    · rw [hlen, Nat.zero_add, ← Nat.mul_assoc, Nat.mul_comm nh nw]
  rw [hloop, write, if_pos (by omega), hsize, Nat.zero_add, List.take_zero, List.nil_append,
    List.drop_of_length_le (Nat.le_of_eq hlen), List.append_nil]

theorem pixel_picture {at_ : Nat → Nat → List UInt8} (hat : ∀ x < nw, ∀ y < nh, (at_ x y).length = 4)
    {x y : Nat} (hx : x < nw) (hy : y < nh) : pixel (picture nw nh at_) nw x y = at_ x y := by
  have hrow (y : Nat) (hy : y < nh) : ((List.range nw).flatMap fun x => at_ x y).length = nw * 4 :=
    length_flatMap_range fun x hx => hat x hx y hy
  have hstart : (y * nw + x) * 4 = y * (nw * 4) + x * 4 := by rw [Nat.add_mul, Nat.mul_assoc]
  have hend : (y * nw + x) * 4 + 4 = y * (nw * 4) + (x + 1) * 4 := by
    rw [hstart, Nat.succ_mul x 4, Nat.add_assoc]
  have hinside : y * (nw * 4) + (x + 1) * 4 ≤ (y + 1) * (nw * 4) := by
    rw [Nat.succ_mul y]
    omega
  rw [pixel, hend, hstart, ← slice_slice hinside, picture, slice_flatMap_range hy hrow]
  exact slice_flatMap_range hx fun x hx => hat x hx y hy

/-- The pixels `fit_max_edge` reads, where no bound cuts them. -/
theorem picture_eq (h : Sizes width height nw nh rgba) : ((List.range nh).flatMap fun y =>
      let sy := min (y * height / nh) (height - 1)
      (List.range nw).flatMap fun x =>
        let sx := min (x * width / nw) (width - 1)
        let si := (sy * width + sx) * 4
        slice rgba si (si + 4)) = picture nw nh (sourcePixel width height nw nh rgba) := by
  refine List.flatMap_congr fun y hy => List.flatMap_congr fun x hx => ?_
  have hsx := scaled_lt (List.mem_range.mp hx) h.width_pos
  have hsy := scaled_lt (List.mem_range.mp hy) h.height_pos
  simp only
  rw [Nat.min_eq_left (Nat.le_sub_one_of_lt hsx), Nat.min_eq_left (Nat.le_sub_one_of_lt hsy)]
  rfl

end

/-! ## The sizes -/

section
variable {width height maxEdge : UInt32} {rgba : List UInt8}

/-- A side of the smaller picture. -/
def shrunkSide (v long maxEdge : UInt32) : UInt32 :=
  let scale : ℚ := F32.ofInt maxEdge.toNat / F32.ofInt long.toNat
  max (F32Unsigned.toU32 (F32.round (F32.ofInt v.toNat * scale))) 1

/-- A side shrinks to the limit at most, and the longest to the limit. -/
theorem shrunkSide_spec {v long : UInt32} (hv : 0 < v.toNat) (hlong : v.toNat ≤ long.toNat)
    (hedge : 0 < maxEdge.toNat) (hless : maxEdge.toNat < long.toNat) : 0 < (shrunkSide v long maxEdge).toNat ∧
      (shrunkSide v long maxEdge).toNat ≤ v.toNat ∧ (shrunkSide v long maxEdge).toNat ≤ maxEdge.toNat ∧
      (v = long → shrunkSide v long maxEdge = maxEdge) := by
  have hpos : (0 : ℚ) < long.toNat := by exact_mod_cast Nat.lt_trans hedge hless
  have hscale : (v.toNat : ℚ) * (maxEdge.toNat / long.toNat) ≤ v.toNat := by
    refine mul_le_of_le_one_right (Nat.cast_nonneg _) (div_le_one_of_le₀ ?_ hpos.le)
    exact_mod_cast hless.le
  have hlimit : (v.toNat : ℚ) * (maxEdge.toNat / long.toNat) ≤ maxEdge.toNat := by
    have hle : (v.toNat : ℚ) ≤ long.toNat := by exact_mod_cast hlong
    calc (v.toNat : ℚ) * (maxEdge.toNat / long.toNat)
        ≤ long.toNat * (maxEdge.toNat / long.toNat) := mul_le_mul_of_nonneg_right hle (by positivity)
      _ = maxEdge.toNat := by field_simp
  have hnonneg : (0 : ℚ) ≤ v.toNat * (maxEdge.toNat / long.toNat) := by positivity
  have hside : (shrunkSide v long maxEdge).toNat =
      max (nearest ((v.toNat : ℚ) * (maxEdge.toNat / long.toNat))).toNat 1 := by
    rw [shrunkSide, toNat_max]
    exact congrArg (max · 1) (toU32_round hnonneg hscale)
  have hle := nearest_le hscale
  have hle' := nearest_le hlimit
  refine ⟨by omega, by omega, by omega, ?_⟩
  rintro rfl
  have hexact : (v.toNat : ℚ) * (maxEdge.toNat / v.toNat) = maxEdge.toNat := by field_simp
  rw [hexact, nearest_natCast] at hside
  rw [← UInt32.toNat_inj, hside]
  omega

/-- What holds of a picture and the smaller one. -/
structure Shrunk (width height maxEdge : UInt32) (rgba : List UInt8) (nw nh : UInt32) (out : List UInt8) :
    Prop where
  longest : max nw.toNat nh.toNat = min (max width.toNat height.toNat) maxEdge.toNat
  sides : 0 < nw.toNat ∧ nw.toNat ≤ width.toNat ∧ 0 < nh.toNat ∧ nh.toNat ≤ height.toNat
  size : out.length = nw.toNat * nh.toNat * 4
  pixels : ∀ x < nw.toNat, ∀ y < nh.toNat, pixel out nw.toNat x y =
    pixel rgba width.toNat (x * width.toNat / nw.toNat) (y * height.toNat / nh.toNat)

theorem shrunk_picture {nw nh : UInt32} (h : Sizes width.toNat height.toNat nw.toNat nh.toNat rgba)
    (hlongest : max nw.toNat nh.toNat = min (max width.toNat height.toNat) maxEdge.toNat)
    (hsides : 0 < nw.toNat ∧ nw.toNat ≤ width.toNat ∧ 0 < nh.toNat ∧ nh.toNat ≤ height.toNat) :
    Shrunk width height maxEdge rgba nw nh
      (picture nw.toNat nh.toNat (sourcePixel width.toNat height.toNat nw.toNat nh.toNat rgba)) where
  longest := hlongest
  sides := hsides
  size := by
    have hrow (y : Nat) (hy : y < nh.toNat) : ((List.range nw.toNat).flatMap fun x =>
        sourcePixel width.toNat height.toNat nw.toNat nh.toNat rgba x y).length = nw.toNat * 4 :=
      length_flatMap_range fun x hx => length_sourcePixel h.rgba h.width_pos h.height_pos hx hy
    rw [picture, length_flatMap_range hrow, ← Nat.mul_assoc, Nat.mul_comm nh.toNat]
  pixels x hx y hy :=
    pixel_picture (fun x hx y hy => length_sourcePixel h.rgba h.width_pos h.height_pos hx hy) hx hy

/-- The code on a picture that is too large. -/
theorem fitMaxEdge_less (hless : ¬ (max (max width height) 1 ≤ maxEdge ∨ width = 0 ∨ height = 0))
    {nw nh : UInt32} (hnw : shrunkSide width (max (max width height) 1) maxEdge = nw)
    (hnh : shrunkSide height (max (max width height) 1) maxEdge = nh)
    (h : Sizes width.toNat height.toNat nw.toNat nh.toNat rgba) :
    let out := picture nw.toNat nh.toNat (sourcePixel width.toNat height.toNat nw.toNat nh.toNat rgba)
    fitMaxEdge ℚ width height rgba maxEdge = (nw, nh, out) ∧
      fitMaxEdgeLoops ℚ width height rgba maxEdge = some (nw, nh, out) := by
  subst hnw hnh
  unfold shrunkSide at h ⊢
  constructor
  · rw [fitMaxEdge]
    simp only
    rw [if_neg hless, picture_eq h]
  · rw [fitMaxEdgeLoops]
    simp only
    rw [if_neg hless, bind_value (copyRows_eq h)]
    rfl

/-- On a picture with a pixel for each place, whose bytes and whose longest side
times the limit can be counted in 32 bits, the loops do not panic. -/
theorem fitMaxEdge_shrinks (hw : 0 < width.toNat) (hh : 0 < height.toNat) (hedge : 0 < maxEdge.toNat)
    (hrgba : rgba.length = width.toNat * height.toNat * 4) (hinput : width.toNat * height.toNat * 4 < 2 ^ 32)
    (hlong : max width.toNat height.toNat * maxEdge.toNat < 2 ^ 32) :
    ∃ nw nh out, fitMaxEdge ℚ width height rgba maxEdge = (nw, nh, out) ∧
      fitMaxEdgeLoops ℚ width height rgba maxEdge = some (nw, nh, out) ∧
      Shrunk width height maxEdge rgba nw nh out := by
  have hne : ¬ (width = 0 ∨ height = 0) := by
    rintro (rfl | rfl)
    · cases hw
    · cases hh
  have hmax : (max (max width height) 1).toNat = max width.toNat height.toNat := by
    rw [toNat_max, toNat_max, UInt32.toNat_one]
    omega
  by_cases hkept : max (max width height) 1 ≤ maxEdge
  · have hle : max width.toNat height.toNat ≤ maxEdge.toNat := hmax ▸ UInt32.le_iff_toNat_le.mp hkept
    refine ⟨width, height, rgba, if_pos (.inl hkept), ?_, ?_, ?_, hrgba, fun x hx y hy => ?_⟩
    · rw [fitMaxEdgeLoops]
      simp only
      rw [if_pos (.inl hkept)]
      rfl
    · exact (Nat.min_eq_left hle).symm
    · exact ⟨hw, Nat.le_refl _, hh, Nat.le_refl _⟩
    · rw [Nat.mul_div_cancel _ hw, Nat.mul_div_cancel _ hh]
  · have hless : maxEdge.toNat < (max (max width height) 1).toNat := by
      rw [UInt32.le_iff_toNat_le] at hkept
      omega
    have hwlong : width.toNat ≤ (max (max width height) 1).toNat := hmax ▸ Nat.le_max_left _ _
    have hhlong : height.toNat ≤ (max (max width height) 1).toNat := hmax ▸ Nat.le_max_right _ _
    obtain ⟨hwpos, hwle, hwedge, hwis⟩ := shrunkSide_spec hw hwlong hedge hless
    obtain ⟨hhpos, hhle, hhedge, hhis⟩ := shrunkSide_spec hh hhlong hedge hless
    generalize hnw : shrunkSide width (max (max width height) 1) maxEdge = nw at *
    generalize hnh : shrunkSide height (max (max width height) 1) maxEdge = nh at *
    have hsizes : Sizes width.toNat height.toNat nw.toNat nh.toNat rgba := by
      refine ⟨hrgba, hinput, ?_, ?_, ?_, hw, hh⟩
      · exact Nat.lt_of_le_of_lt (Nat.mul_le_mul_right 4 (Nat.mul_le_mul hwle hhle)) hinput
      · rw [Nat.mul_comm]
        exact Nat.lt_of_le_of_lt (Nat.mul_le_mul (Nat.le_max_left _ _) hwedge) hlong
      · rw [Nat.mul_comm]
        exact Nat.lt_of_le_of_lt (Nat.mul_le_mul (Nat.le_max_right _ _) hhedge) hlong
    obtain ⟨hvalue, hloops⟩ := fitMaxEdge_less (not_or.mpr ⟨hkept, hne⟩) hnw hnh hsizes
    refine ⟨nw, nh, _, hvalue, hloops, shrunk_picture hsizes ?_ ⟨hwpos, hwle, hhpos, hhle⟩⟩
    have hreach : nw = maxEdge ∨ nh = maxEdge := by
      rcases Nat.le_total height.toNat width.toNat with hle | hle
      · exact .inl (hwis (UInt32.toNat_inj.mp (hmax.trans (Nat.max_eq_left hle)).symm))
      · exact .inr (hhis (UInt32.toNat_inj.mp (hmax.trans (Nat.max_eq_right hle)).symm))
    rw [Nat.min_eq_right (by omega)]
    rcases hreach with rfl | rfl
    · exact Nat.max_eq_left hhedge
    · exact Nat.max_eq_right hwedge

end

/-! ## The frames of a recording -/

/-- A decoded picture: it has an extent, and a pixel for each place. -/
structure RgbaFrame.Whole (f : RgbaFrame) : Prop where
  width_pos : 0 < f.width.toNat
  height_pos : 0 < f.height.toNat
  rgba : f.rgba.length = f.width.toNat * f.height.toNat * 4
  bytes : f.width.toNat * f.height.toNat * 4 < 2 ^ 32
  long : max f.width.toNat f.height.toNat * 480 < 2 ^ 32

theorem RgbaFrame.Whole.shrinks {f : RgbaFrame} (h : f.Whole) : ∃ nw nh out,
    fitMaxEdge ℚ f.width f.height f.rgba 480 = (nw, nh, out) ∧
      fitMaxEdgeLoops ℚ f.width f.height f.rgba 480 = some (nw, nh, out) ∧
      Shrunk f.width f.height 480 f.rgba nw nh out := by
  have hedge : (480 : UInt32).toNat = 480 := rfl
  exact fitMaxEdge_shrinks h.width_pos h.height_pos (by decide) h.rgba h.bytes (hedge.symm ▸ h.long)

namespace GifRecording

/-- A frame in the queue is one of those offered, smaller. -/
def FromOffers (past : List GifOffer) (s : GifRecording) : Prop :=
  ∀ q ∈ s.queued, ∃ o ∈ past,
    Shrunk o.frame.width o.frame.height 480 o.frame.rgba q.2.width q.2.height q.2.rgba

theorem fromOffers_step {past : List GifOffer} {s s' : GifRecording} {o : GifOffer} (hi : FromOffers past s)
    (hwhole : o.frame.Whole) (h : step ℚ s o = some s') : FromOffers (past ++ [o]) s' := by
  have hold : ∀ q ∈ s.queued, ∃ o' ∈ past ++ [o],
      Shrunk o'.frame.width o'.frame.height 480 o'.frame.rgba q.2.width q.2.height q.2.rgba := by
    intro q hq
    obtain ⟨o', ho', hshrunk⟩ := hi q hq
    exact ⟨o', List.mem_append_left _ ho', hshrunk⟩
  obtain ⟨nw, nh, out, hfit, -, hshrunk⟩ := hwhole.shrinks
  obtain rfl := Option.some.inj h
  unfold pushGif
  simp only
  split
  · exact hold
  · rw [hfit]
    split
    · exact List.forall_mem_append.mpr ⟨hold, List.forall_mem_singleton.mpr ⟨o, List.mem_append_right _
        (List.mem_singleton_self o), hshrunk⟩⟩
    · exact hold

/-- **GIF frames.** Of whole pictures no offer panics; every frame in the queue is
one of those offered, made smaller; and the worker finds them all small enough. -/
theorem gif_frames_shrunk {offers : List GifOffer} {s : GifRecording}
    (hrun : run (step ℚ) start offers = some s) (hwhole : ∀ o ∈ offers, o.frame.Whole) :
    (∀ o ∈ offers, fitMaxEdgeLoops ℚ o.frame.width o.frame.height o.frame.rgba 480 =
        some (fitMaxEdge ℚ o.frame.width o.frame.height o.frame.rgba 480)) ∧
      FromOffers offers s ∧ ∃ images, writeGif (s.queued.map Prod.snd) = .ok images := by
  have hmeets : Meets (step ℚ) (fun _ o => o.frame.Whole) start offers :=
    meets_iff.mpr fun before o after s hoffers _ => hwhole o (by simp [hoffers])
  have hfrom : FromOffers ([] ++ offers) s :=
    run_history (fun past s o s' hi ho hs => fromOffers_step hi ho hs) hrun hmeets fun q hq => nomatch hq
  refine ⟨fun o ho => ?_, hfrom, ?_⟩
  · obtain ⟨nw, nh, out, hfit, hloops, -⟩ := (hwhole o ho).shrinks
    rw [hfit, hloops]
  · cases hqueued : s.queued with
    | nil => exact ⟨[], rfl⟩
    | cons first rest =>
      obtain ⟨o, -, hshrunk⟩ := hfrom first (hqueued ▸ List.mem_cons_self)
      have hsides : max first.2.width.toNat first.2.height.toNat ≤ 480 :=
        hshrunk.longest.trans_le (Nat.min_le_right _ _)
      have hlimit : (65535 : UInt32).toNat = 65535 := rfl
      have hwidth : ¬ 65535 < first.2.width := by
        rw [UInt32.lt_iff_toNat_lt, hlimit]
        omega
      have hheight : ¬ 65535 < first.2.height := by
        rw [UInt32.lt_iff_toNat_lt, hlimit]
        omega
      exact ⟨_, (if_neg hwidth).trans (if_neg hheight)⟩

/-- A picture of 960 by 2. -/
theorem gif_frames_shrunk_wide : ∃ s,
    run (step ℚ) start [⟨0, ⟨960, 2, List.replicate 7680 9⟩, true⟩] = some s ∧
      ∃ images, writeGif (s.queued.map Prod.snd) = .ok images := by
  have hwhole : ∀ o ∈ [(⟨0, ⟨960, 2, List.replicate 7680 9⟩, true⟩ : GifOffer)], o.frame.Whole :=
    List.forall_mem_singleton.mpr ⟨by decide, by decide, List.length_replicate, by decide, by decide⟩
  exact ⟨_, rfl, (gif_frames_shrunk rfl hwhole).2.2⟩

end GifRecording

end DroidMirror.Native
