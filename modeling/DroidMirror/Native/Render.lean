import DroidMirror.Native.App
import Mathlib.Tactic.FieldSimp
import Mathlib.Tactic.Linarith
import Mathlib.Tactic.Ring

/-! # The picture in the window

`quad` and `update_quad` of `crates/native/src/render.rs`, and how the click
mapping of the client undoes it. The two letterboxes are one (`place_eq_letterbox`);
the mapping rounds to the nearest pixel corner, so that `mapToDevice_iff` holds of
one half of each pixel along each axis. -/
namespace DroidMirror.Native
open DroidMirror.Proto

structure Vert (F : Type) where
  pos : F × F
  uv : F × F

/-- The vertices of the triangle strip. -/
structure Quad (F : Type) where
  v0 : Vert F
  v1 : Vert F
  v2 : Vert F
  v3 : Vert F

/-- What `update_quad` reads. -/
structure Gpu (F : Type) where
  texW : UInt32
  texH : UInt32
  viewW : UInt32
  viewH : UInt32
  toolbarPx : F

section
variable {F : Type} [F32 F] [Neg F]

/-- `v.max(1.0)`. -/
def atLeastOne (v : F) : F := if 1.0 ≤ v then v else 1.0

/-- Letterboxed quad in NDC, sitting above `toolbarPx`. -/
def quad (texW texH viewW viewH toolbarPx fullH : F) : Quad F :=
  let videoH := atLeastOne (viewH - toolbarPx)
  let va := viewW / videoH
  let ia := if texH ≤ 0.0 then 1.0 else texW / texH
  let (sx, sy) := if ia < va then (ia / va, 1.0) else (1.0, va / ia)
  -- the toolbar is the bottom strip
  let top := 1.0
  let bottom := -1.0 + 2.0 * (toolbarPx / atLeastOne fullH)
  let midY := (top + bottom) * 0.5
  let halfY := (top - bottom) * 0.5 * sy
  let halfX := sx
  let y0 := midY - halfY
  let y1 := midY + halfY
  let x0 := -halfX
  let x1 := halfX
  { v0 := ⟨(x0, y0), (0.0, 1.0)⟩, v1 := ⟨(x0, y1), (0.0, 0.0)⟩
    v2 := ⟨(x1, y0), (1.0, 1.0)⟩, v3 := ⟨(x1, y1), (1.0, 0.0)⟩ }

def Gpu.updateQuad (g : Gpu F) : Quad F :=
  quad (F32.ofInt g.texW.toNat) (F32.ofInt g.texH.toNat) (F32.ofInt g.viewW.toNat) (F32.ofInt g.viewH.toNat)
    g.toolbarPx (F32.ofInt g.viewH.toNat)

end

/-! ## Drawing -/

/-- A triangle shows a point of the texture where it mixes positions and texture
coordinates of its corners alike. -/
def Shows (a b c : Vert ℚ) (uv pos : ℚ × ℚ) : Prop :=
  ∃ α β γ : ℚ, 0 ≤ α ∧ 0 ≤ β ∧ 0 ≤ γ ∧ α + β + γ = 1 ∧
    uv = (α * a.uv.1 + β * b.uv.1 + γ * c.uv.1, α * a.uv.2 + β * b.uv.2 + γ * c.uv.2) ∧
    pos = (α * a.pos.1 + β * b.pos.1 + γ * c.pos.1, α * a.pos.2 + β * b.pos.2 + γ * c.pos.2)

namespace Quad

/-- The triangles of the strip. -/
def Draws (q : Quad ℚ) (uv pos : ℚ × ℚ) : Prop :=
  Shows q.v0 q.v1 q.v2 uv pos ∨ Shows q.v1 q.v2 q.v3 uv pos

/-- Where the texture's point `uv` is drawn. -/
def place (q : Quad ℚ) (uv : ℚ × ℚ) : ℚ × ℚ :=
  (q.v1.pos.1 + uv.1 * (q.v3.pos.1 - q.v1.pos.1), q.v1.pos.2 + uv.2 * (q.v0.pos.2 - q.v1.pos.2))

end Quad

/-- From NDC to pixels of the window, from its top left. -/
def toWindow (width height : ℚ) (pos : ℚ × ℚ) : ℚ × ℚ :=
  ((pos.1 + 1) / 2 * width, (1 - pos.2) / 2 * height)

/-- The strip over a rectangle. -/
def Quad.strip (x0 x1 y0 y1 : ℚ) : Quad ℚ :=
  ⟨⟨(x0, y0), (0, 1)⟩, ⟨(x0, y1), (0, 0)⟩, ⟨(x1, y0), (1, 1)⟩, ⟨(x1, y1), (1, 0)⟩⟩

/-- The strip draws every point of the texture, at its place. -/
theorem draws_strip_iff (x0 x1 y0 y1 : ℚ) (uv pos : ℚ × ℚ) : (Quad.strip x0 x1 y0 y1).Draws uv pos ↔
    (0 ≤ uv.1 ∧ uv.1 ≤ 1) ∧ (0 ≤ uv.2 ∧ uv.2 ≤ 1) ∧ pos = (Quad.strip x0 x1 y0 y1).place uv := by
  obtain ⟨u, v⟩ := uv
  obtain ⟨x, y⟩ := pos
  simp only [Quad.Draws, Shows, Quad.strip, Quad.place, Prod.mk.injEq]
  constructor
  · rintro (⟨α, β, γ, hα, hβ, hγ, hsum, ⟨hu, hv⟩, hx, hy⟩ | ⟨α, β, γ, hα, hβ, hγ, hsum, ⟨hu, hv⟩, hx, hy⟩)
    · obtain rfl : β = 1 - α - γ := by linarith
      refine ⟨⟨by linarith, by linarith⟩, ⟨by linarith, by linarith⟩, ?_, ?_⟩
      · rw [hx, hu]
        ring
      · rw [hy, hv]
        ring
    · obtain rfl : α = 1 - β - γ := by linarith
      refine ⟨⟨by linarith, by linarith⟩, ⟨by linarith, by linarith⟩, ?_, ?_⟩
      · rw [hx, hu]
        ring
      · rw [hy, hv]
        ring
  · rintro ⟨⟨hu0, hu1⟩, ⟨hv0, hv1⟩, hx, hy⟩
    rcases le_total u v with huv | huv
    · refine .inl ⟨v - u, 1 - v, u, by linarith, by linarith, hu0, by ring, ⟨by ring, by ring⟩, ?_, ?_⟩
      · rw [hx]
        ring
      · rw [hy]
        ring
    · refine .inr ⟨1 - u, v, u - v, by linarith, hv0, by linarith, by ring, ⟨by ring, by ring⟩, ?_, ?_⟩
      · rw [hx]
        ring
      · rw [hy]
        ring

/-- The quad draws a frame's point at its place, and nowhere else. -/
theorem draws_quad_iff (texW texH viewW viewH toolbarPx fullH : ℚ) (uv pos : ℚ × ℚ) :
    (quad texW texH viewW viewH toolbarPx fullH).Draws uv pos ↔ (0 ≤ uv.1 ∧ uv.1 ≤ 1) ∧
      (0 ≤ uv.2 ∧ uv.2 ≤ 1) ∧ pos = (quad texW texH viewW viewH toolbarPx fullH).place uv := by
  have hzero : (0.0 : ℚ) = 0 := by norm_num
  have hone : (1.0 : ℚ) = 1 := by norm_num
  obtain ⟨x0, x1, y0, y1, hq⟩ : ∃ x0 x1 y0 y1,
      quad texW texH viewW viewH toolbarPx fullH = Quad.strip x0 x1 y0 y1 := by
    simp only [quad, hzero, hone]
    exact ⟨_, _, _, _, rfl⟩
  rw [hq]
  exact draws_strip_iff x0 x1 y0 y1 uv pos

/-! ## The letterboxes -/

/-- The part of the view that the picture takes along each axis. -/
def share (va ia : ℚ) : ℚ × ℚ := if ia < va then (ia / va, 1) else (1, va / ia)

theorem quad_eq_strip {texW texH viewW viewH toolbarPx : ℚ} (htex : 0 < texH)
    (hview : toolbarPx + 1 ≤ viewH) (hfull : 1 ≤ viewH) :
    quad texW texH viewW viewH toolbarPx viewH =
      let s := share (viewW / (viewH - toolbarPx)) (texW / texH)
      Quad.strip (-s.1) s.1 (toolbarPx / viewH - (1 - toolbarPx / viewH) * s.2)
        (toolbarPx / viewH + (1 - toolbarPx / viewH) * s.2) := by
  have hzero : (0.0 : ℚ) = 0 := by norm_num
  have hone : (1.0 : ℚ) = 1 := by norm_num
  have htwo : (2.0 : ℚ) = 2 := by norm_num
  have hhalf : (0.5 : ℚ) = 1 / 2 := by norm_num
  have hvideo : atLeastOne (viewH - toolbarPx) = viewH - toolbarPx := if_pos (by rw [hone]; linarith)
  have hheight : atLeastOne viewH = viewH := if_pos (by rw [hone]; exact hfull)
  have hia : ¬ texH ≤ 0 := not_le.mpr htex
  -- the middle of the picture, and half its height
  have hmid : ∀ b : ℚ, (1 + (-1 + 2 * b)) * (1 / 2) = b := fun b => by ring
  have hreach : ∀ b sy : ℚ, (1 - (-1 + 2 * b)) * (1 / 2) * sy = (1 - b) * sy := fun b sy => by ring
  simp only [quad, hvideo, hheight, hzero, hone, htwo, hhalf, if_neg hia, hmid, hreach, ← share.eq_1]
  rfl

theorem letterbox_eq_share {viewW viewH dispW dispH : ℚ} (hw : 0 ≤ viewW) (hh : 0 < viewH) (hdw : 0 < dispW)
    (hdh : 0 < dispH) : Client.letterbox viewW viewH dispW dispH =
      let s := share (viewW / viewH) (dispW / dispH)
      (viewW * s.1, viewH * s.2, (viewW - viewW * s.1) / 2, (viewH - viewH * s.2) / 2) := by
  have hhalf : (0.5 : ℚ) = 1 / 2 := by norm_num
  have hzero : (0.0 : ℚ) = 0 := by norm_num
  have haspect : 0 < dispW / dispH := div_pos hdw hdh
  simp only [Client.letterbox, share, hhalf, hzero]
  split
  · rename_i hlt
    have hw : viewW ≠ 0 := by
      rintro rfl
      rw [zero_div] at hlt
      linarith
    have hbox : viewW * (dispW / dispH / (viewW / viewH)) = viewH * (dispW / dispH) := by
      field_simp
    rw [hbox]
    simp only [Prod.mk.injEq]
    exact ⟨trivial, by ring, by ring, by ring⟩
  · have hbox : viewH * (viewW / viewH / (dispW / dispH)) = viewW / (dispW / dispH) := by
      field_simp
    rw [hbox]
    simp only [Prod.mk.injEq]
    exact ⟨by ring, trivial, by ring, by ring⟩

/-- What the quad draws is the letterbox of the click mapping: offset and size, in
pixels of the window. -/
theorem place_eq_letterbox {texW texH viewW viewH toolbarPx : ℚ} (htexW : 0 < texW) (htexH : 0 < texH)
    (hviewW : 0 ≤ viewW) (hview : toolbarPx + 1 ≤ viewH) (hfull : 1 ≤ viewH) (uv : ℚ × ℚ) :
    toWindow viewW viewH ((quad texW texH viewW viewH toolbarPx viewH).place uv) =
      let b := Client.letterbox viewW (viewH - toolbarPx) texW texH
      (b.2.2.1 + b.1 * uv.1, b.2.2.2 + b.2.1 * uv.2) := by
  have hheight : viewH ≠ 0 := by linarith
  rw [quad_eq_strip htexH hview hfull, letterbox_eq_share hviewW (by linarith) htexW htexH]
  simp only [Quad.strip, Quad.place, toWindow, Prod.mk.injEq]
  constructor
  · ring
  · field_simp
    ring

/-! ## Rounding -/

theorem toI32_intCast {k : ℤ} (h0 : 0 ≤ k) (h1 : k ≤ 65536) : F32.toI32 (k : ℚ) = .ofInt k := by
  have hk : ¬ (k : ℚ) < 0 := not_lt.mpr (by exact_mod_cast h0)
  have hsat : saturate (-2 ^ 31) (2 ^ 31 - 1) k = k := by
    unfold saturate
    omega
  change Int32.ofInt (saturate (-2 ^ 31) (2 ^ 31 - 1) (if (k : ℚ) < 0 then -⌊-(k : ℚ)⌋ else ⌊(k : ℚ)⌋)) = _
  rw [if_neg hk, Int.floor_intCast, hsat]

theorem toInt_ofInt_small {k : ℤ} (h0 : 0 ≤ k) (h1 : k ≤ 65536) : (Int32.ofInt k).toInt = k :=
  Int32.toInt_ofInt_of_le (by omega) (by omega)

theorem clampI32_ofInt {k n : ℤ} (h0 : 0 ≤ k) (h1 : k ≤ 65536) (hn : 1 ≤ n) (hn' : n ≤ 65535) :
    Client.clampI32 (.ofInt k) 0 (.ofInt n - 1) = .ofInt (min k (n - 1)) := by
  have hlast : Int32.ofInt n - 1 = .ofInt (n - 1) := (Int32.ofInt_sub n 1).symm
  have hneg : ¬ Int32.ofInt k < 0 := by
    rw [Int32.lt_iff_toInt_lt, toInt_ofInt_small h0 h1]
    exact not_lt.mpr h0
  have hlt : Int32.ofInt (n - 1) < Int32.ofInt k ↔ n - 1 < k := by
    rw [Int32.lt_iff_toInt_lt, toInt_ofInt_small h0 h1, toInt_ofInt_small (by omega) (by omega)]
  unfold Client.clampI32
  rw [hlast, if_neg hneg]
  split
  · rename_i h
    rw [min_eq_right (hlt.mp h).le]
  · rename_i h
    rw [min_eq_left (not_lt.mp fun hk => h (hlt.mpr hk))]

/-- Rounded and clamped, a position inside a pixel is that pixel if it is in the
first half, or the pixel the last. -/
theorem pixel_iff {q : ℚ} {i n : ℕ} (hi : i < n) (hn : n ≤ 65535) (h0 : i < q) (h1 : q < i + 1) :
    Client.clampI32 (F32.toI32 (F32.round q)) 0 (.ofInt n - 1) = .ofInt i ↔ q < i + 1 / 2 ∨ i + 1 = n := by
  have hq : 0 ≤ q := le_trans (Nat.cast_nonneg i) h0.le
  rw [round_nearest hq, Lib.Rounding.nearest]
  by_cases hhalf : q < i + 1 / 2
  · have hfloor : ⌊q + 1 / 2⌋ = (i : ℤ) := Int.floor_eq_iff.mpr ⟨by push_cast; linarith, by push_cast; linarith⟩
    rw [hfloor, toI32_intCast (by omega) (by omega), clampI32_ofInt (by omega) (by omega) (by omega) (by omega),
      min_eq_left (by omega)]
    exact iff_of_true rfl (.inl hhalf)
  · have hge : (i : ℚ) + 1 / 2 ≤ q := not_lt.mp hhalf
    have hfloor : ⌊q + 1 / 2⌋ = (i + 1 : ℤ) :=
      Int.floor_eq_iff.mpr ⟨by push_cast; linarith, by push_cast; linarith⟩
    rw [hfloor, toI32_intCast (by omega) (by omega), clampI32_ofInt (by omega) (by omega) (by omega) (by omega),
      ← Int32.toInt_inj, toInt_ofInt_small (by omega) (by omega), toInt_ofInt_small (by omega) (by omega),
      or_iff_right hhalf]
    omega

/-! ## Clicks -/

/-- The quad draws the frame's point, in pixels from its top left, there in the window. -/
def Gpu.Draws (g : Gpu ℚ) (x y : ℚ) (p : ℚ × ℚ) : Prop :=
  ∃ pos, g.updateQuad.Draws (x / g.texW.toNat, y / g.texH.toNat) pos ∧
    p = toWindow g.viewW.toNat g.viewH.toNat pos

/-- Strictly inside the rectangle onto which a pixel of the frame is drawn: between
its top left corner and its bottom right one. -/
def Gpu.Inside (g : Gpu ℚ) (i j : ℕ) (p : ℚ × ℚ) : Prop :=
  ∃ a b, g.Draws i j a ∧ g.Draws (i + 1) (j + 1) b ∧ (a.1 < p.1 ∧ p.1 < b.1) ∧ a.2 < p.2 ∧ p.2 < b.2

/-- Where that is. -/
def Gpu.drawn (g : Gpu ℚ) (x y : ℚ) : ℚ × ℚ :=
  toWindow g.viewW.toNat g.viewH.toNat (g.updateQuad.place (x / g.texW.toNat, y / g.texH.toNat))

/-- Left of the pixel's middle and above it, where there is a pixel to the right of
it and below. -/
def Gpu.BeforeMiddle (g : Gpu ℚ) (i j : ℕ) (p : ℚ × ℚ) : Prop :=
  (p.1 < (g.drawn (i + 1 / 2) (j + 1 / 2)).1 ∨ i + 1 = g.texW.toNat) ∧
    (p.2 < (g.drawn (i + 1 / 2) (j + 1 / 2)).2 ∨ j + 1 = g.texH.toNat)

instance (g : Gpu ℚ) (i j : ℕ) (p : ℚ × ℚ) : Decidable (g.BeforeMiddle i j p) :=
  inferInstanceAs (Decidable ((_ ∨ _) ∧ (_ ∨ _)))

theorem Gpu.draws_iff {g : Gpu ℚ} {x y : ℚ} (hx : 0 ≤ x ∧ x ≤ g.texW.toNat) (hy : 0 ≤ y ∧ y ≤ g.texH.toNat)
    {p : ℚ × ℚ} : g.Draws x y p ↔ p = g.drawn x y := by
  have hunit {v n : ℚ} (hv : 0 ≤ v ∧ v ≤ n) : 0 ≤ v / n ∧ v / n ≤ 1 :=
    ⟨div_nonneg hv.1 (hv.1.trans hv.2), div_le_one_of_le₀ hv.2 (hv.1.trans hv.2)⟩
  unfold Gpu.Draws Gpu.drawn Gpu.updateQuad
  simp only [draws_quad_iff, hunit hx, hunit hy, and_self, true_and, exists_eq_left]

/-- The corners of a pixel of the frame are drawn where they are to be. -/
theorem Gpu.inside_iff {g : Gpu ℚ} {i j : ℕ} (hi : i < g.texW.toNat) (hj : j < g.texH.toNat) {p : ℚ × ℚ} :
    g.Inside i j p ↔ ((g.drawn i j).1 < p.1 ∧ p.1 < (g.drawn (i + 1) (j + 1)).1) ∧
      (g.drawn i j).2 < p.2 ∧ p.2 < (g.drawn (i + 1) (j + 1)).2 := by
  have hcorner {k n : ℕ} (hk : k < n) : (0 ≤ (k : ℚ) ∧ (k : ℚ) ≤ n) ∧ 0 ≤ (k : ℚ) + 1 ∧ (k : ℚ) + 1 ≤ n := by
    have hnext : (k : ℚ) + 1 ≤ n := by exact_mod_cast hk
    have hpos : 0 ≤ (k : ℚ) := Nat.cast_nonneg k
    exact ⟨⟨hpos, by linarith⟩, by linarith, hnext⟩
  obtain ⟨hi0, hi1⟩ := hcorner hi
  obtain ⟨hj0, hj1⟩ := hcorner hj
  simp only [Gpu.Inside, Gpu.draws_iff hi0 hj0, Gpu.draws_iff hi1 hj1, exists_and_left, exists_eq_left]

/-- The window's picture of a frame. -/
def App.gpu (a : App ℚ) (width height : UInt32) (frameW frameH : UInt16) : Gpu ℚ :=
  ⟨frameW.toUInt32, frameH.toUInt32, width, height, a.toolbarPx⟩

/-- A position between two pixel corners of an axis. -/
theorem between {off box n p i : ℚ} (hn : 0 < n) (h0 : off + box * (i / n) < p)
    (h1 : p < off + box * ((i + 1) / n)) : 0 < box ∧ i < (p - off) / box * n ∧ (p - off) / box * n < i + 1 ∧
      ∀ m, p < off + box * (m / n) ↔ (p - off) / box * n < m := by
  have hbox : 0 < box := by
    have hwidth : 0 < box * (1 / n) := by
      have hsplit : box * ((i + 1) / n) = box * (i / n) + box * (1 / n) := by ring
      linarith
    exact pos_of_mul_pos_left hwidth (by positivity)
  have hbelow : ∀ m, p < off + box * (m / n) ↔ (p - off) / box * n < m := by
    intro m
    rw [← sub_lt_iff_lt_add', mul_comm box, ← div_lt_iff₀ hbox, lt_div_iff₀ hn]
  refine ⟨hbox, ?_, (hbelow (i + 1)).mp h1, hbelow⟩
  rw [← lt_sub_iff_add_lt', mul_comm box, ← lt_div_iff₀ hbox, div_lt_iff₀ hn] at h0
  exact h0

theorem unit_of_pixel {q n k : ℚ} (hn : 0 < n) (hk : 0 ≤ k) (hkn : k + 1 ≤ n) (h0 : k < q * n)
    (h1 : q * n < k + 1) : 0 ≤ q ∧ q ≤ 1 := by
  refine ⟨le_of_lt (pos_of_mul_pos_left (lt_of_le_of_lt hk h0) hn.le), ?_⟩
  exact le_of_mul_le_mul_right (by linarith) hn

theorem view_eq {a : App ℚ} {width height : UInt32} (hw : a.window = some (width, height))
    (ht : a.toolbarPx + 1 ≤ height.toNat) : a.view = ((width.toNat : ℚ), height.toNat - a.toolbarPx) := by
  have hone : (1.0 : ℚ) = 1 := by norm_num
  have hcast : (F32.ofInt height.toNat : ℚ) = (height.toNat : ℚ) := rfl
  simp only [App.view, hw]
  rw [if_pos (by rw [hone, hcast]; linarith)]
  rfl

/-- The click mapping inside the picture, along both axes. -/
theorem mapToDevice_eq {viewW viewH : ℚ} {frameW frameH : UInt16} {p : ℚ × ℚ} {boxW boxH offX offY : ℚ}
    (hview : 0 < viewW ∧ 0 < viewH) (hframe : frameW ≠ 0 ∧ frameH ≠ 0)
    (hbox : Client.letterbox viewW viewH (frameW.toNat : ℚ) frameH.toNat = (boxW, boxH, offX, offY))
    (hpos : 0 < boxW ∧ 0 < boxH) (hx : 0 ≤ (p.1 - offX) / boxW ∧ (p.1 - offX) / boxW ≤ 1)
    (hy : 0 ≤ (p.2 - offY) / boxH ∧ (p.2 - offY) / boxH ≤ 1) :
    Client.mapToDevice p.1 p.2 viewW viewH frameW frameH 0 =
      some (Client.clampI32 (F32.toI32 (F32.round ((p.1 - offX) / boxW * frameW.toNat))) 0 (.ofInt frameW.toNat - 1),
        Client.clampI32 (F32.toI32 (F32.round ((p.2 - offY) / boxH * frameH.toNat))) 0
          (.ofInt frameH.toNat - 1)) := by
  have hzero : (0.0 : ℚ) = 0 := by norm_num
  have hone : (1.0 : ℚ) = 1 := by norm_num
  have hclamp : ∀ v : ℚ, 0 ≤ v ∧ v ≤ 1 → F32.clamp v 0 1 = v := fun v hv => by
    rw [F32.clamp, if_neg (not_lt.mpr hv.1), if_neg (not_lt.mpr hv.2)]
  have hguard : ¬ (viewW ≤ 0 ∨ viewH ≤ 0 ∨ frameW = 0 ∨ frameH = 0) := by
    simp [not_le.mpr hview.1, not_le.mpr hview.2, hframe]
  have hsize : ¬ (boxW ≤ 0 ∨ boxH ≤ 0) := by
    simp [not_le.mpr hpos.1, not_le.mpr hpos.2]
  have hcast : ∀ n : UInt16, (F32.ofInt n.toNat : ℚ) = (n.toNat : ℚ) := fun _ => rfl
  have hturn : ¬ ((0 : UInt8) &&& 1 = 1) := by decide
  unfold Client.mapToDevice
  simp only [hzero, hone, hcast, if_neg hguard, if_neg hturn, hbox, if_neg hsize, hclamp _ hx, hclamp _ hy]
  rfl

theorem drawn_eq {a : App ℚ} {width height : UInt32} {frameW frameH : UInt16} (hw : 0 < frameW.toNat)
    (hh : 0 < frameH.toNat) (ht : a.toolbarPx + 1 ≤ height.toNat) (hheight : 1 ≤ height.toNat) (x y : ℚ) :
    (a.gpu width height frameW frameH).drawn x y =
      let b := Client.letterbox (width.toNat : ℚ) (height.toNat - a.toolbarPx) frameW.toNat frameH.toNat
      (b.2.2.1 + b.1 * (x / frameW.toNat), b.2.2.2 + b.2.1 * (y / frameH.toNat)) := by
  have hW : (0 : ℚ) < frameW.toNat := by exact_mod_cast hw
  have hH : (0 : ℚ) < frameH.toNat := by exact_mod_cast hh
  have hone : (1 : ℚ) ≤ height.toNat := by exact_mod_cast hheight
  exact place_eq_letterbox hW hH (Nat.cast_nonneg _) ht hone (x / frameW.toNat, y / frameH.toNat)

/-- A click strictly inside a pixel's rectangle is mapped to that pixel exactly if
it is before the pixel's middle, or the pixel the last, along both axes. -/
theorem mapToDevice_iff {a : App ℚ} {width height : UInt32} {frameW frameH : UInt16}
    (hw : a.window = some (width, height)) (ht : a.toolbarPx + 1 ≤ height.toNat) {i j : ℕ}
    (hi : i < frameW.toNat) (hj : j < frameH.toNat) {p : ℚ × ℚ}
    (hp : (a.gpu width height frameW frameH).Inside i j p) :
    Client.mapToDevice p.1 p.2 a.view.1 a.view.2 frameW frameH 0 = some (.ofInt i, .ofInt j) ↔
      (a.gpu width height frameW frameH).BeforeMiddle i j p := by
  have hgi : i < (a.gpu width height frameW frameH).texW.toNat := by
    rw [App.gpu, UInt16.toNat_toUInt32]
    exact hi
  have hgj : j < (a.gpu width height frameW frameH).texH.toNat := by
    rw [App.gpu, UInt16.toNat_toUInt32]
    exact hj
  obtain ⟨⟨hleft, hright⟩, htop, hbottom⟩ := (Gpu.inside_iff hgi hgj).mp hp
  have hheight : 1 ≤ height.toNat := by
    rcases Nat.eq_zero_or_pos height.toNat with hzero | hpos
    · -- nothing is inside a picture without height
      have hflat : ((a.gpu width height frameW frameH).viewH.toNat : ℚ) = 0 := by exact_mod_cast hzero
      simp only [Gpu.drawn, toWindow, hflat, mul_zero] at htop hbottom
      linarith
    · exact hpos
  have hfw : (0 : ℚ) < frameW.toNat := by exact_mod_cast Nat.zero_lt_of_lt hi
  have hfh : (0 : ℚ) < frameH.toNat := by exact_mod_cast Nat.zero_lt_of_lt hj
  have hi1 : (i : ℚ) + 1 ≤ frameW.toNat := by exact_mod_cast hi
  have hj1 : (j : ℚ) + 1 ≤ frameH.toNat := by exact_mod_cast hj
  have hdrawn (x y : ℚ) : (a.gpu width height frameW frameH).drawn x y = _ :=
    drawn_eq (Nat.zero_lt_of_lt hi) (Nat.zero_lt_of_lt hj) ht hheight x y
  cases hbox : Client.letterbox (width.toNat : ℚ) (height.toNat - a.toolbarPx) frameW.toNat frameH.toNat with
  | mk boxW rest =>
    obtain ⟨boxH, offX, offY⟩ := rest
    simp only [hdrawn, hbox] at hleft hright htop hbottom
    obtain ⟨hboxW, hx0, hx1, hmidX⟩ := between hfw hleft hright
    obtain ⟨hboxH, hy0, hy1, hmidY⟩ := between hfh htop hbottom
    have hwidth : 0 < (width.toNat : ℚ) := by
      rw [letterbox_eq_share (Nat.cast_nonneg _) (by linarith) hfw hfh] at hbox
      have hprod := congrArg Prod.fst hbox
      simp only at hprod
      rw [← hprod] at hboxW
      exact lt_of_le_of_ne (Nat.cast_nonneg _) fun hzero => by rw [← hzero, zero_mul] at hboxW; exact hboxW.false
    rw [view_eq hw ht, mapToDevice_eq ⟨hwidth, by linarith⟩ ⟨?_, ?_⟩ hbox ⟨hboxW, hboxH⟩
      (unit_of_pixel hfw (Nat.cast_nonneg i) hi1 hx0 hx1) (unit_of_pixel hfh (Nat.cast_nonneg j) hj1 hy0 hy1)]
    · rw [Option.some.injEq, Prod.mk.injEq,
        pixel_iff hi (Nat.le_of_lt_succ frameW.toNat_lt) hx0 hx1,
        pixel_iff hj (Nat.le_of_lt_succ frameH.toNat_lt) hy0 hy1, Gpu.BeforeMiddle]
      simp only [hdrawn, hbox, hmidX, hmidY]
      rfl
    · rintro rfl
      exact absurd hi (Nat.not_lt_zero i)
    · rintro rfl
      exact absurd hj (Nat.not_lt_zero j)

/-- A window of 100 by 280 with a toolbar of 80. -/
def App.sample : App ℚ := { App.start false with window := some (100, 280) }

theorem mapToDevice_before_middle :
    Client.mapToDevice (41 / 4) (81 / 4) App.sample.view.1 App.sample.view.2 100 200 0 = some (10, 20) :=
  (mapToDevice_iff (a := App.sample) (p := (41 / 4, 81 / 4)) rfl (by decide +kernel) (by decide) (by decide)
    ((Gpu.inside_iff (by decide) (by decide)).mpr (by decide +kernel))).mpr (by decide +kernel)

/-- The right half of a pixel is mapped to the next. -/
theorem next_pixel : ¬ ∀ (a : App ℚ) (width height : UInt32) (frameW frameH : UInt16),
    a.window = some (width, height) → a.toolbarPx + 1 ≤ height.toNat → ∀ i j : ℕ, i < frameW.toNat →
    j < frameH.toNat → ∀ p : ℚ × ℚ, (a.gpu width height frameW frameH).Inside i j p →
    Client.mapToDevice p.1 p.2 a.view.1 a.view.2 frameW frameH 0 = some (.ofInt i, .ofInt j) := by
  intro h
  have hpixel := h .sample 100 280 100 200 rfl (by decide +kernel) 10 20 (by decide) (by decide)
    (43 / 4, 81 / 4) ((Gpu.inside_iff (by decide) (by decide)).mpr (by decide +kernel))
  exact absurd hpixel (by decide +kernel)

end DroidMirror.Native
