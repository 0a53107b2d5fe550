import DroidMirror.Server.Config
import Mathlib.Tactic.Positivity

/-! # Fitting a display to a limit

`fit_max_size` scales both sides by one factor, rounds each, clears its low bit
and raises it to two. Over exact rationals each side is a function of its own
scaled length, `fitSide`, which is monotone and moves it by less than a pixel
and a half; the laws of the pair follow from it. -/
namespace DroidMirror.Server
open DroidMirror.Proto DroidMirror.Lib.Rounding

/-! ## One side -/

/-- The factor both sides are scaled by. -/
def fitScale (w h : UInt32) (maxSize : UInt16) : ℚ :=
  if 0 < maxSize ∧ maxSize.toUInt32 < max w h then maxSize.toNat / (max w h).toNat else 1

/-- The largest even number below, two at least. -/
def evenSide (n : Nat) : Nat := max (n / 2 * 2) 2

/-- A side of the exact length `q`. -/
def fitSide (q : ℚ) : Nat := evenSide (nearest q).toNat

theorem toNat_and_not_one (x : UInt32) : (x &&& ~~~1).toNat = x.toNat / 2 * 2 := by
  have hmask : (~~~1 : UInt32).toNat = 2 ^ 32 - 2 := rfl
  have hlt := x.toNat_lt
  have hhalf : (x.toNat &&& 2 ^ 32 - 2) / 2 = x.toNat / 2 := by
    rw [Nat.and_div_two, show (2 ^ 32 - 2) / 2 = 2 ^ 31 - 1 from rfl, Nat.and_two_pow_sub_one_eq_mod,
      Nat.mod_eq_of_lt (by omega)]
  have hlow : (x.toNat &&& 2 ^ 32 - 2) % 2 = 0 := by
    have h := Nat.and_mod_two_pow (a := x.toNat) (b := 2 ^ 32 - 2) (n := 1)
    rw [show (2 ^ 32 - 2) % 2 ^ 1 = 0 from rfl, Nat.and_zero] at h
    exact h
  rw [UInt32.toNat_and, hmask]
  omega

theorem toNat_max (x y : UInt32) : (max x y).toNat = max x.toNat y.toNat := by
  show (if x ≤ y then y else x).toNat = _
  split
  · rename_i h
    exact (Nat.max_eq_right (UInt32.le_iff_toNat_le.mp h)).symm
  · rename_i h
    rw [UInt32.le_iff_toNat_le] at h
    exact (Nat.max_eq_left (by omega)).symm

theorem max_swap (x y : UInt32) : max x y = max y x := by
  rw [← UInt32.toNat_inj, toNat_max, toNat_max, Nat.max_comm]

theorem toNat_even (x : UInt32) : (max (x &&& ~~~1) 2).toNat = evenSide x.toNat := by
  rw [toNat_max, toNat_and_not_one]
  rfl

/-! ## Its laws -/

section
variable {n : Nat} {p q : ℚ}

theorem even_evenSide (n : Nat) : evenSide n % 2 = 0 ∧ 2 ≤ evenSide n := by
  unfold evenSide
  omega

theorem evenSide_of_even (h : n % 2 = 0) (h2 : 2 ≤ n) : evenSide n = n := by
  unfold evenSide
  omega

theorem fitSide_natCast (n : Nat) : fitSide n = evenSide n := by
  rw [fitSide, nearest_natCast, Int.toNat_natCast]

theorem fitSide_mono (h : p ≤ q) : fitSide p ≤ fitSide q := by
  have hle := Int.toNat_le_toNat (nearest_mono h)
  unfold fitSide evenSide
  omega

theorem fitSide_le (h : q ≤ n) : fitSide q ≤ max 2 n := by
  have hle := nearest_le h
  unfold fitSide evenSide
  omega

/-- Above two, half a pixel at most is lost to the rounding and less than one to the low bit. -/
theorem fitSide_error (h : 0 ≤ q) : fitSide q = 2 ∨ |(fitSide q : ℚ) - q| ≤ 3 / 2 := by
  by_cases h2 : fitSide q = 2
  · exact .inl h2
  · right
    have hn := Int.toNat_of_nonneg (nearest_nonneg h)
    obtain ⟨hlo, hhi⟩ := nearest_error q
    rw [← hn, Int.cast_natCast] at hlo hhi
    have hup : fitSide q ≤ (nearest q).toNat := by unfold fitSide evenSide at h2 ⊢; omega
    have hdown : (nearest q).toNat ≤ fitSide q + 1 := by unfold fitSide evenSide; omega
    have hup' : (fitSide q : ℚ) ≤ (nearest q).toNat := by exact_mod_cast hup
    have hdown' : ((nearest q).toNat : ℚ) ≤ fitSide q + 1 := by exact_mod_cast hdown
    rw [abs_le]
    constructor <;> linarith

end

/-! ## The pair -/

section
variable {w h : UInt32} {maxSize : UInt16}

theorem fitScale_nonneg (w h : UInt32) (maxSize : UInt16) : 0 ≤ fitScale w h maxSize := by
  unfold fitScale
  split
  · positivity
  · exact zero_le_one

/-- The picture is never enlarged. -/
theorem fitScale_le_one (w h : UInt32) (maxSize : UInt16) : fitScale w h maxSize ≤ 1 := by
  unfold fitScale
  split
  · rename_i hs
    have hlt : maxSize.toNat < (max w h).toNat := by simpa using UInt32.lt_iff_toNat_lt.mp hs.2
    apply div_le_one_of_le₀
    · exact_mod_cast hlt.le
    · positivity
  · exact le_refl _

theorem fitScale_swap (w h : UInt32) (maxSize : UInt16) :
    fitScale h w maxSize = fitScale w h maxSize := by
  rw [fitScale, fitScale, max_swap]

theorem scaled_le (v w h : UInt32) (maxSize : UInt16) : v.toNat * fitScale w h maxSize ≤ v.toNat :=
  mul_le_of_le_one_right (by positivity) (fitScale_le_one w h maxSize)

/-- Under a limit no side of the picture is longer than it. -/
theorem scaled_le_limit {v : UInt32} (hm : maxSize ≠ 0) (hv : v = w ∨ v = h) :
    v.toNat * fitScale w h maxSize ≤ maxSize.toNat := by
  have hle : v.toNat ≤ (max w h).toNat := by
    rw [toNat_max]
    obtain rfl | rfl := hv
    · exact Nat.le_max_left _ _
    · exact Nat.le_max_right _ _
  have hpos : 0 < maxSize := by
    rw [UInt16.lt_iff_toNat_lt]
    exact Nat.pos_of_ne_zero fun hz => hm (UInt16.toNat_inj.mp hz)
  have hle' : (v.toNat : ℚ) ≤ (max w h).toNat := by exact_mod_cast hle
  unfold fitScale
  split
  · rename_i hs
    have hmax : 0 < ((max w h).toNat : ℚ) := by
      have := UInt32.lt_iff_toNat_lt.mp hs.2
      exact_mod_cast Nat.lt_of_le_of_lt (Nat.zero_le _) this
    calc (v.toNat : ℚ) * (maxSize.toNat / (max w h).toNat)
        ≤ (max w h).toNat * (maxSize.toNat / (max w h).toNat) :=
          mul_le_mul_of_nonneg_right hle' (by positivity)
      _ = maxSize.toNat := by field_simp
  · rename_i hs
    have hfits : (max w h).toNat ≤ maxSize.toNat := by
      simpa [UInt32.lt_iff_toNat_lt] using fun hlt => hs ⟨hpos, hlt⟩
    rw [mul_one]
    exact_mod_cast Nat.le_trans hle hfits

/-- A scaled side, as the code computes it, before its low bit is cleared. -/
theorem toU32_round {v : UInt32} {q : ℚ} (h0 : 0 ≤ q) (hv : q ≤ v.toNat) :
    (F32Unsigned.toU32 (F32.round q)).toNat = (nearest q).toNat := by
  have hle := nearest_le hv
  have hlt := v.toNat_lt
  have h := toU32_intCast (nearest_nonneg h0) (by omega)
  rw [round_nearest h0]
  omega

/-- Each side of the result is its own scaled length, fitted. -/
theorem fitMaxSize_sides (hw : w ≠ 0) (hh : h ≠ 0) :
    (fitMaxSize ℚ w h maxSize).1.toNat = fitSide (w.toNat * fitScale w h maxSize) ∧
      (fitMaxSize ℚ w h maxSize).2.toNat = fitSide (h.toNat * fitScale w h maxSize) := by
  have hscaled (v : UInt32) : 0 ≤ v.toNat * fitScale w h maxSize :=
    mul_nonneg (by positivity) (fitScale_nonneg w h maxSize)
  have hround (v : UInt32) := toU32_round (hscaled v) (scaled_le v w h maxSize)
  have hz : ¬ (w = 0 ∨ h = 0) := by simp [hw, hh]
  by_cases hs : maxSize > 0 ∧ max w h > maxSize.toUInt32
  · have hscale : fitScale w h maxSize = maxSize.toNat / (max w h).toNat := if_pos hs
    rw [hscale] at hround
    simp only [fitMaxSize, if_neg hz, if_pos hs, toNat_even]
    rw [hscale, fitSide, fitSide, ← hround, ← hround]
    exact ⟨rfl, rfl⟩
  · have hscale : fitScale w h maxSize = 1 := if_neg hs
    simp only [fitMaxSize, if_neg hz, if_neg hs, toNat_even, hscale, mul_one, fitSide_natCast,
      and_self]

end

/-- What holds of a size and its result. -/
structure Fits (w h : UInt32) (maxSize : UInt16) (r : UInt32 × UInt32) : Prop where
  even : r.1.toNat % 2 = 0 ∧ r.2.toNat % 2 = 0
  two_le : 2 ≤ r.1.toNat ∧ 2 ≤ r.2.toNat
  not_larger : r.1.toNat ≤ max 2 w.toNat ∧ r.2.toNat ≤ max 2 h.toNat
  within : maxSize ≠ 0 → max r.1.toNat r.2.toNat ≤ max 2 maxSize.toNat
  near : (r.1.toNat = 2 ∨ |(r.1.toNat : ℚ) - w.toNat * fitScale w h maxSize| ≤ 3 / 2) ∧
    (r.2.toNat = 2 ∨ |(r.2.toNat : ℚ) - h.toNat * fitScale w h maxSize| ≤ 3 / 2)
  ordered : (h ≤ w → r.2 ≤ r.1) ∧ (w ≤ h → r.1 ≤ r.2)
  swapped : fitMaxSize ℚ h w maxSize = (r.2, r.1)
  again : fitMaxSize ℚ r.1 r.2 maxSize = r

/-- A limit the pair keeps already leaves the scale at one, but for the limit of one, below two. -/
theorem fitScale_again {w h : UInt32} {maxSize : UInt16} (h2 : 2 ≤ w.toNat ∧ 2 ≤ h.toNat)
    (hm : maxSize ≠ 0 → max w.toNat h.toNat ≤ max 2 maxSize.toNat) :
    fitScale w h maxSize = 1 ∨
      w.toNat = 2 ∧ h.toNat = 2 ∧ fitScale w h maxSize = 1 / 2 := by
  by_cases hs : 0 < maxSize ∧ maxSize.toUInt32 < max w h
  · right
    have hpos : 0 < maxSize.toNat := by simpa using UInt16.lt_iff_toNat_lt.mp hs.1
    have hlt : maxSize.toNat < max w.toNat h.toNat := by
      simpa [toNat_max] using UInt32.lt_iff_toNat_lt.mp hs.2
    have hle := hm (by rintro rfl; simp at hpos)
    have hone : maxSize.toNat = 1 := by omega
    have hmax : (max w h).toNat = 2 := by rw [toNat_max]; omega
    refine ⟨by omega, by omega, ?_⟩
    rw [fitScale, if_pos hs, hone, hmax]
    norm_num
  · exact .inl (if_neg hs)

theorem fitSide_half : fitSide ((2 : Nat) * (1 / 2)) = 2 := by
  have hone : ((2 : Nat) : ℚ) * (1 / 2) = (1 : Nat) := by norm_num
  rw [hone, fitSide_natCast]
  rfl

theorem ne_zero_of_two_le {v : UInt32} (h : 2 ≤ v.toNat) : v ≠ 0 := by
  rintro rfl
  simp at h

/-- Every law of the fit holds of every size and limit. -/
theorem fitMaxSize_fits (w h : UInt32) (maxSize : UInt16) (hw : 1 ≤ w.toNat) (hh : 1 ≤ h.toNat) :
    Fits w h maxSize (fitMaxSize ℚ w h maxSize) := by
  have hw0 : w ≠ 0 := by rintro rfl; simp at hw
  have hh0 : h ≠ 0 := by rintro rfl; simp at hh
  obtain ⟨h1, h2⟩ := @fitMaxSize_sides w h maxSize hw0 hh0
  obtain ⟨h1', h2'⟩ := @fitMaxSize_sides h w maxSize hh0 hw0
  rw [fitScale_swap w h] at h1' h2'
  have hs := fitScale_nonneg w h maxSize
  have hmono {a b : UInt32} (hab : a ≤ b) :
      fitSide (a.toNat * fitScale w h maxSize) ≤ fitSide (b.toNat * fitScale w h maxSize) := by
    have hle : (a.toNat : ℚ) ≤ b.toNat := by exact_mod_cast UInt32.le_iff_toNat_le.mp hab
    exact fitSide_mono (mul_le_mul_of_nonneg_right hle hs)
  have heven := even_evenSide (nearest (w.toNat * fitScale w h maxSize)).toNat
  have heven' := even_evenSide (nearest (h.toNat * fitScale w h maxSize)).toNat
  have hwithin : maxSize ≠ 0 →
      max (fitMaxSize ℚ w h maxSize).1.toNat (fitMaxSize ℚ w h maxSize).2.toNat ≤ max 2 maxSize.toNat := by
    intro hm
    rw [h1, h2]
    exact Nat.max_le.mpr ⟨fitSide_le (scaled_le_limit hm (.inl rfl)), fitSide_le (scaled_le_limit hm (.inr rfl))⟩
  have htwo : 2 ≤ (fitMaxSize ℚ w h maxSize).1.toNat ∧ 2 ≤ (fitMaxSize ℚ w h maxSize).2.toNat := by
    rw [h1, h2]
    exact ⟨heven.2, heven'.2⟩
  refine ⟨?_, htwo, ?_, hwithin, ?_, ?_, ?_, ?_⟩
  · rw [h1, h2]
    exact ⟨heven.1, heven'.1⟩
  · rw [h1, h2]
    exact ⟨fitSide_le (scaled_le w w h maxSize), fitSide_le (scaled_le h w h maxSize)⟩
  · rw [h1, h2]
    exact ⟨fitSide_error (mul_nonneg (by positivity) hs), fitSide_error (mul_nonneg (by positivity) hs)⟩
  · simp only [UInt32.le_iff_toNat_le, h1, h2]
    exact ⟨fun hle => hmono hle, fun hle => hmono hle⟩
  · rw [Prod.ext_iff, ← UInt32.toNat_inj, ← UInt32.toNat_inj, h1', h2', h1, h2]
    exact ⟨rfl, rfl⟩
  · obtain ⟨ha, hb⟩ := @fitMaxSize_sides _ _ maxSize (ne_zero_of_two_le htwo.1) (ne_zero_of_two_le htwo.2)
    rw [Prod.ext_iff, ← UInt32.toNat_inj, ← UInt32.toNat_inj, ha, hb]
    obtain hone | ⟨hw2, hh2, hhalf⟩ := fitScale_again htwo hwithin
    · rw [hone, mul_one, mul_one, fitSide_natCast, fitSide_natCast]
      rw [h1, h2]
      exact ⟨evenSide_of_even heven.1 heven.2, evenSide_of_even heven'.1 heven'.2⟩
    · rw [hhalf, hw2, hh2, fitSide_half]
      exact ⟨rfl, rfl⟩

/-- A tall display at 720. -/
theorem fitMaxSize_fits_tall : Fits 1080 2400 720 (fitMaxSize ℚ 1080 2400 720) :=
  fitMaxSize_fits 1080 2400 720 (by decide) (by decide)

end DroidMirror.Server
