import Mathlib.Data.Rat.Floor
import Mathlib.Tactic.FieldSimp
import Mathlib.Tactic.Linarith

/-! # Rounding to the nearest integer

Halves go up. What lies at an integer stays, order is kept, and the error is
half a unit at most. -/
namespace DroidMirror.Lib.Rounding

/-- The nearest integer, the larger one half-way. -/
def nearest (q : ℚ) : Int := ⌊q + 1 / 2⌋

theorem nearest_intCast (n : Int) : nearest n = n := by
  rw [nearest, Int.floor_eq_iff]
  constructor <;> linarith

theorem nearest_natCast (n : Nat) : nearest n = n := nearest_intCast n

theorem nearest_mono {p q : ℚ} (h : p ≤ q) : nearest p ≤ nearest q :=
  Int.floor_mono (by linarith)

theorem nearest_nonneg {q : ℚ} (h : 0 ≤ q) : 0 ≤ nearest q := by
  have hz := nearest_intCast 0
  rw [← hz]
  exact nearest_mono (by simpa using h)

theorem nearest_le {q : ℚ} {n : Nat} (h : q ≤ n) : nearest q ≤ n := by
  rw [← nearest_natCast n]
  exact nearest_mono h

/-- The nearest integer is above by half a unit at most, and below by less than that. -/
theorem nearest_error (q : ℚ) : q - 1 / 2 < nearest q ∧ (nearest q : ℚ) ≤ q + 1 / 2 := by
  have hlo := Int.floor_le (q + 1 / 2)
  have hhi := Int.lt_floor_add_one (q + 1 / 2)
  exact ⟨by rw [nearest]; linarith, hlo⟩

end DroidMirror.Lib.Rounding
