import Mathlib.Algebra.Ring.Basic
import Mathlib.Logic.Function.Iterate
import Mathlib.Tactic.Ring

/-! # Inverting by Newton's iteration

One step towards the inverse of `a` squares the error `1 - a * x`, so where a
power of two of it vanishes the iteration has arrived. Over words, where 2 is
nilpotent, every odd value is inverted from the starting point 1. -/
namespace DroidMirror.Lib.Newton

variable {R : Type} [CommRing R]

/-- One step towards the inverse of `a`. -/
def refine (a x : R) : R := x * (2 - a * x)

theorem error_refine (a x : R) : 1 - a * refine a x = (1 - a * x) ^ 2 := by
  unfold refine
  ring

theorem error_iterate (a x : R) (k : Nat) :
    1 - a * (refine a)^[k] x = (1 - a * x) ^ 2 ^ k := by
  induction k with
  | zero => simp
  | succ k ih => rw [Function.iterate_succ_apply', error_refine, ih, ← pow_mul, ← pow_succ]

theorem inverse_iterate {a x : R} {k : Nat} (h : (1 - a * x) ^ 2 ^ k = 0) :
    a * (refine a)^[k] x = 1 := by
  rw [← error_iterate, sub_eq_zero] at h
  exact h.symm

/-- Where `2 ^ k` factors of 2 vanish, `k` steps from 1 invert an odd value. -/
theorem inverse_of_odd {a c : R} {k : Nat} (hodd : a = 2 * c + 1) (h2 : (2 : R) ^ 2 ^ k = 0) :
    a * (refine a)^[k] 1 = 1 := by
  apply inverse_iterate
  have he : 1 - a * 1 = 2 * (-c) := by rw [hodd]; ring
  rw [he, mul_pow, h2, zero_mul]

end DroidMirror.Lib.Newton
