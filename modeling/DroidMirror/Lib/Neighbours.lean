import Mathlib.Algebra.GroupWithZero.Nat
import Mathlib.Data.List.Chain

/-! # Neighbours in a list

The pairs of consecutive elements. What holds of any two elements in order holds
of neighbours, and the steps between neighbours add up to the way from the first
element to the last. -/
namespace DroidMirror.Lib.Neighbours

variable {α : Type}

def pairs (l : List α) : List (α × α) := l.zip l.tail

theorem pairs_cons (a b : α) (l : List α) : pairs (a :: b :: l) = (a, b) :: pairs (b :: l) := rfl

theorem length_pairs (l : List α) : (pairs l).length = l.length - 1 := by
  rw [pairs, List.length_zip, List.length_tail]
  exact Nat.min_eq_right (Nat.sub_le _ _)

theorem pairs_snoc (l : List α) (a b : α) : pairs (l ++ [a] ++ [b]) = pairs (l ++ [a]) ++ [(a, b)] := by
  induction l with
  | nil => rfl
  | cons x l ih =>
    cases l with
    | nil => rfl
    | cons y l => exact congrArg ((x, y) :: ·) ih

theorem pairs_fst (l : List α) : (pairs l).map Prod.fst = l.dropLast := by
  induction l with
  | nil => rfl
  | cons x l ih =>
    cases l with
    | nil => rfl
    | cons y l => exact congrArg (x :: ·) ih

theorem pairs_of_pairwise {R : α → α → Prop} {l : List α} (h : l.Pairwise R) :
    ∀ p ∈ pairs l, R p.1 p.2 := by
  induction l with
  | nil => exact fun p hp => absurd hp List.not_mem_nil
  | cons x l ih =>
    cases l with
    | nil => exact fun p hp => absurd hp List.not_mem_nil
    | cons y l =>
      obtain ⟨hx, hl⟩ := List.pairwise_cons.mp h
      intro p hp
      rcases List.mem_cons.mp hp with rfl | hp
      · exact hx y List.mem_cons_self
      · exact ih hl p hp

/-- The steps up to an element add up to the way to it. -/
theorem sum_pairs (value : α → Nat) (step : α → α → Nat) {l : List α}
    (h : ∀ p ∈ pairs l, value p.2 = value p.1 + step p.1 p.2) :
    ∀ {k : Nat} (hk : k < l.length) (h0 : 0 < l.length),
      value l[k] = value l[0] + (((pairs l).take k).map fun p => step p.1 p.2).sum := by
  induction l with
  | nil => intro k hk; cases hk
  | cons x l ih =>
    intro k hk h0
    cases k with
    | zero => rfl
    | succ k =>
      cases l with
      | nil => cases Nat.not_lt_zero k (Nat.lt_of_succ_lt_succ hk)
      | cons y l =>
        rw [pairs_cons] at h ⊢
        have hstep := h (x, y) List.mem_cons_self
        have hrest := ih (fun p hp => h p (List.mem_cons_of_mem _ hp)) (Nat.lt_of_succ_lt_succ hk)
          (Nat.succ_pos l.length)
        simp only [List.getElem_cons_succ, List.getElem_cons_zero, List.take_succ_cons, List.map_cons,
          List.sum_cons] at hrest hstep ⊢
        omega

end DroidMirror.Lib.Neighbours
