import Mathlib.Data.List.Basic

/-! # Codes that are read from the front -/
namespace DroidMirror.Lib.Codes
variable {α β : Type}

/-- The first code word of a stream is known from the stream, and so is what
follows it. -/
structure Separates (enc : α → List β) : Prop where
  ne_nil : ∀ a, enc a ≠ []
  front : ∀ a b r s, enc a ++ r = enc b ++ s → a = b ∧ r = s

theorem Separates.flatMap_inj {enc : α → List β} (h : Separates enc) {l m : List α}
    (heq : l.flatMap enc = m.flatMap enc) : l = m := by
  induction l generalizing m with
  | nil =>
    cases m with
    | nil => rfl
    | cons b m => exact absurd (List.append_eq_nil_iff.mp heq.symm).1 (h.ne_nil b)
  | cons a l ih =>
    cases m with
    | nil => exact absurd (List.append_eq_nil_iff.mp heq).1 (h.ne_nil a)
    | cons b m =>
      obtain ⟨rfl, hrest⟩ := h.front a b _ _ heq
      rw [ih hrest]

end DroidMirror.Lib.Codes
