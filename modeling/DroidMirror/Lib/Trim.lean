import Mathlib.Data.List.DropRight

/-! # Lists trimmed at their ends

`trim p` drops what has `p` at either end. A list whose ends do not have `p` is
left alone, whatever stood around it (`trim_around`). -/
namespace DroidMirror.Lib.Trim
variable {α : Type} {p : α → Bool}

def trim (p : α → Bool) (l : List α) : List α := (l.dropWhile p).rdropWhile p

/-- There is something, and neither end has `p`. -/
structure Trimmed (p : α → Bool) (l : List α) : Prop where
  ne_nil : l ≠ []
  first : p (l.head ne_nil) = false
  last : p (l.getLast ne_nil) = false

theorem dropWhile_front {a l : List α} (ha : ∀ x ∈ a, p x = true) (hl : Trimmed p l) (b : List α) :
    (a ++ (l ++ b)).dropWhile p = l ++ b := by
  obtain ⟨hne, hfirst, -⟩ := hl
  obtain ⟨x, l, rfl⟩ := List.exists_cons_of_ne_nil hne
  rw [List.dropWhile_append_of_pos ha]
  exact List.dropWhile_cons_of_neg (by simpa using hfirst)

theorem rdropWhile_back {b l : List α} (hl : Trimmed p l) (hb : ∀ x ∈ b, p x = true) :
    (l ++ b).rdropWhile p = l := by
  induction b using List.reverseRecOn with
  | nil =>
    rw [List.append_nil, List.rdropWhile_eq_self_iff]
    intro hne
    rw [hl.last]
    exact Bool.false_ne_true
  | append_singleton b x ih =>
    rw [← List.append_assoc, List.rdropWhile_concat_pos p (l ++ b) x (hb x (by simp)),
      ih fun y hy => hb y (List.mem_append_left _ hy)]

theorem trim_around {a l b : List α} (ha : ∀ x ∈ a, p x = true) (hl : Trimmed p l)
    (hb : ∀ x ∈ b, p x = true) : trim p (a ++ (l ++ b)) = l := by
  rw [trim, dropWhile_front ha hl, rdropWhile_back hl hb]

theorem trim_trimmed {l : List α} (hl : Trimmed p l) : trim p l = l := by
  have h := trim_around (a := []) (b := []) (fun x hx => nomatch hx) hl fun x hx => nomatch hx
  rwa [List.nil_append, List.append_nil] at h

/-- Two trimmed lists with anything between them. -/
theorem Trimmed.append {l l' : List α} (h : Trimmed p l) (m : List α) (h' : Trimmed p l') :
    Trimmed p (l ++ (m ++ l')) := by
  have hne : l ++ (m ++ l') ≠ [] := List.append_ne_nil_of_left_ne_nil h.ne_nil _
  refine ⟨hne, ?_, ?_⟩
  · rw [List.head_append_of_ne_nil]
    exact h.first
  · rw [List.getLast_append_of_ne_nil _ (List.append_ne_nil_of_right_ne_nil m h'.ne_nil),
      List.getLast_append_of_ne_nil _ h'.ne_nil]
    exact h'.last

end DroidMirror.Lib.Trim
