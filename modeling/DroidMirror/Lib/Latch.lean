import DroidMirror.Lib.Run
import Mathlib.Data.List.Induction

/-! # Latches

A latch keeps the value it was last set to. It is on after a log exactly if some
entry switches it on and none after that switches it off (`latch_iff_since`), so
it is off exactly if every switch on is answered (`latch_eq_false_iff`); of latches
under keys each is off if every switch on is answered under its key
(`answered_keyed_iff`). -/
namespace DroidMirror.Lib.Latch
open DroidMirror.Lib.Run

/-! ## Answered entries -/

section
variable {β : Type} {p : β → Prop} {q : β → β → Prop} {l : List β} {x : β}

/-- Every entry with `p` has one after it that answers it. -/
def Answered (p : β → Prop) (q : β → β → Prop) (l : List β) : Prop :=
  ∀ a x b, l = a ++ x :: b → p x → ∃ y ∈ b, q x y

theorem answered_nil : Answered p q [] := by
  intro a x b h
  cases List.append_ne_nil_of_right_ne_nil a (List.cons_ne_nil x b) h.symm

theorem answered_cons : Answered p q (x :: l) ↔ (p x → ∃ y ∈ l, q x y) ∧ Answered p q l := by
  constructor
  · intro h
    refine ⟨h [] x l rfl, ?_⟩
    intro a y b hl
    exact h (x :: a) y b (by rw [hl, List.cons_append])
  · rintro ⟨hx, hrest⟩ a y b hl
    cases a with
    | nil =>
      cases hl
      exact hx
    | cons z a =>
      cases hl
      exact hrest a y b rfl

instance decidableAnswered (p : β → Prop) (q : β → β → Prop) [DecidablePred p]
    [∀ x y, Decidable (q x y)] : ∀ l : List β, Decidable (Answered p q l)
  | [] => isTrue answered_nil
  | x :: l =>
    have := decidableAnswered p q l
    decidable_of_iff ((p x → ∃ y ∈ l, q x y) ∧ Answered p q l) answered_cons.symm

theorem Answered.mono {p' : β → Prop} {q' : β → β → Prop} (hp : ∀ x, p' x → p x)
    (hq : ∀ x y, p' x → q x y → q' x y) (h : Answered p q l) : Answered p' q' l := by
  intro a x b hl hx
  obtain ⟨y, hy, hxy⟩ := h a x b hl (hp x hx)
  exact ⟨y, hy, hq x y hx hxy⟩

theorem answered_iff_not_since {mark : β → Prop} :
    Answered p (fun _ => mark) l ↔ ¬ Since mark p l := by
  constructor
  · rintro h ⟨a, x, b, hl, hx, hb⟩
    obtain ⟨y, hy, hmark⟩ := h a x b hl hx
    exact hb y hy hmark
  · intro h a x b hl hx
    by_contra hno
    refine h ⟨a, x, b, hl, hx, ?_⟩
    intro y hy hmark
    exact hno ⟨y, hy, hmark⟩

end

/-! ## Latches -/

section
variable {α β : Type} (set : α → Option β)

def latch : β → List α → β
  | b, [] => b
  | b, x :: xs => latch ((set x).getD b) xs

variable {set}

theorem latch_append (b : β) (l m : List α) : latch set b (l ++ m) = latch set (latch set b l) m := by
  induction l generalizing b with
  | nil => rfl
  | cons x l ih => exact ih _

theorem latch_snoc (b : β) (l : List α) (x : α) : latch set b (l ++ [x]) = (set x).getD (latch set b l) :=
  latch_append b l [x]

theorem latch_toList (b : β) (l : List α) (o : Option α) :
    latch set b (l ++ o.toList) = (o.bind set).getD (latch set b l) := by
  cases o with
  | none => rw [Option.toList_none, List.append_nil, Option.bind_none, Option.getD_none]
  | some x => exact latch_snoc b l x

/-- A latch of a function of the value. -/
theorem latch_map {γ : Type} (f : β → γ) (b : β) (l : List α) :
    latch (fun x => (set x).map f) (f b) l = f (latch set b l) := by
  induction l generalizing b with
  | nil => rfl
  | cons x l ih =>
    have hx : ((set x).map f).getD (f b) = f ((set x).getD b) := by cases set x <;> rfl
    rw [latch, latch, hx]
    exact ih _

end

section
variable {α : Type} {set : α → Option Bool}

theorem latch_iff_since {l : List α} : latch set false l = true ↔
    Since (fun x => set x = some false) (fun x => set x = some true) l := by
  induction l using List.reverseRecOn with
  | nil =>
    refine iff_of_false Bool.false_ne_true ?_
    exact not_since_nil _ _
  | append_singleton l x ih =>
    rw [latch_snoc, since_snoc, ← ih]
    cases set x with
    | none => simp
    | some on => cases on <;> simp

/-- A latch is off in the end if every switch on is followed by one off. -/
theorem latch_eq_false_iff {l : List α} : latch set false l = false ↔
    Answered (fun x => set x = some true) (fun _ x => set x = some false) l := by
  rw [answered_iff_not_since, ← latch_iff_since, Bool.not_eq_true]

/-- What an entry does to the latch of a key. -/
def keyed {κ : Type} [DecidableEq κ] (set : α → Option Bool) (k : κ) (x : κ × α) : Option Bool :=
  if x.1 = k then set x.2 else none

theorem keyed_eq_some {κ : Type} [DecidableEq κ] {k : κ} {x : κ × α} {on : Bool} :
    keyed set k x = some on ↔ x.1 = k ∧ set x.2 = some on := by
  rw [keyed]
  split
  · rename_i hk
    exact (and_iff_right hk).symm
  · rename_i hk
    exact iff_of_false (Option.some_ne_none on).symm fun h => hk h.1

/-- No latch that is off is switched on. -/
theorem keyed_getD_iff {κ : Type} [DecidableEq κ] {x : κ × α} :
    (∀ k, (keyed set k x).getD false = false) ↔ set x.2 ≠ some true := by
  constructor
  · intro h hon
    have hkey := h x.1
    rw [keyed, if_pos rfl, hon] at hkey
    cases hkey
  · intro h k
    rw [Option.getD_eq_iff]
    cases hk : keyed set k x with
    | none => exact .inr ⟨rfl, rfl⟩
    | some on =>
      cases on with
      | false => exact .inl rfl
      | true => exact absurd (keyed_eq_some.mp hk).2 h

/-- Every key's latch is off if every switch on is followed by one off of its key. -/
theorem answered_keyed_iff {κ : Type} [DecidableEq κ] {l : List (κ × α)} :
    Answered (fun x => set x.2 = some true) (fun x y => y.1 = x.1 ∧ set y.2 = some false) l ↔
      ∀ k, latch (keyed set k) false l = false := by
  simp only [latch_eq_false_iff, keyed_eq_some]
  constructor
  · intro h k a x b hl hx
    obtain ⟨y, hy, hkey, hoff⟩ := h a x b hl hx.2
    exact ⟨y, hy, hkey.trans hx.1, hoff⟩
  · intro h a x b hl hx
    exact h x.1 a x b hl ⟨rfl, hx⟩

end

end DroidMirror.Lib.Latch
