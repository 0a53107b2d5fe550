import Mathlib.Data.List.Basic

/-! # Computations that change a state and may fail

`Returns x s a t` says what one run of a computation does. The rules take a
computation apart in the order it runs. -/
namespace DroidMirror.Lib.Effects
variable {ε σ α β : Type}

/-- A computation whose changes to the state outlast its failure. -/
abbrev Effect (ε σ α : Type) := ExceptT ε (StateM σ) α

/-- Run from `s`, the computation returns `a` and leaves `t`. -/
def Returns (x : Effect ε σ α) (s : σ) (a : α) (t : σ) : Prop := x.run.run s = (.ok a, t)

namespace Returns

theorem pure (a : α) (s : σ) : Returns (pure a : Effect ε σ α) s a s := rfl

theorem modify (f : σ → σ) (s : σ) : Returns (modify f : Effect ε σ PUnit) s ⟨⟩ (f s) := rfl

theorem get (s : σ) : Returns (get : Effect ε σ σ) s s s := rfl

theorem bind {x : Effect ε σ α} {f : α → Effect ε σ β} {s t u : σ} {a : α} {b : β}
    (hx : Returns x s a t) (hf : Returns (f a) t b u) : Returns (x >>= f) s b u := by
  unfold Returns at hx ⊢
  rw [ExceptT.run_bind, StateT.run_bind, hx]
  exact hf

/-- A run that returns does so through its first part. -/
theorem of_bind {x : Effect ε σ α} {f : α → Effect ε σ β} {s u : σ} {b : β}
    (h : Returns (x >>= f) s b u) : ∃ a t, Returns x s a t ∧ Returns (f a) t b u := by
  unfold Returns at h ⊢
  rw [ExceptT.run_bind, StateT.run_bind] at h
  match hx : x.run.run s with
  | (.ok a, t) =>
    rw [hx] at h
    exact ⟨a, t, rfl, h⟩
  | (.error e, t) =>
    rw [hx] at h
    cases h

/-- A run goes on from where its first part returned. -/
theorem run_bind {x : Effect ε σ α} {s t : σ} {a : α} (hx : Returns x s a t)
    (f : α → Effect ε σ β) : (x >>= f).run.run s = (f a).run.run t := by
  unfold Returns at hx
  rw [ExceptT.run_bind, StateT.run_bind, hx]
  rfl

/-- A computation whose failure is let go returns, whatever state it leaves. -/
theorem caught (x : Effect ε σ Unit) (s : σ) :
    ∃ t, Returns (MonadExcept.tryCatch x fun _ => Pure.pure ()) s () t := by
  unfold Returns
  rw [ExceptT.run_tryCatch, StateT.run_bind]
  obtain ⟨a | ⟨⟩, t⟩ := x.run.run s
  · exact ⟨t, rfl⟩
  · exact ⟨t, rfl⟩

/-- A failure that is caught does not show when there is none. -/
theorem tryCatch {x : Effect ε σ α} {s t : σ} {a : α} (hx : Returns x s a t)
    (handle : ε → Effect ε σ α) : Returns (tryCatch x handle) s a t := by
  unfold Returns at hx ⊢
  rw [ExceptT.run_tryCatch, StateT.run_bind, hx]
  rfl

/-- Where every failure is passed on, what returned did not fail. -/
theorem of_tryCatch {x : Effect ε σ α} {handle : ε → Effect ε σ α} {s t : σ} {a : α}
    (h : Returns (MonadExcept.tryCatch x handle) s a t) (hhandle : ∀ e u, ¬ Returns (handle e) u a t) :
    Returns x s a t := by
  unfold Returns at h hhandle ⊢
  rw [ExceptT.run_tryCatch, StateT.run_bind] at h
  match hx : x.run.run s with
  | (.ok b, u) =>
    rw [hx] at h
    exact h
  | (.error e, u) =>
    rw [hx] at h
    exact absurd h (hhandle e u)

/-- A loop whose passes all return, and keep what lets the next one return. -/
theorem forM {f : α → Effect ε σ PUnit} {l : List α} (inv : σ → Prop) (next : σ → α → σ)
    (h : ∀ s, inv s → ∀ a ∈ l, Returns (f a) s ⟨⟩ (next s a) ∧ inv (next s a)) {s : σ} (hs : inv s) :
    Returns (l.forM f) s ⟨⟩ (l.foldl next s) := by
  induction l generalizing s with
  | nil => exact Returns.pure PUnit.unit s
  | cons a l ih =>
    obtain ⟨hret, hinv⟩ := h s hs a List.mem_cons_self
    exact hret.bind (ih (fun s hs b hb => h s hs b (List.mem_cons_of_mem a hb)) hinv)

end Returns

/-- Run from `s`, the computation fails with `e` and leaves `t`. -/
def Fails (x : Effect ε σ α) (s : σ) (e : ε) (t : σ) : Prop := x.run.run s = (.error e, t)

namespace Fails

theorem throw (e : ε) (s : σ) : Fails (throw e : Effect ε σ α) s e s := rfl

/-- What comes after a failure is not run. -/
theorem bind {x : Effect ε σ α} {s t : σ} {e : ε} (hx : Fails x s e t) (f : α → Effect ε σ β) :
    Fails (x >>= f) s e t := by
  unfold Fails at hx ⊢
  rw [ExceptT.run_bind, StateT.run_bind, hx]
  rfl

theorem after {x : Effect ε σ α} {f : α → Effect ε σ β} {s t u : σ} {a : α} {e : ε}
    (hx : Returns x s a t) (hf : Fails (f a) t e u) : Fails (x >>= f) s e u :=
  (hx.run_bind f).trans hf

end Fails

/-- A computation returns or fails. -/
theorem returns_or_fails (x : Effect ε σ α) (s : σ) :
    (∃ a t, Returns x s a t) ∨ ∃ e t, Fails x s e t := by
  unfold Returns Fails
  obtain ⟨e | a, t⟩ := x.run.run s
  · exact .inr ⟨e, t, rfl⟩
  · exact .inl ⟨a, t, rfl⟩

end DroidMirror.Lib.Effects
