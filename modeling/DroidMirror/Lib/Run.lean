import Mathlib.Data.List.Basic

/-! # Runs of a labelled machine

A machine is a partial step function, a run a list of labels it takes one after
another. What every step preserves under a condition holds at the end of a run
whose steps meet the condition (`run_invariant`, or `run_history` where it also
speaks of the labels taken); what every step keeps exactly when it meets the
condition holds at the end exactly of those runs (`run_iff_meets`); and what
depends on some labels only is a fold over them (`run_script`). What a property
says of the past an observer keeps count of (`observed`). Where the steps of the
machine's own use up work, they come to rest (`run_work`, `exists_settled`).

A log grows at its end. `Each` speaks of every entry and those before it,
`Since` of the entries after the last mark. -/
namespace DroidMirror.Lib.Run

/-! ## Runs -/

section
variable {σ α : Type} (step : σ → α → Option σ)

def run : σ → List α → Option σ
  | s, [] => some s
  | s, a :: as => (step s a).bind fun s' => run s' as

/-- The condition holds of every step the run takes. -/
def Meets (ok : σ → α → Prop) : σ → List α → Prop
  | _, [] => True
  | s, a :: as => ok s a ∧ ∀ s' ∈ step s a, Meets ok s' as

instance decidableMeets (ok : σ → α → Prop) [∀ s a, Decidable (ok s a)] :
    ∀ s as, Decidable (Meets step ok s as)
  | _, [] => inferInstanceAs (Decidable True)
  | s, a :: as =>
    have := fun s' => decidableMeets ok s' as
    inferInstanceAs (Decidable (ok s a ∧ ∀ s' ∈ step s a, Meets step ok s' as))

variable {step}

theorem run_cons {s t : σ} {a : α} {as : List α} :
    run step s (a :: as) = some t ↔ ∃ s', step s a = some s' ∧ run step s' as = some t :=
  Option.bind_eq_some_iff

theorem run_append {s t : σ} {as bs : List α} :
    run step s (as ++ bs) = some t ↔ ∃ u, run step s as = some u ∧ run step u bs = some t := by
  induction as generalizing s with
  | nil => simp [run]
  | cons a as ih =>
    rw [List.cons_append, run_cons]
    constructor
    · rintro ⟨s', hs, hrun⟩
      obtain ⟨u, hu, ht⟩ := ih.mp hrun
      exact ⟨u, run_cons.mpr ⟨s', hs, hu⟩, ht⟩
    · rintro ⟨u, hu, ht⟩
      obtain ⟨s', hs, hrun⟩ := run_cons.mp hu
      exact ⟨s', hs, ih.mpr ⟨u, hrun, ht⟩⟩

theorem meets_true (s : σ) (as : List α) : Meets step (fun _ _ => True) s as := by
  induction as generalizing s with
  | nil => trivial
  | cons a as ih => exact ⟨trivial, fun s' _ => ih s'⟩

/-- A condition on the steps, as one on the states the run passes. -/
theorem meets_iff {ok : σ → α → Prop} {s : σ} {as : List α} : Meets step ok s as ↔
    ∀ before a after s', as = before ++ a :: after → run step s before = some s' → ok s' a := by
  induction as generalizing s with
  | nil =>
    refine iff_of_true trivial ?_
    intro before a after s' h
    cases List.append_ne_nil_of_right_ne_nil before (List.cons_ne_nil a after) h.symm
  | cons a as ih =>
    constructor
    · rintro ⟨hok, hrest⟩ before b after s' h hrun
      cases before with
      | nil =>
        cases hrun
        cases h
        exact hok
      | cons b' before =>
        cases h
        obtain ⟨u, hu, hrun⟩ := run_cons.mp hrun
        exact ih.mp (hrest u hu) before b after s' rfl hrun
    · intro h
      refine ⟨h [] a as s rfl rfl, ?_⟩
      intro u hu
      refine ih.mpr ?_
      intro before b after s' has hrun
      exact h (a :: before) b after s' (by rw [has, List.cons_append]) (run_cons.mpr ⟨u, hu, hrun⟩)

theorem meets_congr {ok ok' : σ → α → Prop} {s : σ} {as : List α}
    (h : ∀ before a after s', as = before ++ a :: after → run step s before = some s' →
      (ok s' a ↔ ok' s' a)) : Meets step ok s as ↔ Meets step ok' s as := by
  rw [meets_iff, meets_iff]
  constructor
  · exact fun hok before a after s' has hs => (h before a after s' has hs).mp (hok _ _ _ _ has hs)
  · exact fun hok before a after s' has hs => (h before a after s' has hs).mpr (hok _ _ _ _ has hs)

theorem run_invariant {Inv : σ → Prop} {ok : σ → α → Prop}
    (hstep : ∀ s a s', Inv s → ok s a → step s a = some s' → Inv s') {as : List α} :
    ∀ {s t}, run step s as = some t → Meets step ok s as → Inv s → Inv t := by
  induction as with
  | nil =>
    intro s t hrun _ h
    cases hrun
    exact h
  | cons a as ih =>
    intro s t hrun hok h
    obtain ⟨s', hs, hrun⟩ := run_cons.mp hrun
    exact ih hrun (hok.2 s' hs) (hstep s a s' h hok.1 hs)

/-- An invariant holds before every step. -/
theorem meets_invariant {Inv : σ → Prop} {ok : σ → α → Prop}
    (hstep : ∀ s a s', Inv s → ok s a → step s a = some s' → Inv s') {as : List α} :
    ∀ {s}, Meets step ok s as → Inv s → Meets step (fun s _ => Inv s) s as := by
  induction as with
  | nil => exact fun _ _ => trivial
  | cons a as ih =>
    intro s hok h
    exact ⟨h, fun s' hs => ih (hok.2 s' hs) (hstep s a s' h hok.1 hs)⟩

/-- Every step preserves it, so every run does. -/
theorem run_preserves {Inv : σ → Prop} (hstep : ∀ s a s', Inv s → step s a = some s' → Inv s')
    {as : List α} {s t : σ} (hrun : run step s as = some t) (h : Inv s) : Inv t :=
  run_invariant (fun s a s' hi _ hs => hstep s a s' hi hs) hrun (meets_true s as) h

/-- An invariant of the state and the labels taken so far. -/
theorem run_history {Inv : List α → σ → Prop} {ok : σ → α → Prop}
    (hstep : ∀ past s a s', Inv past s → ok s a → step s a = some s' → Inv (past ++ [a]) s')
    {as : List α} : ∀ {past s t}, run step s as = some t → Meets step ok s as → Inv past s →
      Inv (past ++ as) t := by
  induction as with
  | nil =>
    intro past s t hrun _ h
    cases hrun
    rw [List.append_nil]
    exact h
  | cons a as ih =>
    intro past s t hrun hok h
    obtain ⟨s', hs, hrun⟩ := run_cons.mp hrun
    rw [List.append_cons]
    exact ih hrun (hok.2 s' hs) (hstep past s a s' h hok.1 hs)

/-- What a step keeps exactly when it meets the condition holds at the end
exactly of the runs whose steps do. -/
theorem run_iff_meets_of {Inv P : σ → Prop} {ok : σ → α → Prop}
    (hinv : ∀ s a s', Inv s → step s a = some s' → Inv s')
    (hstep : ∀ s a s', Inv s → step s a = some s' → (P s' ↔ P s ∧ ok s a)) {as : List α} :
    ∀ {s t}, Inv s → run step s as = some t → (P t ↔ P s ∧ Meets step ok s as) := by
  induction as with
  | nil =>
    intro s t _ hrun
    cases hrun
    exact (and_iff_left trivial).symm
  | cons a as ih =>
    intro s t hi hrun
    obtain ⟨s', hs, hrun⟩ := run_cons.mp hrun
    have hnext : (∀ u ∈ step s a, Meets step ok u as) ↔ Meets step ok s' as := by
      constructor
      · exact fun h => h s' hs
      · intro h u hu
        cases hs.symm.trans hu
        exact h
    rw [ih (hinv s a s' hi hs) hrun, hstep s a s' hi hs, Meets, hnext, and_assoc]

theorem run_iff_meets {P : σ → Prop} {ok : σ → α → Prop}
    (hstep : ∀ s a s', step s a = some s' → (P s' ↔ P s ∧ ok s a)) {as : List α} {s t : σ}
    (hrun : run step s as = some t) : P t ↔ P s ∧ Meets step ok s as :=
  run_iff_meets_of (fun _ _ _ _ _ => trivial)
    (fun s a s' _ hs => hstep s a s' hs) trivial hrun

/-- What a step keeps exactly when it meets the condition holds of every state
a run passes exactly if its steps do. -/
theorem run_always_iff {P : σ → Prop} {ok : σ → α → Prop}
    (hstep : ∀ s a s', P s → step s a = some s' → (P s' ↔ ok s a)) {as : List α} :
    ∀ {s t}, P s → run step s as = some t →
      ((∀ before u, before <+: as → run step s before = some u → P u) ↔ Meets step ok s as) := by
  induction as with
  | nil =>
    intro s t hp hrun
    refine iff_of_true ?_ trivial
    intro before u hbefore hu
    rw [List.prefix_nil.mp hbefore] at hu
    cases hu
    exact hp
  | cons a as ih =>
    intro s t hp hrun
    obtain ⟨s', hs, hlast⟩ := run_cons.mp hrun
    constructor
    · intro h
      have hp' : P s' := h [a] s' (List.prefix_append [a] as) (run_cons.mpr ⟨s', hs, rfl⟩)
      refine ⟨(hstep s a s' hp hs).mp hp', ?_⟩
      intro u hu
      cases hs.symm.trans hu
      refine (ih hp' hlast).mp ?_
      intro before v hbefore hv
      exact h (a :: before) v ((List.prefix_cons_inj a).mpr hbefore) (run_cons.mpr ⟨s', hs, hv⟩)
    · rintro ⟨hok, hrest⟩ before u hbefore hu
      have hp' : P s' := (hstep s a s' hp hs).mpr hok
      cases before with
      | nil =>
        cases hu
        exact hp
      | cons b before =>
        obtain ⟨rfl, htail⟩ := List.cons_prefix_cons.mp hbefore
        obtain ⟨v, hv, hlater⟩ := run_cons.mp hu
        cases hs.symm.trans hv
        exact (ih hp' hlast).mpr (hrest s' hs) before u htail hlater

/-- A view of the state that some labels change and the others leave alone. -/
theorem run_script {τ ι : Type} {view : σ → τ} {input : α → Option ι} {next : τ → ι → τ}
    {ok : σ → α → Prop}
    (hstep : ∀ s a s', ok s a → step s a = some s' →
      view s' = (input a).elim (view s) (next (view s))) {as : List α} :
    ∀ {s t}, run step s as = some t → Meets step ok s as →
      view t = (as.filterMap input).foldl next (view s) := by
  induction as with
  | nil =>
    intro s t hrun _
    cases hrun
    rfl
  | cons a as ih =>
    intro s t hrun hok
    obtain ⟨s', hs, hrun⟩ := run_cons.mp hrun
    rw [ih hrun (hok.2 s' hs), hstep s a s' hok.1 hs]
    cases hi : input a with
    | none => rw [List.filterMap_cons_none hi]; rfl
    | some i => rw [List.filterMap_cons_some hi]; rfl

/-! ## Rest -/

/-- None of the machine's own steps can be taken. -/
def Settled (step : σ → α → Option σ) (own : α → Prop) (s : σ) : Prop := ∀ a, own a → step s a = none

/-- Steps that use up work are at most as many as there is work. -/
theorem run_work {own : α → Prop} {work : σ → Nat}
    (hstep : ∀ s a s', own a → step s a = some s' → work s' < work s) {as : List α} :
    ∀ {s t}, run step s as = some t → (∀ a ∈ as, own a) → as.length + work t ≤ work s := by
  induction as with
  | nil =>
    intro s t hrun _
    cases hrun
    exact Nat.le_of_eq (Nat.zero_add _)
  | cons a as ih =>
    intro s t hrun hown
    obtain ⟨s', hs, hrun⟩ := run_cons.mp hrun
    have hlast := ih hrun fun b hb => hown b (List.mem_cons_of_mem a hb)
    have hfirst := hstep s a s' (hown a List.mem_cons_self) hs
    rw [List.length_cons]
    omega

/-- However far a machine has come, it can come to rest by itself. -/
theorem exists_settled {own : α → Prop} {work : σ → Nat}
    (hstep : ∀ s a s', own a → step s a = some s' → work s' < work s) (s : σ) :
    ∃ as t, run step s as = some t ∧ (∀ a ∈ as, own a) ∧ Settled step own t := by
  induction hn : work s using Nat.strongRecOn generalizing s with
  | ind n ih =>
    by_cases hrest : Settled step own s
    · exact ⟨[], s, rfl, fun _ ha => (List.not_mem_nil ha).elim, hrest⟩
    · simp only [Settled, not_forall] at hrest
      obtain ⟨a, hown, hsome⟩ := hrest
      obtain ⟨s', hs⟩ := Option.ne_none_iff_exists'.mp hsome
      obtain ⟨as, t, hrun, hall, ht⟩ := ih (work s') (hn ▸ hstep s a s' hown hs) s' rfl
      refine ⟨a :: as, t, run_cons.mpr ⟨s', hs, hrun⟩, ?_, ht⟩
      intro b hb
      rcases List.mem_cons.mp hb with rfl | hb
      · exact hown
      · exact hall b hb

end

/-! ## Observed runs

A machine together with what an observer makes of its steps: the observer sees
each step from outside and changes nothing. -/

section
variable {σ α γ : Type} (see : γ → σ → α → σ → γ) (step : σ → α → Option σ)

def observed : γ × σ → α → Option (γ × σ)
  | (g, s), a => (step s a).map fun s' => (see g s a s', s')

variable {see step}

theorem observed_eq_some {p p' : γ × σ} {a : α} :
    observed see step p a = some p' ↔ step p.2 a = some p'.2 ∧ p'.1 = see p.1 p.2 a p'.2 := by
  obtain ⟨g, s⟩ := p
  obtain ⟨g', s'⟩ := p'
  constructor
  · intro h
    obtain ⟨u, hu, heq⟩ := Option.map_eq_some_iff.mp h
    cases heq
    exact ⟨hu, rfl⟩
  · intro h
    exact Option.map_eq_some_iff.mpr ⟨s', h.1, Prod.ext h.2.symm rfl⟩

/-- An observed run is a run. -/
theorem run_of_observed {as : List α} : ∀ {p q : γ × σ}, run (observed see step) p as = some q →
    run step p.2 as = some q.2 := by
  induction as with
  | nil =>
    intro p q h
    cases h
    rfl
  | cons a as ih =>
    intro p q h
    obtain ⟨u, hu, hrun⟩ := run_cons.mp h
    exact run_cons.mpr ⟨u.2, (observed_eq_some.mp hu).1, ih hrun⟩

/-- Every run can be observed. -/
theorem run_observed {s t : σ} {as : List α} (g : γ) (h : run step s as = some t) :
    ∃ g', run (observed see step) (g, s) as = some (g', t) := by
  induction as generalizing g s with
  | nil =>
    cases h
    exact ⟨g, rfl⟩
  | cons a as ih =>
    obtain ⟨s', hs, hrun⟩ := run_cons.mp h
    obtain ⟨g', hg'⟩ := ih (see g s a s') hrun
    exact ⟨g', run_cons.mpr ⟨(see g s a s', s'), observed_eq_some.mpr ⟨hs, rfl⟩, hg'⟩⟩

end

/-! ## Logs -/

section
variable {β : Type}

/-- `Q` of every entry and the entries before it. -/
def Each (Q : List β → β → Prop) (l : List β) : Prop := ∀ a x b, l = a ++ x :: b → Q a x

/-- Some entry has `p`, and none after it is marked. -/
def Since (mark p : β → Prop) (l : List β) : Prop :=
  ∃ a x b, l = a ++ x :: b ∧ p x ∧ ∀ y ∈ b, ¬ mark y

theorem snoc_eq_split {l a b : List β} {x y : β} (h : l ++ [x] = a ++ y :: b) :
    (b = [] ∧ l = a ∧ x = y) ∨ ∃ b', b = b' ++ [x] ∧ l = a ++ y :: b' := by
  rcases List.eq_nil_or_concat b with rfl | ⟨b', z, rfl⟩
  · obtain ⟨rfl, hx⟩ := List.append_inj' h rfl
    cases hx
    exact .inl ⟨rfl, rfl, rfl⟩
  · rw [List.concat_eq_append, ← List.cons_append, ← List.append_assoc] at h
    obtain ⟨rfl, hx⟩ := List.append_inj' h rfl
    cases hx
    exact .inr ⟨b', List.concat_eq_append, rfl⟩

theorem each_nil (Q : List β → β → Prop) : Each Q [] := by
  intro a x b h
  cases List.append_ne_nil_of_right_ne_nil a (List.cons_ne_nil x b) h.symm

theorem each_snoc {Q : List β → β → Prop} {l : List β} {x : β} :
    Each Q (l ++ [x]) ↔ Each Q l ∧ Q l x := by
  constructor
  · intro h
    refine ⟨fun a y b hl => h a y (b ++ [x]) ?_, h l x [] rfl⟩
    rw [hl, List.append_assoc, List.cons_append]
  · rintro ⟨h, hx⟩ a y b hl
    rcases snoc_eq_split hl with ⟨_, rfl, rfl⟩ | ⟨b', _, hl⟩
    · exact hx
    · exact h a y b' hl

theorem not_since_nil (mark p : β → Prop) : ¬ Since mark p [] := by
  rintro ⟨a, x, b, h, _⟩
  cases List.append_ne_nil_of_right_ne_nil a (List.cons_ne_nil x b) h.symm

theorem since_snoc {mark p : β → Prop} {l : List β} {x : β} :
    Since mark p (l ++ [x]) ↔ p x ∨ (¬ mark x ∧ Since mark p l) := by
  constructor
  · rintro ⟨a, y, b, hl, hy, hb⟩
    rcases snoc_eq_split hl with ⟨_, _, rfl⟩ | ⟨b', rfl, hfront⟩
    · exact .inl hy
    · exact .inr ⟨hb x (by simp), a, y, b', hfront, hy, fun z hz => hb z (List.mem_append_left _ hz)⟩
  · rintro (hx | ⟨hx, a, y, b, rfl, hy, hb⟩)
    · exact ⟨l, x, [], rfl, hx, fun y hy => nomatch hy⟩
    · refine ⟨a, y, b ++ [x], by simp, hy, fun z hz => ?_⟩
      rcases List.mem_append.mp hz with hz | hz
      · exact hb z hz
      · exact List.mem_singleton.mp hz ▸ hx

theorem since_cons {mark p : β → Prop} {l : List β} {x : β} :
    Since mark p (x :: l) ↔ (p x ∧ ∀ y ∈ l, ¬ mark y) ∨ Since mark p l := by
  constructor
  · rintro ⟨a, y, b, hl, hy, hb⟩
    cases a with
    | nil =>
      cases hl
      exact .inl ⟨hy, hb⟩
    | cons z a =>
      cases hl
      exact .inr ⟨a, y, b, rfl, hy, hb⟩
  · rintro (⟨hx, hl⟩ | ⟨a, y, b, rfl, hy, hb⟩)
    · exact ⟨[], x, l, rfl, hx, hl⟩
    · exact ⟨x :: a, y, b, rfl, hy, hb⟩

theorem Since.of_append {mark p : β → Prop} {l m : List β} (h : Since mark p (l ++ m))
    (hm : ∀ x ∈ m, ¬ p x) : Since mark p l := by
  induction m generalizing l with
  | nil => rwa [List.append_nil] at h
  | cons x m ih =>
    rw [List.append_cons] at h
    have hx := ih h fun y hy => hm y (List.mem_cons_of_mem x hy)
    rcases since_snoc.mp hx with hp | ⟨_, hl⟩
    · exact absurd hp (hm x List.mem_cons_self)
    · exact hl

end

end DroidMirror.Lib.Run
