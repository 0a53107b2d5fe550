import DroidMirror.Transport.Streams

/-! # The ids of the streams

The id of a stream is the one drawn at its place, and no two streams have one
place (`Numbered`). So an id keeps its stream until it is closed, unless 2^32
ids were drawn (`names`). -/
namespace DroidMirror.Transport
open DroidMirror.Lib.Run

namespace AdbServer
variable {τ : Type}

/-! ## Ids -/

/-- The id of a stream is the one drawn at its place. -/
def idAt (n : Nat) : UInt32 := UInt32.ofNat (n + 1)

theorem idAt_injective {m n : Nat} (hm : m < 2 ^ 32) (hn : n < 2 ^ 32) (h : idAt m = idAt n) : m = n := by
  have hnat := congrArg UInt32.toNat h
  simp only [idAt, UInt32.toNat_ofNat'] at hnat
  omega

/-- No two streams have one place, and a stream is listed under the id of its place. -/
structure Numbered (s : AdbServer τ) : Prop where
  next : s.nextId = idAt s.drawn
  below : ∀ h n, h < s.opened → (s.conns h).number = some n → n < s.drawn
  distinct : ∀ h h' n, h < s.opened → h' < s.opened → (s.conns h).number = some n →
    (s.conns h').number = some n → h = h'
  named : ∀ t id h, s.calls t = .listing id h → ∃ n, (s.conns h).number = some n ∧ id = idAt n
  listedAs : ∀ h id, h < s.opened → (s.conns h).life = .listed id →
    ∃ n, (s.conns h).number = some n ∧ id = idAt n

namespace Numbered
variable {s s' : AdbServer τ}

theorem start : Numbered (start : AdbServer τ) :=
  { next := rfl
    below := fun _ _ h => nomatch h
    distinct := fun _ _ _ h => nomatch h
    named := fun _ _ _ h => nomatch h
    listedAs := fun _ _ h => nomatch h }

/-- Steps that draw no id and list no stream. -/
theorem congr (h : s.Numbered) (hopened : s'.opened = s.opened) (hdrawn : s'.drawn = s.drawn)
    (hnext : s'.nextId = s.nextId) (hnumber : ∀ k, (s'.conns k).number = (s.conns k).number)
    (hlife : ∀ k id, k < s.opened → (s'.conns k).life = .listed id → (s.conns k).life = .listed id)
    (hcalls : ∀ t id k, s'.calls t = .listing id k → s.calls t = .listing id k) : s'.Numbered := by
  refine ⟨?_, ?_, ?_, ?_, ?_⟩
  · rw [hnext, hdrawn]
    exact h.next
  · rw [hopened, hdrawn]
    exact fun k n hk hn => h.below k n hk (hnumber k ▸ hn)
  · rw [hopened]
    exact fun k k' n hk hk' hn hn' => h.distinct k k' n hk hk' (hnumber k ▸ hn) (hnumber k' ▸ hn')
  · intro t id k ht
    rw [hnumber]
    exact h.named t id k (hcalls t id k ht)
  · rw [hopened]
    intro k id hk hl
    rw [hnumber]
    exact h.listedAs k id hk (hlife k id hk hl)

/-- The id a call is about to list is listed for no other stream. -/
theorem fresh (h : s.Numbered) (ho : s.Orderly) (hdrawn : s.drawn ≤ 2 ^ 32) {t : τ} {id : UInt32}
    {k : Nat} (hc : s.calls t = .listing id k) : s.table id = none := by
  cases hid : s.table id with
  | none => rfl
  | some j =>
    have hholds : (s.calls t).holds = some k := congrArg ServerCall.holds hc
    obtain ⟨hk, hopening⟩ := ho.held t k hholds
    obtain ⟨n, hn, hnid⟩ := h.named t id k hc
    obtain ⟨m, hm, hmid⟩ := h.listedAs j id (ho.lt hid) (ho.life hid)
    have hplace : n = m := idAt_injective (Nat.lt_of_lt_of_le (h.below k n hk hn) hdrawn)
      (Nat.lt_of_lt_of_le (h.below j m (ho.lt hid) hm) hdrawn) (hnid.symm.trans hmid)
    have hsame : k = j := h.distinct k j n hk (ho.lt hid) hn (hplace ▸ hm)
    exact absurd (hsame ▸ hid) (ho.unlisted hholds id)

variable [DecidableEq τ] {t : τ}

theorem calls_of_update {c : ServerCall} {t' : τ} {id : UInt32} {k : Nat} (hc : c ≠ .listing id k)
    (h : Function.update s.calls t c t' = .listing id k) : s.calls t' = .listing id k := by
  by_cases ht : t' = t
  · rw [ht, Function.update_self] at h
    exact absurd h hc
  · rwa [Function.update_of_ne ht] at h

theorem connect (h : s.Numbered) (ho : s.Orderly) :
    Numbered { s.apply .connect with calls := Function.update s.calls t (.naming s.opened) } := by
  have hold {k : Nat} (hk : k < s.opened) :
      Function.update s.conns s.opened ServerStream.new k = s.conns k :=
    Function.update_of_ne (Nat.ne_of_lt hk) ..
  have hnew : Function.update s.conns s.opened ServerStream.new s.opened = .new :=
    Function.update_self ..
  have hnumber {k n : Nat} (hk : k < s.opened + 1)
      (hn : (Function.update s.conns s.opened ServerStream.new k).number = some n) :
      k < s.opened ∧ (s.conns k).number = some n := by
    rcases Nat.lt_succ_iff_lt_or_eq.mp hk with hlt | rfl
    · rw [hold hlt] at hn
      exact ⟨hlt, hn⟩
    · rw [hnew] at hn
      cases hn
  refine ⟨h.next, ?_, ?_, ?_, ?_⟩
  · intro k n hk hn
    obtain ⟨hlt, hn⟩ := hnumber hk hn
    exact h.below k n hlt hn
  · intro k k' n hk hk' hn hn'
    obtain ⟨hlt, hn⟩ := hnumber hk hn
    obtain ⟨hlt', hn'⟩ := hnumber hk' hn'
    exact h.distinct k k' n hlt hlt' hn hn'
  · intro t' id k ht
    have hcalls : s.calls t' = .listing id k :=
      calls_of_update (c := .naming s.opened) (fun heq => nomatch heq) ht
    obtain ⟨n, hn, hid⟩ := h.named t' id k hcalls
    have hlt := (ho.held t' k (congrArg ServerCall.holds hcalls)).1
    exact ⟨n, (congrArg ServerStream.number (hold hlt)).trans hn, hid⟩
  · intro k id hk hl
    rcases Nat.lt_succ_iff_lt_or_eq.mp hk with hlt | rfl
    · have heq : Function.update s.conns s.opened ServerStream.new k = s.conns k := hold hlt
      obtain ⟨n, hn, hid⟩ := h.listedAs k id hlt (heq ▸ hl)
      exact ⟨n, (congrArg ServerStream.number heq).trans hn, hid⟩
    · cases (congrArg ServerStream.life hnew).symm.trans hl

theorem draw (h : s.Numbered) (ho : s.Orderly) {k : Nat} (hc : (s.calls t).holds = some k) :
    Numbered { s.apply (.draw k) with calls := Function.update s.calls t (.listing s.nextId k) } := by
  have hconns (j : Nat) : (s.apply (.draw k)).conns j =
      if j = k then { s.conns j with number := some s.drawn } else s.conns j :=
    s.modifyStream_conns k (fun c => { c with number := some s.drawn }) j
  have hnumber (j : Nat) : ((s.apply (.draw k)).conns j).number =
      if j = k then some s.drawn else (s.conns j).number := by
    rw [hconns]
    split
    · rfl
    · rfl
  have hlife (j : Nat) : ((s.apply (.draw k)).conns j).life = (s.conns j).life := by
    rw [hconns]
    split
    · rfl
    · rfl
  have hcases {j n : Nat} (hn : ((s.apply (.draw k)).conns j).number = some n) :
      (j = k ∧ n = s.drawn) ∨ (s.conns j).number = some n := by
    rw [hnumber] at hn
    split at hn
    · exact .inl ⟨‹_›, (Option.some.inj hn).symm⟩
    · exact .inr hn
  refine ⟨?_, ?_, ?_, ?_, ?_⟩
  · show s.nextId + 1 = idAt (s.drawn + 1)
    rw [h.next, idAt, idAt, UInt32.ofNat_add (s.drawn + 1) 1]
    rfl
  · intro j n hj hn
    rcases hcases hn with ⟨-, rfl⟩ | hn
    · exact Nat.lt_succ_self _
    · exact Nat.lt_succ_of_lt (h.below j n hj hn)
  · intro j j' n hj hj' hn hn'
    rcases hcases hn with ⟨hself, hlast⟩ | hold
    · rcases hcases hn' with ⟨hself', -⟩ | hold'
      · exact hself.trans hself'.symm
      · exact absurd (h.below j' n hj' hold') (hlast ▸ Nat.lt_irrefl _)
    · rcases hcases hn' with ⟨-, hlast⟩ | hold'
      · exact absurd (h.below j n hj hold) (hlast ▸ Nat.lt_irrefl _)
      · exact h.distinct j j' n hj hj' hold hold'
  · intro t' id j ht
    by_cases heq : t' = t
    · have hself : ServerCall.listing s.nextId k = .listing id j := by
        rw [heq] at ht
        exact (Function.update_self t (ServerCall.listing s.nextId k) s.calls).symm.trans ht
      obtain ⟨rfl, rfl⟩ := ServerCall.listing.inj hself
      exact ⟨s.drawn, (hnumber _).trans (if_pos rfl), h.next⟩
    · have hcalls : s.calls t' = .listing id j :=
        (Function.update_of_ne heq (ServerCall.listing s.nextId k) s.calls).symm.trans ht
      have hne : j ≠ k := by
        intro hj
        have hboth := ho.alone t' t k (hj ▸ congrArg ServerCall.holds hcalls) hc
        exact heq hboth
      obtain ⟨n, hn, hid⟩ := h.named t' id j hcalls
      exact ⟨n, ((hnumber j).trans (if_neg hne)).trans hn, hid⟩
  · intro j id hj hl
    have hlisted : (s.conns j).life = .listed id := (hlife j).symm.trans hl
    have hne : j ≠ k := by
      intro heq
      cases hlisted.symm.trans (heq ▸ (ho.held t k hc).2)
    obtain ⟨n, hn, hid⟩ := h.listedAs j id hj hlisted
    exact ⟨n, ((hnumber j).trans (if_neg hne)).trans hn, hid⟩

theorem list (h : s.Numbered) {id : UInt32} {k : Nat} (hc : s.calls t = .listing id k) :
    Numbered { s.apply (.list id k) with calls := Function.update s.calls t (.returned (.opened id)) } := by
  obtain ⟨hopened, hdrawn, hnext⟩ := s.unlist_rest id .lost
  have hnumber (j : Nat) : ((s.apply (.list id k)).conns j).number = (s.conns j).number := by
    rw [list_conns]
    have hunlist : ((s.unlist id .lost).conns j).number = (s.conns j).number := by
      rw [unlist_conns]
      split
      · rfl
      · rfl
    split
    · exact hunlist
    · exact hunlist
  refine ⟨?_, ?_, ?_, ?_, ?_⟩
  · exact hnext.trans (h.next.trans (congrArg idAt hdrawn.symm))
  · intro j n hj hn
    exact hdrawn.symm ▸ h.below j n (hopened ▸ hj) ((hnumber j).symm.trans hn)
  · intro j j' n hj hj' hn hn'
    exact h.distinct j j' n (hopened ▸ hj) (hopened ▸ hj') ((hnumber j).symm.trans hn)
      ((hnumber j').symm.trans hn')
  · intro t' id' j ht
    have hcalls : s.calls t' = .listing id' j :=
      calls_of_update (c := .returned (.opened id)) (fun heq => nomatch heq) ht
    obtain ⟨n, hn, hid⟩ := h.named t' id' j hcalls
    exact ⟨n, (hnumber j).trans hn, hid⟩
  · intro j id' hj hl
    have hlisted : ∃ n, (s.conns j).number = some n ∧ id' = idAt n := by
      have hnow : ((s.apply (.list id k)).conns j).life = .listed id' := hl
      rw [list_conns] at hnow
      split at hnow
      · rename_i heq
        rw [heq, ← Life.listed.inj hnow]
        exact h.named t id k hc
      · rw [unlist_conns] at hnow
        split at hnow
        · cases hnow
        · exact h.listedAs j id' (hopened ▸ hj) hnow
    obtain ⟨n, hn, hid⟩ := hlisted
    exact ⟨n, (hnumber j).trans hn, hid⟩

end Numbered

section
variable [DecidableEq τ] {s s' : AdbServer τ} {l : ServerLabel τ}

theorem numbered_step (h : s.Numbered) (ho : s.Orderly) (hstep : step s l = some s') : s'.Numbered := by
  cases l with
  | wire k e =>
    obtain ⟨-, c, hc, rfl⟩ := step_wire hstep
    have ha := alike_wire hc
    exact h.congr ha.opened ha.drawn ha.nextId ha.number
      (fun j id _ hl => (ha.life j).symm.trans hl) fun _ _ _ ht => ht
  | call t e =>
    obtain ⟨op, c, hdeed, rfl⟩ := step_call hstep
    cases hdeed with
    | quiet hop hc hc' =>
      have ha := alike_quiet s hop
      refine h.congr ha.opened ha.drawn ha.nextId ha.number (fun j id _ hl => (ha.life j).symm.trans hl) ?_
      intro t' id j ht
      refine Numbered.calls_of_update ?_ ht
      rintro rfl
      cases hc'
    | connects hop hc' =>
      rw [hop, hc']
      exact h.connect ho
    | draws hc hop hc' =>
      rw [hop, hc']
      exact h.draw ho (congrArg ServerCall.holds hc)
    | lists hc hop hc' =>
      rw [hop, hc']
      exact h.list hc
    | @closes id he hop hc' =>
      rw [hop, hc']
      obtain ⟨hopened, hdrawn, hnext⟩ := s.unlist_rest id .closed
      refine h.congr hopened hdrawn hnext ?_ ?_ ?_
      · intro j
        show ((s.unlist id .closed).conns j).number = _
        rw [unlist_conns]
        split
        · rfl
        · rfl
      · intro j id' _ hl
        have hnow : ((s.unlist id .closed).conns j).life = .listed id' := hl
        rw [unlist_conns] at hnow
        split at hnow
        · cases hnow
        · exact hnow
      · exact fun t' id' j ht => Numbered.calls_of_update (c := .returned .closed) (fun heq => nomatch heq) ht
    | @loses k hc hop hc' =>
      rw [hop, hc']
      refine h.congr rfl rfl rfl (s.modify_keeps k (f := fun c => { c with life := .lost })
        (g := ServerStream.number) fun _ => rfl) ?_ ?_
      · intro j id _ hl
        have hnow : ((s.modifyStream k fun c => { c with life := .lost }).conns j).life = .listed id := hl
        rw [modifyStream_conns] at hnow
        split at hnow
        · cases hnow
        · exact hnow
      · exact fun t' id' j ht => Numbered.calls_of_update (c := .idle) (fun heq => nomatch heq) ht

theorem drawn_step (hstep : step s l = some s') : s.drawn ≤ s'.drawn := by
  cases l with
  | wire k e =>
    obtain ⟨-, c, hc, rfl⟩ := step_wire hstep
    exact Nat.le_refl _
  | call t e =>
    obtain ⟨op, c, -, rfl⟩ := step_call hstep
    show s.drawn ≤ (s.apply op).drawn
    cases op with
    | draw h => exact Nat.le_succ _
    | list id h => exact Nat.le_of_eq (s.unlist_rest id .lost).2.1.symm
    | close id => exact Nat.le_of_eq (s.unlist_rest id .closed).2.1.symm
    | _ => exact Nat.le_refl _

theorem drawn_run {ls : List (ServerLabel τ)} {t : AdbServer τ} (h : run step s ls = some t) :
    s.drawn ≤ t.drawn :=
  run_preserves (fun (u : AdbServer τ) _ _ (hi : s.drawn ≤ u.drawn) hs => Nat.le_trans hi (drawn_step hs)) h (Nat.le_refl _)

/-- Some call of `close_stream` names the id. -/
def Closes (id : UInt32) : ServerLabel τ → Prop
  | .call _ (.begin_ (.closeStream id')) => id' = id
  | _ => False

/-- A listed id keeps its stream in every step but its close. -/
theorem table_step (h : s.Numbered) (ho : s.Orderly) (hdrawn : s.drawn ≤ 2 ^ 32) {id : UInt32}
    {k : Nat} (hid : s.table id = some k) (hl : ¬ Closes id l) (hstep : step s l = some s') :
    s'.table id = some k := by
  cases l with
  | wire j e =>
    obtain ⟨-, c, hc, rfl⟩ := step_wire hstep
    exact hid
  | call t e =>
    obtain ⟨op, c, hdeed, rfl⟩ := step_call hstep
    show (s.apply op).table id = some k
    cases hdeed with
    | quiet hop hc hc' =>
      rw [(alike_quiet s hop).table]
      exact hid
    | @lists id' j hc hop hc' =>
      have hne : id ≠ id' := by
        rintro rfl
        cases hid.symm.trans (h.fresh ho hdrawn hc)
      rw [hop, list_table, if_neg hne]
      exact hid
    | @closes id' he hop hc' =>
      have hne : id ≠ id' := by
        rintro rfl
        rw [he] at hl
        exact hl rfl
      rw [hop]
      show (s.unlist id' .closed).table id = _
      rw [unlist_table, if_neg hne]
      exact hid
    | connects hop hc' =>
      rw [hop]
      exact hid
    | draws hc hop hc' =>
      rw [hop]
      exact hid
    | loses hc hop hc' =>
      rw [hop]
      exact hid

theorem table_run {id : UInt32} {k : Nat} {ls : List (ServerLabel τ)} {t : AdbServer τ}
    (h : s.Numbered) (ho : s.Orderly) (hid : s.table id = some k) (hl : ∀ l ∈ ls, ¬ Closes id l)
    (hrun : run step s ls = some t) (hdrawn : t.drawn ≤ 2 ^ 32) : t.table id = some k := by
  induction ls generalizing s with
  | nil =>
    cases hrun
    exact hid
  | cons l ls ih =>
    obtain ⟨u, hu, hrun⟩ := run_cons.mp hrun
    have hle : s.drawn ≤ 2 ^ 32 := Nat.le_trans (Nat.le_trans (drawn_step hu) (drawn_run hrun)) hdrawn
    exact ih (numbered_step h ho hu) (orderly_step ho hu)
      (table_step h ho hle hid (hl l List.mem_cons_self) hu)
      (fun l' hl' => hl l' (List.mem_cons_of_mem l hl')) hrun

/-- From when `open_stream` returns an id for its connection until a `close_stream` of that id,
the id is listed for that connection, whatever else is opened, closed or dropped, as long as no
more than 2^32 ids were drawn. -/
theorem names {before later : List (ServerLabel τ)} {s t : AdbServer τ} {u : τ} {id : UInt32} {k : Nat}
    (hbefore : run step start before = some s) (hopen : s.calls u = .listing id k)
    (hlater : run step s (.call u .proceed :: later) = some t) (hkept : ∀ l ∈ later, ¬ Closes id l)
    (hdrawn : t.drawn ≤ 2 ^ 32) : t.table id = some k := by
  have hboth : s.Numbered ∧ s.Orderly :=
    run_preserves (fun (s : AdbServer τ) _ _ (hi : s.Numbered ∧ s.Orderly) hs =>
      ⟨numbered_step hi.1 hi.2 hs, orderly_step hi.2 hs⟩) hbefore ⟨.start, .start⟩
  obtain ⟨v, hv, hrun⟩ := run_cons.mp hlater
  have hlisted : v.table id = some k := by
    obtain ⟨⟨op, c⟩, hnext, rfl⟩ := Option.map_eq_some_iff.mp hv
    rw [hopen] at hnext
    cases hnext
    show (s.apply (.list id k)).table id = _
    rw [list_table, if_pos rfl]
  exact table_run (numbered_step hboth.1 hboth.2 hv) (orderly_step hboth.2 hv) hlisted hkept hrun hdrawn

/-- The first of two streams is opened and closed while the second stays. -/
theorem names_second :
    ∃ s t, run step start (openBoth.take 6) = some s ∧
      run step s [.call true .proceed, .call false .proceed, .call false (.begin_ (.closeStream 2))] = some t ∧
      t.table 1 = some 1 := by
  have hrun : (run step start (openBoth.take 6)).map (fun s => (s.calls true,
      (run step s [.call true .proceed, .call false .proceed,
        .call false (.begin_ (.closeStream 2))]).map fun t => t.drawn)) =
      some (.listing 1 1, some 2) := by decide +kernel
  obtain ⟨s, hs, hview⟩ := Option.map_eq_some_iff.mp hrun
  obtain ⟨hcall, hlater⟩ := Prod.mk.inj hview
  obtain ⟨t, ht, hdrawn⟩ := Option.map_eq_some_iff.mp hlater
  refine ⟨s, t, hs, ht, names hs hcall ht ?_ (by rw [hdrawn]; decide)⟩
  intro l hl
  rcases List.mem_cons.mp hl with rfl | hl
  · exact id
  · rw [List.mem_singleton.mp hl]
    exact fun heq => absurd (show (2 : UInt32) = 1 from heq) (by decide)

end

end AdbServer
end DroidMirror.Transport
