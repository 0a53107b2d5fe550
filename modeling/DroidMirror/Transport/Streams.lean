import DroidMirror.Transport.AdbServer

/-! # The streams and their table

The table lists exactly the streams that are listed, each under its own id, and
a stream in the hands of an `open_stream` is in no other's (`Orderly`). With it
every stream keeps what its service sent (`delivers`). -/
namespace DroidMirror.Transport
open DroidMirror.Lib.Run

namespace ServerStream

theorem wire_keeps {s s' : ServerStream} {e : WireEvent} (h : s.wire e = some s') :
    s'.life = s.life ∧ s'.number = s.number := by
  revert h
  fun_cases ServerStream.wire s e
  all_goals
    intro h
    cases h <;> exact ⟨rfl, rfl⟩

end ServerStream

namespace AdbServer
variable {τ : Type}

/-- The table lists what is listed, and who holds a stream holds it alone. -/
structure Orderly (s : AdbServer τ) : Prop where
  listed : ∀ id h, s.table id = some h ↔ h < s.opened ∧ (s.conns h).life = .listed id
  held : ∀ t h, (s.calls t).holds = some h → h < s.opened ∧ (s.conns h).life = .opening
  alone : ∀ t t' h, (s.calls t).holds = some h → (s.calls t').holds = some h → t = t'

namespace Orderly
variable {s s' : AdbServer τ}

theorem start : Orderly (start : AdbServer τ) :=
  { listed := fun _ _ => iff_of_false (fun h => nomatch h) fun h => nomatch h.1
    held := fun _ _ h => nomatch h
    alone := fun _ _ _ h => nomatch h }

theorem lt (h : s.Orderly) {id : UInt32} {k : Nat} (hid : s.table id = some k) : k < s.opened :=
  ((h.listed id k).mp hid).1

theorem life (h : s.Orderly) {id : UInt32} {k : Nat} (hid : s.table id = some k) :
    (s.conns k).life = .listed id :=
  ((h.listed id k).mp hid).2

/-- A held stream is not listed. -/
theorem unlisted (h : s.Orderly) {t : τ} {k : Nat} (hk : (s.calls t).holds = some k) (id : UInt32) :
    s.table id ≠ some k := by
  intro hid
  cases (h.life hid).symm.trans (h.held t k hk).2

/-- Steps that leave the table and the lives alone, and take no stream in hand. -/
theorem congr (h : s.Orderly) (htable : s'.table = s.table) (hopened : s'.opened = s.opened)
    (hlife : ∀ k, (s'.conns k).life = (s.conns k).life)
    (hheld : ∀ t k, (s'.calls t).holds = some k → (s.calls t).holds = some k) : s'.Orderly := by
  refine ⟨?_, ?_, ?_⟩
  · intro id k
    rw [htable, hopened, hlife]
    exact h.listed id k
  · intro t k hk
    rw [hopened, hlife]
    exact h.held t k (hheld t k hk)
  · intro t t' k hk hk'
    exact h.alone t t' k (hheld t k hk) (hheld t' k hk')

variable [DecidableEq τ] {t : τ} {c : ServerCall}

/-- The other calls hold what they held, and this one holds nothing. -/
theorem held_of_update {k : Nat} {t' : τ} (hc : c.holds = none)
    (hk : (Function.update s.calls t c t').holds = some k) : t' ≠ t ∧ (s.calls t').holds = some k := by
  by_cases ht : t' = t
  · rw [ht, Function.update_self, hc] at hk
    cases hk
  · rw [Function.update_of_ne ht] at hk
    exact ⟨ht, hk⟩

theorem connect (h : s.Orderly) :
    Orderly { s.apply .connect with calls := Function.update s.calls t (.naming s.opened) } := by
  have hold (k : Nat) (hk : k < s.opened) :
      (Function.update s.conns s.opened ServerStream.new k).life = (s.conns k).life := by
    rw [Function.update_of_ne (Nat.ne_of_lt hk)]
  have hheld (t' : τ) (k : Nat)
      (hk : (Function.update s.calls t (.naming s.opened) t').holds = some k) :
      (t' = t ∧ k = s.opened) ∨ (t' ≠ t ∧ (s.calls t').holds = some k) := by
    by_cases ht : t' = t
    · rw [ht, Function.update_self] at hk
      exact .inl ⟨ht, (Option.some.inj hk).symm⟩
    · rw [Function.update_of_ne ht] at hk
      exact .inr ⟨ht, hk⟩
  refine ⟨?_, ?_, ?_⟩
  · intro id k
    show s.table id = some k ↔ k < s.opened + 1 ∧ (Function.update s.conns s.opened _ k).life = _
    rw [h.listed]
    constructor
    · rintro ⟨hk, hlife⟩
      exact ⟨Nat.lt_succ_of_lt hk, (hold k hk).trans hlife⟩
    · rintro ⟨hk, hlife⟩
      by_cases heq : k = s.opened
      · rw [heq, Function.update_self] at hlife
        cases hlife
      · have hlt : k < s.opened := Nat.lt_of_le_of_ne (Nat.le_of_lt_succ hk) heq
        exact ⟨hlt, (hold k hlt).symm.trans hlife⟩
  · intro t' k hk
    show k < s.opened + 1 ∧ (Function.update s.conns s.opened _ k).life = _
    rcases hheld t' k hk with ⟨-, rfl⟩ | ⟨-, hk⟩
    · exact ⟨Nat.lt_succ_self _, by rw [Function.update_self]; rfl⟩
    · obtain ⟨hlt, hlife⟩ := h.held t' k hk
      exact ⟨Nat.lt_succ_of_lt hlt, (hold k hlt).trans hlife⟩
  · intro t₁ t₂ k h₁ h₂
    rcases hheld t₁ k h₁ with ⟨rfl, rfl⟩ | ⟨-, h₁⟩
    · rcases hheld t₂ _ h₂ with ⟨rfl, -⟩ | ⟨-, h₂⟩
      · rfl
      · exact absurd (h.held t₂ _ h₂).1 (Nat.lt_irrefl _)
    · rcases hheld t₂ k h₂ with ⟨-, rfl⟩ | ⟨-, h₂⟩
      · exact absurd (h.held t₁ _ h₁).1 (Nat.lt_irrefl _)
      · exact h.alone t₁ t₂ k h₁ h₂

theorem list (h : s.Orderly) {id : UInt32} {k : Nat} (hc : (s.calls t).holds = some k)
    (hc' : c.holds = none) :
    Orderly { s.apply (.list id k) with calls := Function.update s.calls t c } := by
  have hopened : (s.apply (.list id k)).opened = s.opened := (s.unlist_rest id .lost).1
  have hself : ((s.apply (.list id k)).conns k).life = .listed id := by
    rw [list_conns, if_pos rfl]
  have hother {j : Nat} (hj : j ≠ k) : ((s.apply (.list id k)).conns j).life =
      if s.table id = some j then .lost else (s.conns j).life := by
    rw [list_conns, if_neg hj, unlist_conns]
    split
    · rfl
    · rfl
  refine ⟨?_, ?_, ?_⟩
  · intro id' j
    show (s.apply (.list id k)).table id' = some j ↔
      j < (s.apply (.list id k)).opened ∧ ((s.apply (.list id k)).conns j).life = _
    rw [list_table, hopened]
    by_cases hj : j = k
    · rw [hj, hself]
      constructor
      · intro hid
        split at hid
        · rename_i heq
          exact ⟨(h.held t k hc).1, congrArg _ heq.symm⟩
        · exact absurd hid (h.unlisted hc id')
      · rintro ⟨-, heq⟩
        rw [if_pos (Life.listed.inj heq).symm]
    · rw [hother hj]
      by_cases heq : id' = id
      · rw [if_pos heq, heq]
        refine iff_of_false (fun hid => hj (Option.some.inj hid).symm) ?_
        rintro ⟨hlt, hlife⟩
        split at hlife
        · cases hlife
        · rename_i hnot
          exact hnot ((h.listed id j).mpr ⟨hlt, hlife⟩)
      · rw [if_neg heq, h.listed id' j]
        refine and_congr_right fun hlt => ?_
        by_cases hid : s.table id = some j
        · rw [if_pos hid, h.life hid]
          exact iff_of_false (fun hl => heq (Life.listed.inj hl).symm) (fun hl => nomatch hl)
        · rw [if_neg hid]
  · intro t' j hj
    obtain ⟨ht, hheld⟩ := held_of_update hc' hj
    obtain ⟨hlt, hlife⟩ := h.held t' j hheld
    have hne : j ≠ k := fun heq => ht (h.alone t' t j hheld (heq ▸ hc))
    refine ⟨hopened ▸ hlt, ?_⟩
    show ((s.apply (.list id k)).conns j).life = _
    rw [hother hne, if_neg (h.unlisted hheld id), hlife]
  · intro t₁ t₂ j h₁ h₂
    exact h.alone t₁ t₂ j (held_of_update hc' h₁).2 (held_of_update hc' h₂).2

theorem close (h : s.Orderly) {id : UInt32} (hc' : c.holds = none) :
    Orderly { s.apply (.close id) with calls := Function.update s.calls t c } := by
  have hopened : (s.apply (.close id)).opened = s.opened := (s.unlist_rest id .closed).1
  have hlives (j : Nat) : ((s.apply (.close id)).conns j).life =
      if s.table id = some j then .closed else (s.conns j).life := by
    show ((s.unlist id .closed).conns j).life = _
    rw [unlist_conns]
    split
    · rfl
    · rfl
  refine ⟨?_, ?_, ?_⟩
  · intro id' j
    show (s.unlist id .closed).table id' = some j ↔
      j < (s.apply (.close id)).opened ∧ ((s.apply (.close id)).conns j).life = _
    rw [unlist_table, hopened, hlives]
    by_cases heq : id' = id
    · rw [if_pos heq, heq]
      refine iff_of_false (fun hid => nomatch hid) ?_
      rintro ⟨hlt, hlife⟩
      split at hlife
      · cases hlife
      · rename_i hnot
        exact hnot ((h.listed id j).mpr ⟨hlt, hlife⟩)
    · rw [if_neg heq, h.listed id' j]
      refine and_congr_right fun hlt => ?_
      by_cases hid : s.table id = some j
      · rw [if_pos hid, h.life hid]
        exact iff_of_false (fun hl => heq (Life.listed.inj hl).symm) (fun hl => nomatch hl)
      · rw [if_neg hid]
  · intro t' j hj
    obtain ⟨-, hheld⟩ := held_of_update hc' hj
    obtain ⟨hlt, hlife⟩ := h.held t' j hheld
    refine ⟨hopened ▸ hlt, ?_⟩
    show ((s.apply (.close id)).conns j).life = _
    rw [hlives, if_neg (h.unlisted hheld id), hlife]
  · intro t₁ t₂ j h₁ h₂
    exact h.alone t₁ t₂ j (held_of_update hc' h₁).2 (held_of_update hc' h₂).2

theorem lose (h : s.Orderly) {k : Nat} (hc : (s.calls t).holds = some k) (hc' : c.holds = none) :
    Orderly { s.apply (.lose k) with calls := Function.update s.calls t c } := by
  have hlives (j : Nat) : ((s.apply (.lose k)).conns j).life =
      if j = k then .lost else (s.conns j).life := by
    refine (congrArg _ (s.modifyStream_conns k (fun c => { c with life := .lost }) j)).trans ?_
    split
    · rfl
    · rfl
  refine ⟨?_, ?_, ?_⟩
  · intro id j
    show s.table id = some j ↔ j < s.opened ∧ ((s.apply (.lose k)).conns j).life = _
    rw [hlives]
    by_cases hj : j = k
    · rw [if_pos hj, hj]
      exact iff_of_false (h.unlisted hc id) (fun hl => nomatch hl.2)
    · rw [if_neg hj, h.listed]
  · intro t' j hj
    obtain ⟨ht, hheld⟩ := held_of_update hc' hj
    obtain ⟨hlt, hlife⟩ := h.held t' j hheld
    have hne : j ≠ k := fun heq => ht (h.alone t' t j hheld (heq ▸ hc))
    refine ⟨hlt, ?_⟩
    show ((s.apply (.lose k)).conns j).life = _
    rw [hlives, if_neg hne, hlife]
  · intro t₁ t₂ j h₁ h₂
    exact h.alone t₁ t₂ j (held_of_update hc' h₁).2 (held_of_update hc' h₂).2

end Orderly

/-! ## Every step keeps it -/

/-- An operation that only reads from a channel or writes to a socket. -/
def Quiet (op : ServerOp) : Prop := op = .nop ∨ (∃ h, op = .recv h) ∨ ∃ h data, op = .write h data

/-- What such an operation leaves alone. -/
structure Alike (s s' : AdbServer τ) : Prop where
  table : s'.table = s.table
  opened : s'.opened = s.opened
  drawn : s'.drawn = s.drawn
  nextId : s'.nextId = s.nextId
  life : ∀ k, (s'.conns k).life = (s.conns k).life
  number : ∀ k, (s'.conns k).number = (s.conns k).number

/-- A field that a change of one stream leaves alone. -/
theorem modify_keeps {α : Type} (s : AdbServer τ) (h : Nat) {f : ServerStream → ServerStream}
    {g : ServerStream → α} (hf : ∀ c, g (f c) = g c) (k : Nat) :
    g ((s.modifyStream h f).conns k) = g (s.conns k) := by
  rw [modifyStream_conns]
  split
  · exact hf _
  · rfl

theorem alike_modify (s : AdbServer τ) (h : Nat) {f : ServerStream → ServerStream}
    (hlife : ∀ c, (f c).life = c.life) (hnumber : ∀ c, (f c).number = c.number) :
    Alike s (s.modifyStream h f) :=
  ⟨rfl, rfl, rfl, rfl, s.modify_keeps h hlife, s.modify_keeps h hnumber⟩

theorem alike_quiet (s : AdbServer τ) {op : ServerOp} (hop : Quiet op) : Alike s (s.apply op) := by
  rcases hop with rfl | ⟨h, rfl⟩ | ⟨h, data, rfl⟩
  · exact ⟨rfl, rfl, rfl, rfl, fun _ => rfl, fun _ => rfl⟩
  · exact s.alike_modify h (f := ServerStream.recv) (fun _ => rfl) fun _ => rfl
  · exact s.alike_modify h (f := fun c => { c with written := c.written ++ data }) (fun _ => rfl) fun _ => rfl

theorem alike_wire {s : AdbServer τ} {k : Nat} {e : WireEvent} {c : ServerStream}
    (hc : (s.conns k).wire e = some c) :
    Alike s { s with conns := Function.update s.conns k c } := by
  obtain ⟨hlife, hnumber⟩ := ServerStream.wire_keeps hc
  refine ⟨rfl, rfl, rfl, rfl, fun j => ?_, fun j => ?_⟩
  · by_cases hj : j = k
    · rw [hj]
      exact (congrArg ServerStream.life (Function.update_self ..)).trans hlife
    · exact congrArg ServerStream.life (Function.update_of_ne hj ..)
  · by_cases hj : j = k
    · rw [hj]
      exact (congrArg ServerStream.number (Function.update_self ..)).trans hnumber
    · exact congrArg ServerStream.number (Function.update_of_ne hj ..)

/-- Every stream keeps what its service sent. -/
def Sound (s : AdbServer τ) : Prop := ∀ k, (s.conns k).Sound

theorem sound_modify {s : AdbServer τ} (hs : s.Sound) (k : Nat) {f : ServerStream → ServerStream}
    (hf : (f (s.conns k)).Sound) : (s.modifyStream k f).Sound := by
  intro j
  rw [modifyStream_conns]
  split
  · rename_i heq
    rw [heq]
    exact hf
  · exact hs j

theorem sound_unlist {s : AdbServer τ} (hs : s.Sound) (id : UInt32) {life : Life} (hl : life.over = true) :
    (s.unlist id life).Sound := by
  intro j
  rw [unlist_conns]
  split
  · exact (hs j).live fun _ => hl
  · exact hs j

/-- What holds of a stream in every state that is reached. -/
structure Delivers (c : ServerStream) : Prop where
  /-- The reads return a front of what the service sent, in its order. -/
  inOrder : c.returned.flatten <+: c.received
  /-- Nothing is missing between it and what the pump has not read, as long as no read of the
  socket failed and the stream is neither closed nor lost. -/
  complete : c.pump ≠ .failed → c.life.over = false →
    c.returned.flatten ++ c.rx.flatten ++ c.pump.hand ++ c.socket = c.received
  /-- A read that finds nothing left and the sender gone, then, has come to the end. -/
  ended : c.pump ≠ .failed → c.life.over = false → c.pump.over = true → c.rx = [] →
    c.returned.flatten = c.received ∧ c.hungUp = true
  /-- The channel is bounded. -/
  bounded : c.rx.length ≤ 128 ∧ ∀ chunk ∈ c.rx, chunk ≠ [] ∧ chunk.length ≤ 32768

theorem delivers_of_sound {c : ServerStream} (h : c.Sound) : Delivers c := by
  have hwhole (hf : c.pump ≠ .failed) (hl : c.life.over = false) :
      c.returned.flatten ++ c.rx.flatten ++ c.pump.hand ++ c.socket = c.received := by
    refine h.whole hf ?_
    intro ha
    rw [h.aborted ha] at hl
    cases hl
  refine ⟨(List.prefix_append ..).trans h.front, hwhole, ?_, h.room, h.chunks⟩
  intro hf hl hover hrx
  have hend : c.pump = .finished := by
    cases hp : c.pump with
    | reading | sending =>
      rw [hp] at hover
      cases hover
    | finished => rfl
    | failed => exact absurd hp hf
    | aborted =>
      rw [h.aborted hp] at hl
      cases hl
  obtain ⟨hsocket, hup⟩ := h.finished hend
  have hall := hwhole hf hl
  rw [hrx, hend, hsocket] at hall
  refine ⟨?_, hup⟩
  simpa [Pump.hand] using hall

section
variable [DecidableEq τ] {s s' : AdbServer τ} {l : ServerLabel τ}

theorem orderly_step (hs : s.Orderly) (h : step s l = some s') : s'.Orderly := by
  cases l with
  | wire k e =>
    obtain ⟨-, c, hc, rfl⟩ := step_wire h
    have ha := alike_wire hc
    exact hs.congr ha.table ha.opened ha.life fun _ _ hk => hk
  | call t e =>
    obtain ⟨op, c, hdeed, rfl⟩ := step_call h
    cases hdeed with
    | quiet hop hc hc' =>
      have ha := alike_quiet s hop
      exact hs.congr ha.table ha.opened ha.life fun t' k hk => (Orderly.held_of_update hc' hk).2
    | connects hop hc' =>
      rw [hop, hc']
      exact hs.connect
    | @draws k hc hop hc' =>
      rw [hop, hc']
      have hlife := s.modify_keeps k (f := fun c => { c with number := some s.drawn })
        (g := ServerStream.life) fun _ => rfl
      refine hs.congr rfl rfl hlife ?_
      intro t' j hj
      by_cases ht : t' = t
      · rw [ht] at hj ⊢
        have hnew := congrArg ServerCall.holds (Function.update_self t (.listing s.nextId k) s.calls)
        rw [hc]
        exact hnew.symm.trans hj
      · have hold := congrArg ServerCall.holds (Function.update_of_ne ht (.listing s.nextId k) s.calls)
        exact hold.symm.trans hj
    | lists hc hop hc' =>
      rw [hop, hc']
      exact hs.list (congrArg ServerCall.holds hc) rfl
    | closes he hop hc' =>
      rw [hop, hc']
      exact hs.close rfl
    | loses hc hop hc' =>
      rw [hop, hc']
      exact hs.lose hc rfl

theorem sound_step (hs : s.Sound) (ho : s.Orderly) (h : step s l = some s') : s'.Sound := by
  cases l with
  | wire k e =>
    obtain ⟨-, c, hc, rfl⟩ := step_wire h
    intro j
    show (Function.update s.conns k c j).Sound
    rw [Function.update_apply]
    split
    · exact (hs k).wire hc
    · exact hs j
  | call t e =>
    obtain ⟨op, c, hdeed, rfl⟩ := step_call h
    show (s.apply op).Sound
    cases hdeed with
    | quiet hop hc hc' =>
      rcases hop with rfl | ⟨k, rfl⟩ | ⟨k, data, rfl⟩
      · exact hs
      · exact sound_modify hs k (hs k).recv
      · exact sound_modify hs k (f := fun c => { c with written := c.written ++ data }) { hs k with }
    | connects hop hc' =>
      rw [hop]
      intro j
      show (Function.update s.conns s.opened .new j).Sound
      rw [Function.update_apply]
      split
      · exact ServerStream.sound_new
      · exact hs j
    | @draws k hc hop hc' =>
      rw [hop]
      exact sound_modify hs k (f := fun c => { c with number := some s.drawn }) { hs k with }
    | @lists id k hc hop hc' =>
      rw [hop]
      have hopening := (ho.held t k (congrArg ServerCall.holds hc)).2
      have hunlisted := ho.unlisted (congrArg ServerCall.holds hc) id
      intro j
      rw [list_conns]
      split
      · rename_i heq
        refine (sound_unlist hs id rfl j).live ?_
        rw [heq, unlist_conns, if_neg hunlisted, hopening]
        exact fun h => nomatch h
      · exact sound_unlist hs id rfl j
    | closes he hop hc' =>
      rw [hop]
      exact sound_unlist hs _ rfl
    | @loses k hc hop hc' =>
      rw [hop]
      exact sound_modify hs k (f := fun c => { c with life := .lost }) ((hs k).live fun _ => rfl)

/-- However the services, the pumps and the calls interleave, every stream delivers what its
service sent. -/
theorem delivers {ls : List (ServerLabel τ)} {t : AdbServer τ} (h : run step start ls = some t)
    (k : Nat) : Delivers (t.conns k) := by
  have hboth : t.Sound ∧ t.Orderly :=
    run_preserves (fun (s : AdbServer τ) _ _ (hi : s.Sound ∧ s.Orderly) hs =>
      ⟨sound_step hi.1 hi.2 hs, orderly_step hi.2 hs⟩) h ⟨fun _ => ServerStream.sound_new, .start⟩
  exact delivers_of_sound (hboth.1 k)

/-- Two tasks open a stream each, and the second connection is the first to be listed. -/
def openBoth : List (ServerLabel Bool) :=
  [.call false (.begin_ (.openStream "shell:id")), .call true (.begin_ (.openStream "sync:")),
    .call false .connected, .call true .connected, .call true .proceed, .call false .proceed,
    .call true .proceed, .call false .proceed]

theorem delivers_both :
    ∃ t, run step start (openBoth ++ [.wire 1 (.arrives [79, 75]), .wire 1 (.reads 2), .wire 1 .sends,
      .call true (.begin_ (.read 1)), .call true .proceed]) = some t ∧ Delivers (t.conns 1) := by
  have hsome : (run step start (openBoth ++ [.wire 1 (.arrives [79, 75]), .wire 1 (.reads 2),
      .wire 1 .sends, .call true (.begin_ (.read 1)), .call true .proceed])).isSome = true := by decide +kernel
  obtain ⟨t, ht⟩ := Option.isSome_iff_exists.mp hsome
  exact ⟨t, ht, delivers ht 1⟩

end

end AdbServer
end DroidMirror.Transport
