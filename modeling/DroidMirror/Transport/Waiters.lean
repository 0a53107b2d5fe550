import DroidMirror.Transport.AdbClient

/-! # Waiters

A waiter is the oneshot of one call, listed under the id of the call's stream
until the reader task answers it or another takes its place. In every state a
run reaches a listed waiter is unanswered, and the waiter of a call is listed,
if at all, under that call's id (`tickets_run`). -/
namespace DroidMirror.Transport
open DroidMirror.Lib.Run

namespace Shared

theorem insertWaiter_waiters (s : Shared) (id id' : UInt32) :
    (s.insertWaiter id).waiters id' = if id' = id then some s.asked else s.waiters id' :=
  Function.update_apply ..

theorem removeWaiter_waiters (s : Shared) (id id' : UInt32) :
    (s.removeWaiter id).waiters id' = if id' = id then none else s.waiters id' :=
  Function.update_apply ..

theorem resolve_waiters (s : Shared) (id : UInt32) (ack : Ack) (id' : UInt32) :
    (s.resolve id ack).waiters id' = if id' = id then none else s.waiters id' := by
  unfold resolve
  split
  · rename_i hnone
    split
    · rename_i hid
      rw [hid, hnone]
    · rfl
  · exact s.removeWaiter_waiters id id'

theorem resolve_acks (s : Shared) (id : UInt32) (ack : Ack) (w : Nat) :
    (s.resolve id ack).acks w = if s.waiters id = some w then some ack else s.acks w := by
  unfold resolve
  split
  · rename_i hnone
    rw [hnone, if_neg (by simp)]
  · rename_i w' hsome
    by_cases hw : w = w'
    · rw [hw, if_pos hsome]
      exact Function.update_self ..
    · rw [if_neg (fun h => hw (Option.some.inj (h.symm.trans hsome)))]
      exact Function.update_of_ne hw ..

theorem resolve_asked (s : Shared) (id : UInt32) (ack : Ack) : (s.resolve id ack).asked = s.asked := by
  unfold resolve
  split <;> rfl

/-- The waiters listed have been made, each is listed under one id, and none of
them is answered. -/
structure Ticketed (s : Shared) : Prop where
  made : ∀ {id w}, s.waiters id = some w → w < s.asked
  single : ∀ {id id' w}, s.waiters id = some w → s.waiters id' = some w → id = id'
  answered : ∀ {w}, s.acks w ≠ none → w < s.asked ∧ ∀ id, s.waiters id ≠ some w

/-- The waiter can only be listed under the id. -/
structure Holds (s : Shared) (id : UInt32) (w : Nat) : Prop where
  made : w < s.asked
  only : ∀ {id'}, s.waiters id' = some w → id' = id

/-- Nothing is said to the waiters. -/
structure SameWaiters (s s' : Shared) : Prop where
  waiters : s'.waiters = s.waiters
  acks : s'.acks = s.acks
  asked : s'.asked = s.asked

theorem SameWaiters.refl (s : Shared) : SameWaiters s s := ⟨rfl, rfl, rfl⟩

theorem Ticketed.congr {s s' : Shared} (ht : Ticketed s) (h : SameWaiters s s') : Ticketed s' := by
  constructor
  · intro id w
    rw [h.waiters, h.asked]
    exact ht.made
  · intro id id' w
    rw [h.waiters]
    exact ht.single
  · intro w
    rw [h.waiters, h.acks, h.asked]
    exact ht.answered

theorem Holds.congr {s s' : Shared} {id : UInt32} {w : Nat} (hw : Holds s id w)
    (h : SameWaiters s s') : Holds s' id w := by
  constructor
  · rw [h.asked]
    exact hw.made
  · rw [h.waiters]
    exact hw.only

theorem resolve_listed {s : Shared} {id id' : UInt32} {ack : Ack} {w : Nat}
    (h : (s.resolve id ack).waiters id' = some w) : id' ≠ id ∧ s.waiters id' = some w := by
  rw [resolve_waiters] at h
  split at h
  · cases h
  · rename_i hne
    exact ⟨hne, h⟩

theorem ticketed_resolve {s : Shared} (ht : Ticketed s) (id : UInt32) (ack : Ack) :
    Ticketed (s.resolve id ack) := by
  refine ⟨?_, ?_, ?_⟩
  · intro id' w h
    rw [resolve_asked]
    exact ht.made (resolve_listed h).2
  · intro id₁ id₂ w h₁ h₂
    exact ht.single (resolve_listed h₁).2 (resolve_listed h₂).2
  · intro w h
    rw [resolve_acks] at h
    rw [resolve_asked]
    split at h
    · rename_i hid
      refine ⟨ht.made hid, ?_⟩
      intro id' hid'
      obtain ⟨hne, hold⟩ := resolve_listed hid'
      exact hne (ht.single hold hid)
    · obtain ⟨hmade, hgone⟩ := ht.answered h
      exact ⟨hmade, fun id' hid' => hgone id' (resolve_listed hid').2⟩

theorem Holds.resolve {s : Shared} {id : UInt32} {w : Nat} (hw : Holds s id w) (id' : UInt32)
    (ack : Ack) : Holds (s.resolve id' ack) id w :=
  ⟨(s.resolve_asked id' ack).symm ▸ hw.made, fun h => hw.only (resolve_listed h).2⟩

theorem insertWaiter_listed {s : Shared} {id id' : UInt32} {w : Nat}
    (h : (s.insertWaiter id).waiters id' = some w) :
    (id' = id ∧ w = s.asked) ∨ (id' ≠ id ∧ s.waiters id' = some w) := by
  rw [insertWaiter_waiters] at h
  split at h
  · rename_i hid
    exact .inl ⟨hid, (Option.some.inj h).symm⟩
  · rename_i hne
    exact .inr ⟨hne, h⟩

theorem ticketed_insertWaiter {s : Shared} (ht : Ticketed s) (id : UInt32) :
    Ticketed (s.insertWaiter id) := by
  refine ⟨?_, ?_, ?_⟩
  · intro id' w h
    rcases insertWaiter_listed h with ⟨_, rfl⟩ | ⟨_, hold⟩
    · exact Nat.lt_succ_self _
    · exact Nat.lt_succ_of_lt (ht.made hold)
  · intro id₁ id₂ w h₁ h₂
    rcases insertWaiter_listed h₁ with ⟨hid₁, hw⟩ | ⟨_, hold₁⟩
    · rcases insertWaiter_listed h₂ with ⟨hid₂, _⟩ | ⟨_, hold₂⟩
      · rw [hid₁, hid₂]
      · exact absurd (ht.made hold₂) (hw ▸ Nat.lt_irrefl _)
    · rcases insertWaiter_listed h₂ with ⟨_, hw⟩ | ⟨_, hold₂⟩
      · exact absurd (ht.made hold₁) (hw ▸ Nat.lt_irrefl _)
      · exact ht.single hold₁ hold₂
  · intro w h
    obtain ⟨hmade, hgone⟩ := ht.answered h
    refine ⟨Nat.lt_succ_of_lt hmade, ?_⟩
    intro id' hid'
    rcases insertWaiter_listed hid' with ⟨_, hw⟩ | ⟨_, hold⟩
    · exact absurd hmade (hw ▸ Nat.lt_irrefl _)
    · exact hgone id' hold

theorem Holds.insertWaiter {s : Shared} {id : UInt32} {w : Nat} (hw : Holds s id w)
    (id' : UInt32) : Holds (s.insertWaiter id') id w := by
  refine ⟨Nat.lt_succ_of_lt hw.made, ?_⟩
  intro id₁ h
  rcases insertWaiter_listed h with ⟨_, heq⟩ | ⟨_, hold⟩
  · exact absurd hw.made (heq ▸ Nat.lt_irrefl _)
  · exact hw.only hold

theorem holds_asked {s : Shared} (ht : Ticketed s) (id : UInt32) :
    Holds (s.insertWaiter id) id s.asked := by
  refine ⟨Nat.lt_succ_self _, ?_⟩
  intro id' h
  rcases insertWaiter_listed h with ⟨hid, _⟩ | ⟨_, hold⟩
  · exact hid
  · exact absurd (ht.made hold) (Nat.lt_irrefl _)

theorem removeWaiter_listed {s : Shared} {id id' : UInt32} {w : Nat}
    (h : (s.removeWaiter id).waiters id' = some w) : id' ≠ id ∧ s.waiters id' = some w := by
  rw [removeWaiter_waiters] at h
  split at h
  · cases h
  · rename_i hne
    exact ⟨hne, h⟩

theorem ticketed_apply {s : Shared} (ht : Ticketed s) (op : Op) : Ticketed (s.apply op) := by
  cases op with
  | insertWaiter id => exact ticketed_insertWaiter ht id
  | removeWaiter id =>
    refine ⟨fun h => ht.made (removeWaiter_listed h).2,
      fun h₁ h₂ => ht.single (removeWaiter_listed h₁).2 (removeWaiter_listed h₂).2, ?_⟩
    intro w h
    obtain ⟨hmade, hgone⟩ := ht.answered h
    exact ⟨hmade, fun id' hid' => hgone id' (removeWaiter_listed hid').2⟩
  | _ => exact ht.congr ⟨rfl, rfl, rfl⟩

theorem Holds.apply {s : Shared} {id : UInt32} {w : Nat} (hw : Holds s id w) (op : Op) :
    Holds (s.apply op) id w := by
  cases op with
  | insertWaiter id' => exact hw.insertWaiter id'
  | removeWaiter id' => exact ⟨hw.made, fun h => hw.only (removeWaiter_listed h).2⟩
  | _ => exact hw.congr ⟨rfl, rfl, rfl⟩

end Shared

/-- Only an insertion lists a waiter. -/
theorem Shared.apply_listed {s : Shared} {op : Op} (hop : ∀ id, op ≠ .insertWaiter id) {id : UInt32}
    {w : Nat} (h : (s.apply op).waiters id = some w) : s.waiters id = some w := by
  cases op with
  | insertWaiter id' => exact absurd rfl (hop id')
  | removeWaiter id' => exact (removeWaiter_listed h).2
  | _ => exact h

/-! ## The reader task -/

/-- The id whose waiter the event answers, and with what. -/
def Reader.answers (r : Reader) : ReaderEvent → Option (UInt32 × Ack)
  | .received command _ arg1 _ => if command = .clse then some (arg1, .closed) else none
  | .proceed =>
    match r with
    | .resolving id remote => some (id, .okay remote)
    | _ => none
  | .failed => none

/-- The tables of waiters after the answer. -/
def Shared.answer (s : Shared) : Option (UInt32 × Ack) → Shared
  | none => s
  | some (id, ack) => s.resolve id ack

theorem Shared.SameWaiters.learnRemote (s : Shared) (id remote : UInt32) :
    SameWaiters s (s.learnRemote id remote) := by
  unfold Shared.learnRemote
  split
  · exact .refl s
  · split
    · exact ⟨rfl, rfl, rfl⟩
    · exact .refl s

theorem Reader.next_answers {s s' : Shared} {r r' : Reader} {e : ReaderEvent}
    (h : r.next s e = some (s', r')) : (s.answer (r.answers e)).SameWaiters s' := by
  cases e with
  | received command arg0 arg1 data =>
    obtain ⟨rfl, hreceive⟩ := next_received h
    cases command with
    | okay =>
      cases hreceive
      exact .learnRemote s arg1 arg0
    | _ =>
      cases hreceive
      exact .refl _
  | proceed =>
    change r.proceed s = _ at h
    cases r with
    | resolving id remote =>
      cases h
      exact .refl _
    | answering id remote data =>
      cases h
      change s.SameWaiters (s.acknowledge id remote data)
      unfold Shared.acknowledge
      split <;> exact ⟨rfl, rfl, rfl⟩
    | delivering id data =>
      cases h
      change s.SameWaiters (s.deliver id data)
      unfold Shared.deliver
      split
      · exact .refl s
      · split
        · exact ⟨rfl, rfl, rfl⟩
        · exact .refl s
    | closing id =>
      cases h
      change s.SameWaiters (s.hangUp id)
      unfold Shared.hangUp
      split
      · exact .refl s
      · exact ⟨rfl, rfl, rfl⟩
    | waiting | ended => cases h
  | failed => exact (fail_eq h).1 ▸ .refl s

/-- The reader task lists no waiter. -/
theorem Reader.next_listed {s s' : Shared} {r r' : Reader} {e : ReaderEvent}
    (h : r.next s e = some (s', r')) {id : UInt32} {w : Nat} (hw : s'.waiters id = some w) :
    s.waiters id = some w := by
  rw [(next_answers h).waiters] at hw
  cases hans : r.answers e with
  | none =>
    rw [hans] at hw
    exact hw
  | some p =>
    rw [hans] at hw
    exact (Shared.resolve_listed hw).2

/-! ## Calls -/

/-- The id and the waiter of a call that has listed one. -/
def Call.ticket : Call → Option (UInt32 × Nat)
  | .openSend id _ _ w | .openAck id _ w => some (id, w)
  | .writeSend id _ _ _ w | .writeAck id _ _ w => some (id, w)
  | .closeSend id _ _ w | .closeAck id _ w => some (id, w)
  | _ => none

/-- The id under which a call comes to list its waiter. -/
def Call.lists : Call → Option UInt32
  | .opening id _ _ | .writing id _ _ _ | .closing id _ _ => some id
  | _ => none

/-- A call holds a waiter because it has just listed it, or held it before. -/
theorem Call.next_ticket {s : Shared} {c c' : Call} {e : CallEvent} {op : Op}
    (h : c.next s e = some (op, c')) :
    (∃ id, c.lists = some id ∧ op = .insertWaiter id ∧ c.ticket = none ∧
      c'.ticket = some (id, s.asked)) ∨
    ((∀ id, op ≠ .insertWaiter id) ∧ (c'.ticket = none ∨ c'.ticket = c.ticket)) := by
  cases next_move h with
  | openLists | writeLists | closeLists => exact .inl ⟨_, rfl, rfl, rfl, rfl⟩
  | openSends | writeSends | closeSends | closeFails => exact .inr ⟨fun _ => Op.noConfusion, .inr rfl⟩
  | _ => exact .inr ⟨fun _ => Op.noConfusion, .inl rfl⟩

/-! ## Runs -/

namespace AdbClient
variable {τ : Type}

structure Tickets (s : AdbClient τ) : Prop where
  listed : s.shared.Ticketed
  held : ∀ {t id w}, (s.calls t).ticket = some (id, w) → s.shared.Holds id w

theorem tickets_start (maxPayload : UInt32) : Tickets (start maxPayload : AdbClient τ) :=
  ⟨⟨(fun h => nomatch h), (fun h => nomatch h), fun h => absurd rfl h⟩, fun h => nomatch h⟩

variable [DecidableEq τ]

theorem tickets_step {s s' : AdbClient τ} {l : Label τ} (hi : Tickets s) (h : step s l = some s') :
    Tickets s' := by
  cases step_move h with
  | @reader e shared reader hnext =>
    have hsame := Reader.next_answers hnext
    cases hans : s.reader.answers e with
    | none =>
      rw [hans] at hsame
      exact ⟨hi.listed.congr hsame, fun ht => (hi.held ht).congr hsame⟩
    | some p =>
      obtain ⟨id, ack⟩ := p
      rw [hans] at hsame
      exact ⟨(Shared.ticketed_resolve hi.listed id ack).congr hsame,
        fun ht => ((hi.held ht).resolve id ack).congr hsame⟩
  | @call t e op c hnext =>
    refine ⟨Shared.ticketed_apply hi.listed op, ?_⟩
    intro t' id w ht
    by_cases heq : t' = t
    · subst heq
      simp only [Function.update_self] at ht
      rcases Call.next_ticket hnext with ⟨id', _, rfl, _, hnew⟩ | ⟨_, hnone | hsame⟩
      · cases hnew.symm.trans ht
        exact Shared.holds_asked hi.listed id
      · cases hnone.symm.trans ht
      · exact (hi.held (hsame ▸ ht)).apply op
    · simp only [Function.update_of_ne heq] at ht
      exact (hi.held ht).apply op

theorem tickets_run (maxPayload : UInt32) {ls : List (Label τ)} {t : AdbClient τ}
    (h : run step (start maxPayload) ls = some t) : Tickets t :=
  run_preserves (fun _ _ _ hi hs => tickets_step hi hs) h (tickets_start maxPayload)

end AdbClient

end DroidMirror.Transport
