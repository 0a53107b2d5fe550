import Mathlib.Data.Fintype.Basic
import DroidMirror.Transport.Delivery
import DroidMirror.Transport.Waiters

/-! # Acknowledgements

The device acknowledges every `OPEN` and every `WRTE` with one `OKAY`, and an
`OKAY` names its stream only: it is taken for the answer to whatever waits on
the stream when it comes (`late_okay`). As long as no open or write of a stream
begins while an answer is due there or another one is at work, and the device
acknowledges what it was sent, no more than one answer is ever due: a `write`
sends each packet once the one before is acknowledged, and returns `Ok` once
all are (`acks_attributed`). -/
namespace DroidMirror.Transport
open DroidMirror.Lib.Run

/-! ## What is due -/

/-- The device is to acknowledge the packet on the stream. -/
def PacketCall.asks (p : PacketCall) (id : UInt32) : Bool :=
  (p.command = .open_ ∨ p.command = .wrte) ∧ p.arg0 = id

/-- The packets sent on a stream that the device is to acknowledge. -/
def Shared.asks (s : Shared) (id : UInt32) : Nat := s.sent.countP (·.asks id)

/-- An `OKAY` was received whose waiter is still to be looked up. -/
def Reader.resolves (r : Reader) (id : UInt32) : Bool :=
  match r with
  | .resolving id' _ => id' = id
  | _ => false

/-- The waiter is sent an `OKAY`. -/
def Shared.Okayed (s : Shared) (w : Nat) : Prop := ∃ remote, s.acks w = some (.okay remote)

/-- The id on which an open or a write is at work. -/
def Call.asksOn : Call → Option UInt32
  | .opening id _ _ | .openSend id _ _ _ | .openAck id _ _ => some id
  | .writing id _ _ _ | .writeSend id _ _ _ _ | .writeAck id _ _ _ => some id
  | _ => none

/-- How many of the packets sent on each stream are acknowledged: an `OKAY` is for the
first of them that is not. -/
def countAcked {τ : Type} (acked : UInt32 → Nat) (s : AdbClient τ) : Label τ → UInt32 → Nat
  | .reader (.received command _ id _) =>
    if command = .okay ∧ acked id < s.shared.asks id then Function.update acked id (acked id + 1) else acked
  | .reader .proceed | .reader .failed | .call _ _ => acked

namespace AdbClient
variable {τ : Type}

/-- Everything sent on the stream is acknowledged, and the reader task is done with it. -/
def PaidUp (acked : UInt32 → Nat) (s : AdbClient τ) (id : UInt32) : Prop :=
  s.shared.asks id ≤ acked id ∧ s.reader.resolves id = false

instance (acked : UInt32 → Nat) (s : AdbClient τ) (id : UInt32) : Decidable (PaidUp acked s id) :=
  inferInstanceAs (Decidable (_ ∧ _))

variable [DecidableEq τ]

/-- The client together with the packets acknowledged. -/
def stepAcked : (UInt32 → Nat) × AdbClient τ → Label τ → Option ((UInt32 → Nat) × AdbClient τ) :=
  observed (fun acked s l _ => countAcked acked s l) step

def startAcked (maxPayload : UInt32) : (UInt32 → Nat) × AdbClient τ := (fun _ => 0, start maxPayload)

/-- Acknowledged is only what was sent, at most one packet of each stream is sent and not
acknowledged, and a call that returns from `write` has everything acknowledged. -/
structure Attributed (acked : UInt32 → Nat) (s : AdbClient τ) : Prop where
  sent : ∀ id, acked id ≤ s.shared.asks id
  single : ∀ id, s.shared.asks id ≤ acked id + 1
  wrote : ∀ t e s', step s (.call t e) = some s' → s'.calls t = .returned .wrote →
    ∃ id remote w, s.calls t = .writeAck id remote [] w ∧ s'.shared.asks id ≤ acked id

/-- The condition: an open or a write begins on a stream where nothing is due and no other
one is at work, and while it is at work an `OKAY` comes for a packet it has sent. -/
def Paced (p : (UInt32 → Nat) × AdbClient τ) : Label τ → Prop
  | .call _ (.begin_ r) => ∀ id ∈ (Call.begin_ p.2.shared r).2.asksOn,
    PaidUp p.1 p.2 id ∧ ∀ t, (p.2.calls t).asksOn ≠ some id
  | .reader (.received .okay _ id _) => (∃ t, (p.2.calls t).asksOn = some id) → p.1 id < p.2.shared.asks id
  | .reader _ | .call _ .proceed | .call _ (.failed _) | .call _ .timeout => True

instance [Fintype τ] (p : (UInt32 → Nat) × AdbClient τ) : (l : Label τ) → Decidable (Paced p l)
  | .call _ (.begin_ r) => Option.decidableForallMem (Call.begin_ p.2.shared r).2.asksOn
  | .reader (.received command _ id _) =>
    match command with
    | .okay => inferInstanceAs (Decidable (_ → p.1 id < p.2.shared.asks id))
    | .sync | .cnxn | .auth | .open_ | .clse | .wrte => inferInstanceAs (Decidable True)
  | .reader .proceed | .reader .failed | .call _ .proceed | .call _ (.failed _) | .call _ .timeout =>
    inferInstanceAs (Decidable True)

end AdbClient

/-! ## Steps of the calls -/

/-- How far an open or a write is with a packet: it comes to send it, it has listed a
waiter, it has sent it. -/
inductive Stage where
  | apart
  | comes (id : UInt32)
  | sends (id : UInt32) (w : Nat)
  | awaits (id : UInt32) (w : Nat)

def Stage.on : Stage → Option UInt32
  | .apart => none
  | .comes id | .sends id _ | .awaits id _ => some id

def Call.stage : Call → Stage
  | .opening id _ _ | .writing id _ _ _ => .comes id
  | .openSend id _ _ w | .writeSend id _ _ _ w => .sends id w
  | .openAck id _ w | .writeAck id _ _ w => .awaits id w
  | _ => .apart

theorem Call.on_stage (c : Call) : c.stage.on = c.asksOn := by cases c <;> rfl

theorem Call.ticket_of_sends {c : Call} {id : UInt32} {w : Nat} (h : c.stage = .sends id w) :
    c.ticket = some (id, w) := by
  cases c <;> cases h <;> rfl

theorem Call.ticket_of_awaits {c : Call} {id : UInt32} {w : Nat} (h : c.stage = .awaits id w) :
    c.ticket = some (id, w) := by
  cases c <;> cases h <;> rfl

theorem Shared.asks_send (s : Shared) (p : PacketCall) (id : UInt32) :
    (s.send p).asks id = s.asks id + if p.asks id then 1 else 0 := by
  rw [asks, asks, send, List.countP_append, List.countP_singleton]

theorem Shared.asks_congr {s s' : Shared} (h : s'.sent = s.sent) (id : UInt32) :
    s'.asks id = s.asks id :=
  congrArg (List.countP (PacketCall.asks · id)) h

/-- What a call's step means for the answers due on the streams. -/
inductive Call.Turn (s : Shared) (c : Call) (e : CallEvent) (op : Op) (c' : Call) : Prop
  | begins (id : UInt32) (r : Request) (he : e = .begin_ r) (hc' : (begin_ s r).2 = c')
    (hstage : c'.stage = .comes id) (hop : ∀ id, (s.apply op).asks id = s.asks id)
  | comes (id : UInt32) (hstage : c.stage = .comes id) (hstage' : c'.stage = .sends id s.asked)
    (hop : ∀ id, (s.apply op).asks id = s.asks id)
  | sends (id : UInt32) (w : Nat) (hstage : c.stage = .sends id w) (hstage' : c'.stage = .awaits id w)
    (hop : ∀ id', (s.apply op).asks id' = s.asks id' + if id = id' then 1 else 0)
  | goesOn (id : UInt32) (w : Nat) (hstage : c.stage = .awaits id w) (hw : s.Okayed w)
    (hstage' : c'.stage = .comes id) (hop : ∀ id, (s.apply op).asks id = s.asks id)
  | leaves (hstage' : c'.stage = .apart) (hop : ∀ id, (s.apply op).asks id = s.asks id)

theorem Call.next_turn {s : Shared} {c c' : Call} {e : CallEvent} {op : Op}
    (h : c.next s e = some (op, c')) : Turn s c e op c' := by
  cases next_move h with
  | opens => exact .begins _ _ rfl rfl rfl fun _ => rfl
  | @writes _ id data k chunk rest _ hs hr hd =>
    refine .begins id _ rfl ?_ rfl fun _ => rfl
    simp only [begin_, hs, hr, hd, if_false]
  | openLists | writeLists => exact .comes _ rfl rfl fun _ => rfl
  | openSends | writeSends =>
    refine .sends _ _ rfl rfl fun id' => ?_
    rw [Shared.apply, Shared.asks_send]
    simp [PacketCall.asks]
  | closeSends =>
    refine .leaves rfl fun id' => ?_
    rw [Shared.apply, Shared.asks_send]
    simp [PacketCall.asks]
  | writesOn ha => exact .goesOn _ _ rfl ⟨_, ha⟩ rfl fun _ => rfl
  | _ => exact .leaves rfl fun _ => rfl

theorem writeChunks_ne_nil (maxPayload : UInt32) (data : List UInt8) :
    writeChunks maxPayload data ≠ [] := by
  unfold writeChunks
  split
  · exact List.cons_ne_nil _ _
  · rename_i hdata
    have hlen : 1 ≤ data.length := by
      cases data with
      | nil => exact absurd rfl hdata
      | cons b bs => exact Nat.succ_le_succ (Nat.zero_le _)
    have hmax : 0 < max maxPayload.toNat 1 := Nat.lt_of_lt_of_le Nat.one_pos (Nat.le_max_right ..)
    have hcount : 0 < (data.length + max maxPayload.toNat 1 - 1) / max maxPayload.toNat 1 := by
      refine Nat.div_pos ?_ hmax
      omega
    intro hnil
    have hzero := congrArg List.length hnil
    rw [List.length_map, List.length_range] at hzero
    exact absurd hcount (hzero ▸ Nat.lt_irrefl 0)

/-- A call returns from `write` when the last of its waiters is sent an `OKAY`. -/
theorem Call.next_wrote {s : Shared} {c : Call} {e : CallEvent} {op : Op}
    (h : c.next s e = some (op, .returned .wrote)) :
    ∃ id remote w, c = .writeAck id remote [] w ∧ s.Okayed w ∧ op = .nop := by
  cases next_move h with
  | writesNothing _ _ _ hd => exact absurd hd (writeChunks_ne_nil _ _)
  | wrote ha => exact ⟨_, _, _, rfl, ⟨_, ha⟩, rfl⟩

/-! ## Steps of the reader task -/

theorem Shared.sent_learnRemote (s : Shared) (id remote : UInt32) :
    (s.learnRemote id remote).sent = s.sent := by
  unfold learnRemote
  split
  · rfl
  · split <;> rfl

theorem Shared.sent_resolve (s : Shared) (id : UInt32) (ack : Ack) :
    (s.resolve id ack).sent = s.sent := by
  unfold resolve
  split <;> rfl

theorem Shared.sent_acknowledge (s : Shared) (id remote : UInt32) (data : List UInt8) :
    (s.acknowledge id remote data).sent = (s.send ⟨.okay, id, remote, []⟩).sent := by
  unfold acknowledge
  split <;> rfl

theorem Shared.sent_deliver (s : Shared) (id : UInt32) (data : List UInt8) :
    (s.deliver id data).sent = s.sent := by
  unfold deliver
  split
  · rfl
  · split <;> rfl

theorem Shared.sent_hangUp (s : Shared) (id : UInt32) : (s.hangUp id).sent = s.sent := by
  unfold hangUp
  split <;> rfl

/-- The reader task sends nothing that is acknowledged. -/
theorem Reader.next_asks {s s' : Shared} {r r' : Reader} {e : ReaderEvent}
    (h : r.next s e = some (s', r')) (id : UInt32) : s'.asks id = s.asks id := by
  cases e with
  | received command arg0 arg1 data =>
    obtain ⟨-, hreceive⟩ := next_received h
    cases command with
    | okay =>
      cases hreceive
      exact Shared.asks_congr (s.sent_learnRemote arg1 arg0) id
    | clse =>
      cases hreceive
      exact Shared.asks_congr (s.sent_resolve arg1 .closed) id
    | _ =>
      cases hreceive
      rfl
  | proceed =>
    change r.proceed s = _ at h
    cases r with
    | resolving id' remote =>
      cases h
      exact Shared.asks_congr (s.sent_resolve id' (.okay remote)) id
    | answering id' remote data =>
      cases h
      rw [Shared.asks_congr (s.sent_acknowledge id' remote data) id, Shared.asks_send]
      simp [PacketCall.asks]
    | delivering id' data =>
      cases h
      exact Shared.asks_congr (s.sent_deliver id' data) id
    | closing id' =>
      cases h
      exact Shared.asks_congr (s.sent_hangUp id') id
    | waiting | ended => cases h
  | failed => rw [(fail_eq h).1]

theorem Shared.okayed_congr {s s' : Shared} (h : s.SameWaiters s') {w : Nat} :
    s'.Okayed w ↔ s.Okayed w := by
  rw [Okayed, Okayed, h.acks]

theorem Shared.okayed_resolve {s : Shared} {id : UInt32} {ack : Ack} {w : Nat}
    (h : (s.resolve id ack).Okayed w) :
    s.Okayed w ∨ s.waiters id = some w ∧ ack ≠ .closed := by
  obtain ⟨remote, hack⟩ := h
  rw [resolve_acks] at hack
  split at hack
  · rename_i hlisted
    cases hack
    exact .inr ⟨hlisted, Ack.noConfusion⟩
  · exact .inl ⟨remote, hack⟩

/-- What a step of the reader task means for the answers due on the streams. -/
inductive Reader.Turn (s : Shared) (r : Reader) (e : ReaderEvent) (s' : Shared) (r' : Reader) : Prop
  | okay (remote id : UInt32) (data : List UInt8) (he : e = .received .okay remote id data)
    (hr : ∀ id, r.resolves id = false) (hr' : ∀ id', r'.resolves id' = decide (id = id'))
    (hw : ∀ w, s'.Okayed w → s.Okayed w)
  | answers (id : UInt32) (he : e = .proceed) (hr : ∀ id', r.resolves id' = decide (id = id'))
    (hr' : ∀ id, r'.resolves id = false) (hw : ∀ w, s'.Okayed w → s.Okayed w ∨ s.waiters id = some w)
  | quiet (he : ∀ remote id data, e ≠ .received .okay remote id data)
    (hr : ∀ id, r'.resolves id = r.resolves id) (hw : ∀ w, s'.Okayed w → s.Okayed w)

theorem Reader.next_turn {s s' : Shared} {r r' : Reader} {e : ReaderEvent}
    (h : r.next s e = some (s', r')) : Turn s r e s' r' := by
  have hsame := next_answers h
  cases e with
  | received command arg0 arg1 data =>
    obtain ⟨rfl, hreceive⟩ := next_received h
    cases command with
    | okay =>
      cases hreceive
      exact .okay arg0 arg1 data rfl (fun _ => rfl) (fun _ => rfl) fun w => (Shared.okayed_congr hsame).mp
    | clse =>
      cases hreceive
      refine .quiet (by simp) (fun _ => rfl) fun w hw => ?_
      rcases Shared.okayed_resolve hw with hold | ⟨_, hne⟩
      · exact hold
      · exact absurd rfl hne
    | _ =>
      cases hreceive
      exact .quiet (by simp) (fun _ => rfl) fun _ hw => hw
  | proceed =>
    change r.proceed s = _ at h
    cases r with
    | resolving id remote =>
      cases h
      refine .answers id rfl (fun _ => rfl) (fun _ => rfl) fun w hw => ?_
      rcases Shared.okayed_resolve hw with hold | ⟨hlisted, _⟩
      · exact .inl hold
      · exact .inr hlisted
    | waiting | ended => cases h
    | _ =>
      cases h
      exact .quiet (by simp) (fun _ => rfl) fun w => (Shared.okayed_congr hsame).mp
  | failed =>
    refine .quiet (by simp) ?_ fun w => (Shared.okayed_congr hsame).mp
    change r.fail s = _ at h
    rw [(fail_eq h).2]
    cases r with
    | waiting | answering => exact fun _ => rfl
    | _ => cases h

/-! ## Runs -/

section
variable {τ : Type} {acked : UInt32 → Nat} {s : AdbClient τ}

theorem countAcked_le (hsent : ∀ id, acked id ≤ s.shared.asks id) (l : Label τ) (id : UInt32) :
    acked id ≤ countAcked acked s l id ∧ countAcked acked s l id ≤ s.shared.asks id := by
  have hsame : acked id ≤ acked id ∧ acked id ≤ s.shared.asks id := ⟨Nat.le_refl _, hsent id⟩
  cases l with
  | call t e => exact hsame
  | reader e =>
    cases e with
    | proceed | failed => exact hsame
    | received command remote id' data =>
      rw [countAcked]
      split
      · rename_i hokay
        rw [Function.update_apply]
        split
        · rename_i hid
          rw [hid]
          exact ⟨Nat.le_succ _, hokay.2⟩
        · exact hsame
      · exact hsame

end

namespace AdbClient
variable {τ : Type}

/-- A packet is sent where nothing is due, and a waiter that is sent an `OKAY` has
seen its packet acknowledged. -/
def Fine (acked : UInt32 → Nat) (s : AdbClient τ) : Stage → Prop
  | .apart => True
  | .comes id => PaidUp acked s id
  | .sends id w => PaidUp acked s id ∧ ¬ s.shared.Okayed w
  | .awaits id w => (s.reader.resolves id = true → s.shared.asks id ≤ acked id) ∧
    (s.shared.Okayed w → PaidUp acked s id)

structure Paid (acked : UInt32 → Nat) (s : AdbClient τ) : Prop where
  tickets : s.Tickets
  sent : ∀ id, acked id ≤ s.shared.asks id
  single : ∀ id, s.shared.asks id ≤ acked id + 1
  alone : ∀ {t t' id}, (s.calls t).asksOn = some id → (s.calls t').asksOn = some id → t = t'
  fine : ∀ t, Fine acked s (s.calls t).stage

theorem paid_start (maxPayload : UInt32) : Paid (fun _ => 0) (start maxPayload : AdbClient τ) :=
  ⟨tickets_start maxPayload, fun _ => Nat.zero_le _, fun _ => Nat.zero_le _, (fun h => nomatch h),
    fun _ => trivial⟩

theorem PaidUp.congr {acked : UInt32 → Nat} {s s' : AdbClient τ} {id : UInt32} (h : PaidUp acked s id)
    (hasks : s'.shared.asks id = s.shared.asks id) (hreader : s'.reader = s.reader) : PaidUp acked s' id := by
  rw [PaidUp, hasks, hreader]
  exact h

/-- What a stage needs speaks of its own stream. -/
theorem Fine.congr {acked acked' : UInt32 → Nat} {s s' : AdbClient τ} {x : Stage} (h : Fine acked s x)
    (hasks : ∀ id, x.on = some id → s'.shared.asks id = s.shared.asks id ∧ acked' id = acked id ∧
      s'.reader.resolves id = s.reader.resolves id)
    (hw : ∀ id w, x = .sends id w ∨ x = .awaits id w → s'.shared.Okayed w → s.shared.Okayed w) :
    Fine acked' s' x := by
  cases x with
  | apart => trivial
  | comes id =>
    obtain ⟨ha, hk, hr⟩ := hasks id rfl
    rw [Fine, PaidUp, ha, hk, hr]
    exact h
  | sends id w =>
    obtain ⟨ha, hk, hr⟩ := hasks id rfl
    rw [Fine, PaidUp, ha, hk, hr]
    exact ⟨h.1, fun hnew => h.2 (hw id w (.inl rfl) hnew)⟩
  | awaits id w =>
    obtain ⟨ha, hk, hr⟩ := hasks id rfl
    rw [Fine, PaidUp, ha, hk, hr]
    exact ⟨h.1, fun hnew => h.2 (hw id w (.inr rfl) hnew)⟩

/-- An `OKAY` that comes for a packet sent: only a call that awaits one is at work there. -/
theorem fine_okay {acked acked' : UInt32 → Nat} {s s' : AdbClient τ} {x : Stage} {id : UInt32}
    (h : Fine acked s x) (hon : x.on = some id) (hdue : acked id < s.shared.asks id)
    (hpaid : s'.shared.asks id ≤ acked' id) (hw : ∀ w, s'.shared.Okayed w → s.shared.Okayed w) :
    Fine acked' s' x := by
  cases x with
  | apart => cases hon
  | comes id' =>
    cases hon
    exact absurd h.1 (Nat.not_le.mpr hdue)
  | sends id' w =>
    cases hon
    exact absurd h.1.1 (Nat.not_le.mpr hdue)
  | awaits id' w =>
    cases hon
    exact ⟨fun _ => hpaid, fun hnew => absurd (h.2 (hw w hnew)).1 (Nat.not_le.mpr hdue)⟩

/-- Once the reader task is done with an `OKAY`, the stream is paid up. -/
theorem fine_answers {acked : UInt32 → Nat} {s s' : AdbClient τ} {x : Stage} {id : UInt32}
    (h : Fine acked s x) (hon : x.on = some id) (hr : s.reader.resolves id = true)
    (hr' : s'.reader.resolves id = false) (hasks : s'.shared.asks id = s.shared.asks id) :
    Fine acked s' x := by
  have hbusy : s.reader.resolves id ≠ false := by
    rw [hr]
    exact Bool.noConfusion
  cases x with
  | apart => cases hon
  | comes id' =>
    cases hon
    exact absurd h.2 hbusy
  | sends id' w =>
    cases hon
    exact absurd h.1.2 hbusy
  | awaits id' w =>
    cases hon
    have hpaid : s'.shared.asks id ≤ acked id := hasks ▸ h.1 hr
    exact ⟨fun _ => hpaid, fun _ => ⟨hpaid, hr'⟩⟩

theorem paid_reader {acked : UInt32 → Nat} {s s' : AdbClient τ} {e : ReaderEvent} (hi : Paid acked s)
    (hok : Paced (acked, s) (.reader e)) (hcalls : s'.calls = s.calls)
    (h : s.reader.next s.shared e = some (s'.shared, s'.reader)) (ht : s'.Tickets) :
    Paid (countAcked acked s (.reader e)) s' := by
  have hasks := Reader.next_asks h
  have hcount := countAcked_le hi.sent (.reader e)
  refine ⟨ht, ?_, ?_, ?_, ?_⟩
  · exact fun id => hasks id ▸ (hcount id).2
  · exact fun id => hasks id ▸ Nat.le_trans (hi.single id) (Nat.succ_le_succ (hcount id).1)
  · rw [hcalls]
    exact hi.alone
  intro t
  have hfine := hi.fine t
  rw [hcalls]
  cases Reader.next_turn h with
  | okay remote id data he hr hr' hw =>
    subst he
    by_cases hon : (s.calls t).stage.on = some id
    · have hdue : acked id < s.shared.asks id := hok ⟨t, Call.on_stage _ ▸ hon⟩
      refine fine_okay hfine hon hdue ?_ hw
      rw [hasks, countAcked, if_pos ⟨rfl, hdue⟩, Function.update_self]
      exact hi.single id
    · refine hfine.congr ?_ fun _ w _ => hw w
      intro id' hon'
      have hne : id' ≠ id := fun heq => hon (heq ▸ hon')
      refine ⟨hasks id', ?_, ?_⟩
      · rw [countAcked]
        split
        · exact Function.update_of_ne hne _ _
        · rfl
      · rw [hr, hr', decide_eq_false (Ne.symm hne)]
  | answers id he hr hr' hw =>
    subst he
    by_cases hon : (s.calls t).stage.on = some id
    · exact fine_answers hfine hon ((hr id).trans (decide_eq_true rfl)) (hr' id) (hasks id)
    · refine hfine.congr ?_ ?_
      · intro id' hon'
        have hne : id ≠ id' := fun heq => hon (heq ▸ hon')
        exact ⟨hasks id', rfl, by rw [hr, hr', decide_eq_false hne]⟩
      · intro id' w hstage hnew
        refine (hw w hnew).resolve_right fun hlisted => hon ?_
        -- the waiter could only be listed under its own id
        rcases hstage with hstage | hstage
        · rw [hstage, (hi.tickets.held (Call.ticket_of_sends hstage)).only hlisted]
          rfl
        · rw [hstage, (hi.tickets.held (Call.ticket_of_awaits hstage)).only hlisted]
          rfl
  | quiet he hr hw =>
    refine hfine.congr ?_ fun _ w _ => hw w
    intro id _
    refine ⟨hasks id, ?_, hr id⟩
    cases e with
    | proceed | failed => rfl
    | received command remote id' data =>
      rw [countAcked, if_neg]
      rintro ⟨rfl, -⟩
      exact he remote id' data rfl

variable [DecidableEq τ]

/-- A step of one call, by what it does to that call and to the streams of the others. -/
theorem Paid.update {acked : UInt32 → Nat} {s s' : AdbClient τ} {t : τ} {op : Op} {c : Call}
    (hi : Paid acked s) (hshared : s'.shared = s.shared.apply op) (hreader : s'.reader = s.reader)
    (hcalls : s'.calls = Function.update s.calls t c) (ht : s'.Tickets)
    (hasks : ∀ id, s.shared.asks id ≤ s'.shared.asks id ∧ s'.shared.asks id ≤ acked id + 1)
    (hothers : ∀ id, c.asksOn ≠ some id → s'.shared.asks id = s.shared.asks id)
    (halone : ∀ id, c.asksOn = some id → ∀ t', t' ≠ t → (s.calls t').asksOn ≠ some id)
    (hfine : Fine acked s' c.stage) : Paid acked s' := by
  have hself : s'.calls t = c := by rw [hcalls, Function.update_self]
  have hrest {t' : τ} (htt : t' ≠ t) : s'.calls t' = s.calls t' := by
    rw [hcalls, Function.update_of_ne htt]
  have hokayed : s'.shared.acks = s.shared.acks := by
    rw [hshared]
    cases op <;> rfl
  refine ⟨ht, fun id => Nat.le_trans (hi.sent id) (hasks id).1, fun id => (hasks id).2, ?_, ?_⟩
  · intro t₁ t₂ id h₁ h₂
    by_cases ht₁ : t₁ = t
    · by_cases ht₂ : t₂ = t
      · rw [ht₁, ht₂]
      · rw [ht₁, hself] at h₁
        rw [hrest ht₂] at h₂
        exact absurd h₂ (halone id h₁ t₂ ht₂)
    · rw [hrest ht₁] at h₁
      by_cases ht₂ : t₂ = t
      · rw [ht₂, hself] at h₂
        exact absurd h₁ (halone id h₂ t₁ ht₁)
      · rw [hrest ht₂] at h₂
        exact hi.alone h₁ h₂
  · intro t'
    by_cases htt : t' = t
    · rw [htt, hself]
      exact hfine
    · rw [hrest htt]
      refine (hi.fine t').congr ?_ ?_
      · intro id hon
        refine ⟨hothers id fun hc => halone id hc t' htt ?_, rfl, by rw [hreader]⟩
        rw [← Call.on_stage, hon]
      · intro id w _ hw
        rw [Shared.Okayed, hokayed] at hw
        exact hw

/-- But for the step that sends, nothing is asked. -/
theorem Paid.quiet {acked : UInt32 → Nat} {s s' : AdbClient τ} {t : τ} {op : Op} {c : Call}
    (hi : Paid acked s) (hshared : s'.shared = s.shared.apply op) (hreader : s'.reader = s.reader)
    (hcalls : s'.calls = Function.update s.calls t c) (ht : s'.Tickets)
    (hasks : ∀ id, s'.shared.asks id = s.shared.asks id)
    (halone : ∀ id, c.asksOn = some id → ∀ t', t' ≠ t → (s.calls t').asksOn ≠ some id)
    (hfine : Fine acked s' c.stage) : Paid acked s' := by
  refine hi.update hshared hreader hcalls ht ?_ (fun id _ => hasks id) halone hfine
  exact fun id => ⟨(hasks id).ge, hasks id ▸ hi.single id⟩

theorem paid_call {acked : UInt32 → Nat} {s s' : AdbClient τ} {t : τ} {e : CallEvent} {op : Op}
    {c : Call} (hi : Paid acked s) (hok : Paced (acked, s) (.call t e))
    (h : (s.calls t).next s.shared e = some (op, c)) (hshared : s'.shared = s.shared.apply op)
    (hreader : s'.reader = s.reader) (hcalls : s'.calls = Function.update s.calls t c)
    (ht : s'.Tickets) : Paid acked s' := by
  have hfine := hi.fine t
  have hmine {id : UInt32} (hid : (s.calls t).stage.on = some id) (t' : τ) (htt : t' ≠ t) :
      (s.calls t').asksOn ≠ some id := fun ht' => htt (hi.alone ht' (Call.on_stage _ ▸ hid))
  have hokayed (w : Nat) : s'.shared.Okayed w ↔ s.shared.Okayed w := by
    rw [hshared]
    cases op <;> exact Iff.rfl
  have hasks (hop : ∀ id, (s.shared.apply op).asks id = s.shared.asks id) (id : UInt32) :
      s'.shared.asks id = s.shared.asks id := by rw [hshared, hop]
  cases Call.next_turn h with
  | begins id r he hc' hstage hop =>
    subst he
    have hon : c.asksOn = some id := by
      rw [← Call.on_stage, hstage]
      rfl
    obtain ⟨hpaid, hnobody⟩ := hok id (hc'.symm ▸ hon)
    refine hi.quiet hshared hreader hcalls ht (hasks hop) ?_ ?_
    · intro id' hon' t' _
      cases hon.symm.trans hon'
      exact hnobody t'
    · rw [hstage]
      exact hpaid.congr (hasks hop id) hreader
  | comes id hstage hstage' hop =>
    rw [hstage] at hfine
    refine hi.quiet hshared hreader hcalls ht (hasks hop) ?_ ?_
    · intro id' hon'
      rw [← Call.on_stage, hstage'] at hon'
      exact hmine (hstage ▸ hon')
    · rw [hstage']
      refine ⟨PaidUp.congr hfine (hasks hop id) hreader, fun hw => ?_⟩
      obtain ⟨remote, hack⟩ := (hokayed _).mp hw
      exact absurd (hi.tickets.listed.answered (hack ▸ Option.some_ne_none _)).1 (Nat.lt_irrefl _)
  | goesOn id w hstage hw hstage' hop =>
    rw [hstage] at hfine
    refine hi.quiet hshared hreader hcalls ht (hasks hop) ?_ ?_
    · intro id' hon'
      rw [← Call.on_stage, hstage'] at hon'
      exact hmine (hstage ▸ hon')
    · rw [hstage']
      exact (hfine.2 hw).congr (hasks hop id) hreader
  | leaves hstage' hop =>
    refine hi.quiet hshared hreader hcalls ht (hasks hop) ?_ ?_
    · intro id' hon'
      rw [← Call.on_stage, hstage'] at hon'
      cases hon'
    · rw [hstage']
      trivial
  | sends id w hstage hstage' hop =>
    rw [hstage] at hfine
    have hsent (id' : UInt32) : s'.shared.asks id' = s.shared.asks id' + if id = id' then 1 else 0 := by
      rw [hshared, hop]
    have hon : c.asksOn = some id := by
      rw [← Call.on_stage, hstage']
      rfl
    refine hi.update hshared hreader hcalls ht ?_ ?_ ?_ ?_
    · intro id'
      refine ⟨hsent id' ▸ Nat.le_add_right _ _, ?_⟩
      rw [hsent]
      split
      · rename_i heq
        exact Nat.succ_le_succ (heq ▸ hfine.1.1)
      · exact hi.single id'
    · intro id' hne
      rw [hsent, if_neg]
      · rfl
      · exact fun heq => hne (heq ▸ hon)
    · intro id' hon'
      cases hon.symm.trans hon'
      exact hmine (hstage ▸ rfl)
    · rw [hstage']
      refine ⟨?_, fun hw => absurd ((hokayed w).mp hw) hfine.2⟩
      rw [hreader, hfine.1.2]
      exact fun hr => Bool.noConfusion hr

theorem paid_step {acked : UInt32 → Nat} {s s' : AdbClient τ} {l : Label τ} (hi : Paid acked s)
    (hok : Paced (acked, s) l) (h : step s l = some s') : Paid (countAcked acked s l) s' := by
  have ht := tickets_step hi.tickets h
  cases step_move h with
  | reader hnext => exact paid_reader hi hok rfl hnext ht
  | call hnext => exact paid_call hi hok hnext rfl rfl rfl ht

theorem Paid.attributed {acked : UInt32 → Nat} {s : AdbClient τ} (hi : Paid acked s) :
    Attributed acked s := by
  refine ⟨hi.sent, hi.single, ?_⟩
  intro t e s' hs hwrote
  cases step_move hs with
  | @call _ _ op c hnext =>
    simp only [Function.update_self] at hwrote
    rw [hwrote] at hnext
    obtain ⟨id, remote, w, hc, hw, hop⟩ := Call.next_wrote hnext
    refine ⟨id, remote, w, hc, ?_⟩
    have hfine := hi.fine t
    rw [hc] at hfine
    rw [hop]
    exact (hfine.2 hw).1

/-- **Acknowledgements.** In every state of a run that meets the condition at
most one packet of each stream is sent and not acknowledged, and a `write`
returns `Ok` with everything sent on its stream acknowledged. -/
theorem acks_attributed (maxPayload : UInt32) {ls : List (Label τ)} {t : AdbClient τ}
    (h : run step (start maxPayload) ls = some t) (hok : Meets stepAcked Paced (startAcked maxPayload) ls) :
    ∃ acked, run stepAcked (startAcked maxPayload) ls = some (acked, t) ∧ Attributed acked t := by
  obtain ⟨acked, hrun⟩ : ∃ acked, run stepAcked (startAcked maxPayload) ls = some (acked, t) :=
    run_observed (fun _ => 0) h
  refine ⟨acked, hrun, Paid.attributed ?_⟩
  refine @run_invariant _ _ _ (fun p => Paid p.1 p.2) _ ?_ _ _ _ hrun hok (paid_start maxPayload)
  intro p l p' hi hl hs
  obtain ⟨hstep, hsee⟩ := observed_eq_some.mp hs
  rw [hsee]
  exact paid_step hi hl hstep

/-- A `write` of one byte, up to its `WRTE`. -/
def writeOne : List (Label Unit) :=
  [.call () (.begin_ (.write 1 [7])), .call () .proceed, .call () .proceed]

/-- An `OKAY` for the stream. -/
def okayOne : List (Label Unit) := [.reader (.received .okay 9 1 []), .reader .proceed]

/-- A `write` of a byte more than a payload holds, which is cut in two. -/
def writeTwo : List (Label Unit) :=
  [.call () (.begin_ (.write 1 (List.replicate 4097 7))), .call () .proceed, .call () .proceed] ++ okayOne ++
    [.call () .proceed, .call () .proceed, .call () .proceed] ++ okayOne

theorem acks_attributed_two : ∃ t acked,
    run stepAcked (startAcked 4096) (openOne ++ writeTwo ++ [.call () .proceed] ++ writeOne) = some (acked, t) ∧
      Attributed acked t := by
  have hsome : (run step (start 4096)
      (openOne ++ writeTwo ++ [.call () .proceed] ++ writeOne)).isSome = true := by decide +kernel
  obtain ⟨t, ht⟩ := Option.isSome_iff_exists.mp hsome
  obtain ⟨acked, hrun, hpaid⟩ := acks_attributed 4096 ht (by decide +kernel)
  exact ⟨t, acked, hrun, hpaid⟩

/-- A `write` times out, the next sends a second packet, and the `OKAY` for the
first comes late: the second `write` returns `Ok`. -/
theorem late_okay :
    (¬ ∀ (maxPayload : UInt32) (ls : List (Label Unit)) (acked : UInt32 → Nat) (t : AdbClient Unit),
      run stepAcked (startAcked maxPayload) ls = some (acked, t) →
        ∀ id, t.shared.asks id ≤ acked id + 1) ∧
    ¬ ∀ (maxPayload : UInt32) (ls : List (Label Unit)) (acked : UInt32 → Nat) (t t' : AdbClient Unit),
      run stepAcked (startAcked maxPayload) ls = some (acked, t) →
        step t (.call () .proceed) = some t' → t'.calls () = .returned .wrote →
          ∃ id remote w, t.calls () = .writeAck id remote [] w ∧ t'.shared.asks id ≤ acked id := by
  constructor
  · intro h
    have hrun : (run stepAcked (startAcked 4096)
        (openOne ++ writeOne ++ [.call () .timeout] ++ writeOne)).map
          (fun p => (p.2.shared.asks 1, p.1 1)) = some (3, 1) := by decide +kernel
    obtain ⟨⟨acked, t⟩, ht, hview⟩ := Option.map_eq_some_iff.mp hrun
    simp only [Prod.mk.injEq] at hview
    have hle := h 4096 _ acked t ht 1
    rw [hview.1, hview.2] at hle
    exact absurd hle (by decide)
  · intro h
    have hrun : (run stepAcked (startAcked 4096)
        (openOne ++ writeOne ++ [.call () .timeout] ++ writeOne ++ okayOne)).bind
          (fun p => (step p.2 (.call () .proceed)).map
            fun t' => (p.2.calls (), t'.calls (), t'.shared.asks 1, p.1 1)) =
        some (.writeAck 1 9 [] 2, .returned .wrote, 3, 2) := by
      decide +kernel
    obtain ⟨⟨acked, t⟩, ht, hlast⟩ := Option.bind_eq_some_iff.mp hrun
    obtain ⟨t', hstep, hview⟩ := Option.map_eq_some_iff.mp hlast
    simp only [Prod.mk.injEq] at hview
    obtain ⟨hcall, hwrote, hasks, hacked⟩ := hview
    obtain ⟨id, remote, w, hwriting, hle⟩ := h 4096 _ acked t t' ht hstep hwrote
    cases hcall.symm.trans hwriting
    rw [hasks, hacked] at hle
    exact absurd hle (by decide)

end AdbClient

end DroidMirror.Transport
