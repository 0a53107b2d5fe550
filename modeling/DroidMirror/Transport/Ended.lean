import DroidMirror.Lib.Latch
import DroidMirror.Transport.Delivery
import DroidMirror.Transport.Waiters

/-! # A dead connection

`reader_loop` returns with its error and leaves the tables as they are: streams
keep their senders and calls their waiters (`ended_unreported`). What the tables
hold is what the calls and the packets so far left there (`Remembered`). So the
end of the connection is reported, in every state a run passes, exactly if every
stream opened was closed and every call answered when the reader task ended, and
nothing is opened or asked afterwards (`reported_iff`). -/
namespace DroidMirror.Transport
open DroidMirror.Lib.Run DroidMirror.Lib.Latch

/-- No stream in the table has its sender and no waiter is left. -/
structure Shared.Clear (s : Shared) : Prop where
  senders : ∀ {id h}, s.streams id = some h → (s.slots h).tx = false
  waiters : ∀ id, s.waiters id = none

/-- The call awaits an acknowledgement. -/
def Call.awaitsAck : Call → Bool
  | .openAck _ _ _ | .writeAck _ _ _ _ | .closeAck _ _ _ => true
  | _ => false

/-- What a read begun now does: it returns the next payload queued, or that the
stream is closed. -/
def ReadsOut (s : Shared) (id : UInt32) : Prop :=
  Call.begin_ s (.read id) = (.nop, .returned (.failed .closed)) ∨
    ∃ h, Call.begin_ s (.read id) = (.nop, .reading h) ∧
      (Call.reading h).proceed s = some
        (match (s.slots h).rx with
        | chunk :: _ => (.recv h, .returned (.chunk chunk))
        | [] => (.nop, .returned (.failed .closed)))

namespace AdbClient
variable {τ : Type}

/-- What a client whose reader task has ended makes of it. -/
structure Buried (s : AdbClient τ) : Prop where
  clear : s.shared.Clear
  reads : ∀ id, ReadsOut s.shared id
  woken : ∀ t, (s.calls t).awaitsAck = true → (s.calls t).proceed s.shared ≠ none

/-- The end of the connection is reported. -/
def Reported (s : AdbClient τ) : Prop := s.reader = .ended → s.Buried

end AdbClient

theorem Shared.Clear.readsOut {s : Shared} (h : s.Clear) (id : UInt32) : ReadsOut s id := by
  cases hid : s.streams id with
  | none => exact .inl (by simp only [Call.begin_, hid])
  | some k =>
    refine .inr ⟨k, by simp only [Call.begin_, hid], ?_⟩
    cases hrx : (s.slots k).rx with
    | cons chunk rest => simp only [Call.proceed, hrx]
    | nil => simp only [Call.proceed, hrx, h.senders hid, Bool.false_eq_true, if_false]

theorem Shared.Clear.awaits {s : Shared} (h : s.Clear) (id : UInt32) (w : Nat) :
    s.awaits id w = false := by
  simp [Shared.awaits, h.waiters id]

theorem Shared.Clear.woken {s : Shared} (h : s.Clear) {c : Call} (hc : c.awaitsAck = true) :
    c.proceed s ≠ none := by
  cases c with
  | openAck id k w =>
    simp only [Call.proceed, h.awaits]
    cases s.acks w with
    | none => exact Option.some_ne_none _
    | some ack => cases ack <;> exact Option.some_ne_none _
  | writeAck id remote rest w =>
    simp only [Call.proceed, h.awaits]
    cases s.acks w with
    | none => exact Option.some_ne_none _
    | some ack =>
      cases ack with
      | okay remote' => cases rest <;> exact Option.some_ne_none _
      | closed => exact Option.some_ne_none _
  | closeAck id k w =>
    simp only [Call.proceed, h.awaits]
    exact Option.some_ne_none _
  | _ => cases hc

theorem Shared.clear_iff {s : Shared} :
    s.Clear ↔ (∀ id, (s.openSlot id).isSome = false) ∧ ∀ id, (s.waiters id).isSome = false := by
  simp only [Option.isSome_eq_false_iff, Option.isNone_iff_eq_none]
  constructor
  · intro h
    refine ⟨?_, h.waiters⟩
    intro id
    cases hid : s.openSlot id with
    | none => rfl
    | some k =>
      obtain ⟨hlisted, htx⟩ := openSlot_eq_some.mp hid
      exact absurd (htx.symm.trans (h.senders hlisted)) Bool.noConfusion
  · rintro ⟨hopen, hwaiters⟩
    refine ⟨?_, hwaiters⟩
    intro id k hid
    rw [← Bool.not_eq_true]
    intro htx
    exact absurd (openSlot_eq_some.mpr ⟨hid, htx⟩) (hopen id ▸ (Option.some_ne_none k).symm)

/-! ## What happens to a stream -/

inductive Happening where
  /-- An `open_stream` begins and takes the id. -/
  | opened
  /-- A `close_stream` begins, or the `open_stream` fails. -/
  | closed
  /-- The reader task is done with a `CLSE`. -/
  | hungUp
  /-- A call comes to send its packet and wait for the answer. -/
  | asked
  /-- The reader task has an answer for the call that asked last. -/
  | answered
  /-- The time of an `open_stream` is up. -/
  | expired
  deriving DecidableEq

/-- What happened under which id, in order. -/
abbrev History := List (UInt32 × Happening)

def Happening.opens : Happening → Option Bool
  | .opened => some true
  | .closed | .hungUp => some false
  | .asked | .answered | .expired => none

def Happening.asks : Happening → Option Bool
  | .asked => some true
  | .answered | .expired => some false
  | .opened | .closed | .hungUp => none

/-- Every stream opened was closed later, by its caller or by the device. -/
def AllClosed : History → Prop :=
  Answered (fun x => x.2.opens = some true) fun x y => y.1 = x.1 ∧ y.2.opens = some false

/-- Every call that asked was answered later, or was an `open_stream` whose time is up. -/
def AllAnswered : History → Prop :=
  Answered (fun x => x.2.asks = some true) fun x y => y.1 = x.1 ∧ y.2.asks = some false

instance (past : History) : Decidable (AllClosed past) := inferInstanceAs (Decidable (Answered _ _ past))

instance (past : History) : Decidable (AllAnswered past) := inferInstanceAs (Decidable (Answered _ _ past))

def Call.happening (s : Shared) (c : Call) : CallEvent → Option (UInt32 × Happening)
  | .begin_ (.openStream _) => some (s.nextLocal, .opened)
  | .begin_ (.closeStream id) => some (id, .closed)
  | .begin_ (.read _) | .begin_ (.write _ _) => none
  | .proceed =>
    match c with
    | .opening id _ _ | .writing id _ _ _ | .closing id _ _ => some (id, .asked)
    | .openAck id _ w => if s.acks w = some .closed then some (id, .closed) else none
    | .openForget id => some (id, .closed)
    | _ => none
  | .timeout =>
    match c with
    | .openAck id _ _ => some (id, .expired)
    | _ => none
  | .failed _ => none

def Reader.happening (r : Reader) : ReaderEvent → Option (UInt32 × Happening)
  | .received command _ arg1 _ => if command = .clse then some (arg1, .answered) else none
  | .proceed =>
    match r with
    | .resolving id _ => some (id, .answered)
    | .closing id => some (id, .hungUp)
    | _ => none
  | .failed => none

namespace AdbClient
variable {τ : Type} [DecidableEq τ]

def happening (s : AdbClient τ) : Label τ → Option (UInt32 × Happening)
  | .reader e => s.reader.happening e
  | .call t e => (s.calls t).happening s.shared e

/-- The client together with its history. -/
def stepHistory : History × AdbClient τ → Label τ → Option (History × AdbClient τ) :=
  observed (fun past s l _ => past ++ (s.happening l).toList) step

def startHistory (maxPayload : UInt32) : History × AdbClient τ := ([], start maxPayload)

/-- The condition: when the reader task ends, every stream opened was closed and every
call that asked was answered; once it has ended, no stream is opened and no call asks. -/
def Unattended (p : History × AdbClient τ) : Label τ → Prop
  | .reader e => e = .failed → AllClosed p.1 ∧ AllAnswered p.1
  | .call t e => p.2.reader = .ended →
    ∀ x ∈ (p.2.calls t).happening p.2.shared e, x.2 ≠ .opened ∧ x.2 ≠ .asked

instance (p : History × AdbClient τ) : (l : Label τ) → Decidable (Unattended p l)
  | .reader e => inferInstanceAs (Decidable (e = .failed → AllClosed p.1 ∧ AllAnswered p.1))
  | .call t e => inferInstanceAs (Decidable (p.2.reader = .ended →
    ∀ x ∈ (p.2.calls t).happening p.2.shared e, x.2 ≠ .opened ∧ x.2 ≠ .asked))

end AdbClient

/-! ## What the tables hold of it -/

/-- How an operation on the tables shows in the history. -/
inductive Op.Shows (s : Shared) : Op → Option (UInt32 × Happening) → Prop
  | opened : Shows s .insertStream (some (s.nextLocal, .opened))
  | closed (id : UInt32) : Shows s (.removeStream id) (some (id, .closed))
  | gone {id : UInt32} (h : s.streams id = none) : Shows s .nop (some (id, .closed))
  | asked (id : UInt32) : Shows s (.insertWaiter id) (some (id, .asked))
  | expired (id : UInt32) : Shows s (.removeWaiter id) (some (id, .expired))
  | nop : Shows s .nop none
  | send (p : PacketCall) : Shows s (.send p) none
  | storeRemote (h : Nat) (remote : UInt32) : Shows s (.storeRemote h remote) none
  | recv (h : Nat) : Shows s (.recv h) none
  | dropTx (h : Nat) : Shows s (.dropTx h) none

theorem Call.next_shows {s : Shared} {c c' : Call} {e : CallEvent} {op : Op}
    (h : c.next s e = some (op, c')) : op.Shows s (c.happening s e) := by
  cases next_move h with
  | opens => exact .opened
  | closeGone _ hs => exact .gone hs
  | closes => exact .closed _
  | openLists | writeLists | closeLists => exact .asked _
  | openRefused ha =>
    simp only [happening, ha, if_pos]
    exact .closed _
  | opened ha =>
    simp only [happening, ha, Option.some.injEq, reduceCtorEq, if_false]
    exact .storeRemote ..
  | openDropped ha =>
    simp only [happening, ha, reduceCtorEq, if_false]
    exact .nop
  | openForgets => exact .closed _
  | openTimesOut => exact .expired _
  | openSends | writeSends | closeSends => exact .send _
  | received => exact .recv _
  | closed => exact .dropTx _
  | _ => exact .nop

namespace Shared

theorem openSlot_insertStream_self (s : Shared) : (s.insertStream.openSlot s.nextLocal).isSome = true := by
  have hlisted : s.insertStream.openSlot s.nextLocal = some s.opened := by
    rw [openSlot_eq_some, insertStream_streams, if_pos rfl, insertStream_slots, if_pos rfl]
    exact ⟨rfl, rfl⟩
  rw [hlisted, Option.isSome_some]

theorem openSlot_hangUp {s : Shared} (hs : s.Linked) (id id' : UInt32) :
    (s.hangUp id).openSlot id' = if id' = id then none else s.openSlot id' := by
  cases hid : s.streams id with
  | none =>
    have hsame : s.hangUp id = s := by rw [hangUp, hid]
    rw [hsame]
    by_cases heq : id' = id
    · rw [if_pos heq, heq, openSlot, hid, Option.filter_none]
    · rw [if_neg heq]
  | some h =>
    have hsame : s.hangUp id = s.dropTx h := by rw [hangUp, hid]
    rw [hsame]
    by_cases heq : id' = id
    · rw [if_pos heq, heq, ← Option.not_isSome_iff_eq_none, Option.isSome_iff_exists]
      rintro ⟨k, hk⟩
      obtain ⟨hlisted, htx⟩ := openSlot_eq_some.mp hk
      cases hid.symm.trans hlisted
      rw [dropTx, modifySlot_slots, if_pos rfl] at htx
      cases htx
    · rw [if_neg heq]
      refine openSlot_congr rfl ?_
      intro k hk
      rw [dropTx, modifySlot_slots, if_neg]
      rintro rfl
      exact heq (hs.single hk hid)

theorem openSlot_learnRemote (s : Shared) (id remote id' : UInt32) :
    (s.learnRemote id remote).openSlot id' = s.openSlot id' := by
  unfold learnRemote
  split
  · rfl
  · split
    · rw [storeRemote, openSlot_modifySlot]
      exact fun _ => rfl
    · rfl

theorem openSlot_resolve (s : Shared) (id : UInt32) (ack : Ack) (id' : UInt32) :
    (s.resolve id ack).openSlot id' = s.openSlot id' := by
  unfold resolve
  split <;> rfl

theorem openSlot_acknowledge (s : Shared) (id remote : UInt32) (data : List UInt8) (id' : UInt32) :
    (s.acknowledge id remote data).openSlot id' = s.openSlot id' := by
  unfold acknowledge
  split
  · rfl
  · rw [openSlot_modifySlot]
    · rfl
    · exact fun _ => rfl

theorem openSlot_deliver (s : Shared) (id : UInt32) (data : List UInt8) (id' : UInt32) :
    (s.deliver id data).openSlot id' = s.openSlot id' := by
  unfold deliver
  split
  · rfl
  · split
    · rw [openSlot_modifySlot]
      exact fun _ => rfl
    · rfl

end Shared

/-- An operation opens and closes the streams that the history says it does. -/
theorem Op.Shows.openSlot {s : Shared} {op : Op} {o : Option (UInt32 × Happening)} (h : op.Shows s o)
    (hs : s.Linked) (hdrop : ∀ k, op = .dropTx k → s.Unlisted k) (id : UInt32) :
    ((s.apply op).openSlot id).isSome =
      (o.bind (keyed Happening.opens id)).getD (s.openSlot id).isSome := by
  cases h with
  | opened =>
    by_cases hid : s.nextLocal = id
    · subst hid
      simp [keyed, Happening.opens, Shared.apply, Shared.openSlot_insertStream_self]
    · simp [keyed, hid, Shared.apply, Shared.openSlot_insertStream hs (Ne.symm hid)]
  | closed id' =>
    by_cases hid : id' = id
    · subst hid
      simp [keyed, Happening.opens, Shared.apply, Shared.openSlot_removeStream_self]
    · simp [keyed, hid, Shared.apply, Shared.openSlot_removeStream (Ne.symm hid)]
  | @gone id' hnone =>
    by_cases hid : id' = id
    · subst hid
      simp [keyed, Happening.opens, Shared.apply, Shared.openSlot, hnone]
    · simp [keyed, hid, Shared.apply]
  | dropTx k =>
    rw [Shared.apply, Shared.openSlot_dropTx (hdrop k rfl)]
    rfl
  | storeRemote k remote =>
    rw [Shared.apply, Shared.storeRemote, Shared.openSlot_modifySlot]
    · rfl
    · exact fun _ => rfl
  | recv k =>
    rw [Shared.apply, Shared.recv, Shared.openSlot_modifySlot]
    · rfl
    · exact fun _ => rfl
  | asked id' | expired id' =>
    by_cases hid : id' = id
    · simp [keyed, hid, Happening.opens]
      rfl
    · simp [keyed, hid]
      rfl
  | nop | send => rfl

/-- And it lists and takes the waiters that the history says it does. -/
theorem Op.Shows.waiters {s : Shared} {op : Op} {o : Option (UInt32 × Happening)} (h : op.Shows s o)
    (id : UInt32) : ((s.apply op).waiters id).isSome =
      (o.bind (keyed Happening.asks id)).getD (s.waiters id).isSome := by
  cases h with
  | asked id' =>
    rw [Shared.apply, Shared.insertWaiter_waiters]
    by_cases hid : id' = id
    · simp [keyed, hid, Happening.asks]
    · simp [keyed, hid, Ne.symm hid]
  | expired id' =>
    rw [Shared.apply, Shared.removeWaiter_waiters]
    by_cases hid : id' = id
    · simp [keyed, hid, Happening.asks]
    · simp [keyed, hid, Ne.symm hid]
  | opened | closed | gone =>
    simp only [Option.bind_some, keyed]
    split <;> rfl
  | _ => rfl

/-- Nothing is opened or asked where the history says nothing of the kind. -/
theorem Op.Shows.clear {s : Shared} {op : Op} {o : Option (UInt32 × Happening)} (h : op.Shows s o)
    (hs : s.Linked) (hdrop : ∀ k, op = .dropTx k → s.Unlisted k) (hc : s.Clear) :
    (s.apply op).Clear ↔ ∀ x ∈ o, x.2 ≠ .opened ∧ x.2 ≠ .asked := by
  obtain ⟨hopen, hwaiters⟩ := Shared.clear_iff.mp hc
  simp only [Shared.clear_iff, h.openSlot hs hdrop, h.waiters, hopen, hwaiters]
  cases o with
  | none => simp
  | some x =>
    simp only [Option.bind_some, keyed_getD_iff, Option.mem_def, Option.some.injEq, forall_eq']
    cases x.2 <;> simp [Happening.opens, Happening.asks]

namespace Reader
variable {s s' : Shared} {r r' : Reader} {e : ReaderEvent}

theorem next_openSlot (h : r.next s e = some (s', r')) (hs : s.Linked) (id : UInt32) :
    (s'.openSlot id).isSome =
      ((r.happening e).bind (keyed Happening.opens id)).getD (s.openSlot id).isSome := by
  -- an answer neither opens a stream nor closes one
  have hanswered (id' : UInt32) : keyed Happening.opens id (id', .answered) = none := ite_self none
  cases e with
  | received command arg0 arg1 data =>
    obtain ⟨-, hreceive⟩ := next_received h
    cases command with
    | okay =>
      cases hreceive
      exact congrArg Option.isSome (s.openSlot_learnRemote arg1 arg0 id)
    | clse =>
      cases hreceive
      simp only [happening, if_pos, Option.bind_some, hanswered, Option.getD_none]
      exact congrArg Option.isSome (s.openSlot_resolve arg1 .closed id)
    | _ =>
      cases hreceive
      rfl
  | proceed =>
    change r.proceed s = _ at h
    cases r with
    | resolving id' remote =>
      cases h
      simp only [happening, Option.bind_some, hanswered, Option.getD_none]
      exact congrArg Option.isSome (s.openSlot_resolve id' (.okay remote) id)
    | answering id' remote data =>
      cases h
      exact congrArg Option.isSome (s.openSlot_acknowledge id' remote data id)
    | delivering id' data =>
      cases h
      exact congrArg Option.isSome (s.openSlot_deliver id' data id)
    | closing id' =>
      cases h
      rw [Shared.openSlot_hangUp hs]
      by_cases hid : id' = id
      · simp [happening, keyed, hid, Happening.opens]
      · simp [happening, keyed, hid, Ne.symm hid]
    | waiting | ended => cases h
  | failed =>
    rw [(fail_eq h).1]
    rfl

theorem next_waiters (h : r.next s e = some (s', r')) (id : UInt32) : (s'.waiters id).isSome =
    ((r.happening e).bind (keyed Happening.asks id)).getD (s.waiters id).isSome := by
  have hanswers : (s.answer (r.answers e)).waiters id = s'.waiters id :=
    congrFun (next_answers h).waiters.symm id
  have hresolve (id' : UInt32) (ack : Ack) : ((s.resolve id' ack).waiters id).isSome =
      (keyed Happening.asks id (id', .answered)).getD (s.waiters id).isSome := by
    rw [Shared.resolve_waiters, keyed]
    by_cases hid : id' = id
    · simp [hid, Happening.asks]
    · simp [hid, Ne.symm hid]
  rw [← hanswers]
  cases e with
  | received command arg0 arg1 data =>
    rw [answers, happening]
    split
    · exact hresolve arg1 .closed
    · rfl
  | proceed =>
    cases r with
    | resolving id' remote => exact hresolve id' (.okay remote)
    | closing id' =>
      simp only [happening, Option.bind_some, keyed, Happening.asks, ite_self]
      rfl
    | _ => rfl
  | failed => rfl

theorem next_ended (h : r.next s e = some (s', r')) :
    r ≠ .ended ∧ (r' = .ended ↔ e = .failed) ∧ (e = .failed → s' = s) := by
  cases e with
  | received command arg0 arg1 data =>
    obtain ⟨rfl, hreceive⟩ := next_received h
    refine ⟨Reader.noConfusion, iff_of_false ?_ ReaderEvent.noConfusion, ReaderEvent.noConfusion⟩
    cases command <;> cases hreceive <;> exact Reader.noConfusion
  | proceed =>
    change r.proceed s = _ at h
    refine ⟨?_, iff_of_false ?_ ReaderEvent.noConfusion, ReaderEvent.noConfusion⟩
    · rintro rfl
      cases h
    · rintro rfl
      cases r <;> cases h
  | failed =>
    change r.fail s = _ at h
    obtain ⟨hs, hr⟩ := fail_eq h
    refine ⟨?_, iff_of_true hr rfl, fun _ => hs⟩
    rintro rfl
    cases h

end Reader

/-! ## Runs -/

namespace AdbClient
variable {τ : Type}

/-- The tables hold what the history left open. -/
structure Remembered (past : History) (s : AdbClient τ) : Prop where
  tabled : s.Tabled
  streams : ∀ id, (s.shared.openSlot id).isSome = latch (keyed Happening.opens id) false past
  waiters : ∀ id, (s.shared.waiters id).isSome = latch (keyed Happening.asks id) false past

theorem remembered_start (maxPayload : UInt32) : Remembered [] (start maxPayload : AdbClient τ) :=
  ⟨tabled_start maxPayload, fun _ => rfl, fun _ => rfl⟩

theorem Remembered.clear_iff {past : History} {s : AdbClient τ} (h : Remembered past s) :
    s.shared.Clear ↔ AllClosed past ∧ AllAnswered past := by
  simp only [Shared.clear_iff, h.streams, h.waiters, AllClosed, AllAnswered, answered_keyed_iff]

theorem buried_iff {s : AdbClient τ} : s.Buried ↔ s.shared.Clear :=
  ⟨Buried.clear, fun h => ⟨h, h.readsOut, fun _ hc => h.woken hc⟩⟩

variable [DecidableEq τ]

theorem remembered_step {past : History} {s s' : AdbClient τ} {l : Label τ} (hi : Remembered past s)
    (h : step s l = some s') : Remembered (past ++ (s.happening l).toList) s' := by
  refine ⟨tabled_step hi.tabled h, ?_, ?_⟩
  · intro id
    rw [latch_toList, ← hi.streams]
    cases step_move h with
    | reader hnext => exact Reader.next_openSlot hnext hi.tabled.linked id
    | @call t e op c hnext =>
      refine (Call.next_shows hnext).openSlot hi.tabled.linked ?_ id
      rintro k rfl
      exact hi.tabled.closing t k (Call.next_dropTx hnext)
  · intro id
    rw [latch_toList, ← hi.waiters]
    cases step_move h with
    | reader hnext => exact Reader.next_waiters hnext id
    | call hnext => exact (Call.next_shows hnext).waiters id

theorem reported_step {past : History} {s s' : AdbClient τ} {l : Label τ} (hi : Remembered past s)
    (hr : Reported s) (h : step s l = some s') : Reported s' ↔ Unattended (past, s) l := by
  cases step_move h with
  | @reader e shared reader hnext =>
    obtain ⟨-, hended, hshared⟩ := Reader.next_ended hnext
    unfold Reported Unattended
    rw [buried_iff]
    refine imp_congr_ctx hended fun he => ?_
    change shared.Clear ↔ _
    rw [hshared he]
    exact hi.clear_iff
  | @call t e op c hnext =>
    unfold Reported Unattended
    refine forall_congr' fun he => ?_
    rw [buried_iff]
    refine (Call.next_shows hnext).clear hi.tabled.linked ?_ (hr he).clear
    rintro k rfl
    exact hi.tabled.closing t k (Call.next_dropTx hnext)

/-- In every state a run passes the end of the connection is reported, exactly
if the run meets the condition. -/
theorem reported_iff (maxPayload : UInt32) {ls : List (Label τ)} {t : AdbClient τ}
    (h : run step (start maxPayload) ls = some t) :
    (∀ before u, before <+: ls → run step (start maxPayload) before = some u → Reported u) ↔
      Meets stepHistory Unattended (startHistory maxPayload) ls := by
  have hstep (p : History × AdbClient τ) (l : Label τ) (p' : History × AdbClient τ)
      (hi : Remembered p.1 p.2) (hs : stepHistory p l = some p') : Remembered p'.1 p'.2 := by
    obtain ⟨hnext, hpast⟩ := observed_eq_some.mp hs
    rw [hpast]
    exact remembered_step hi hnext
  have hstart : Remembered [] (start maxPayload : AdbClient τ) := remembered_start maxPayload
  obtain ⟨past, hrun⟩ : ∃ past, run stepHistory (startHistory maxPayload) ls = some (past, t) :=
    run_observed [] h
  have hreported : Reported (start maxPayload : AdbClient τ) := fun he => Reader.noConfusion he
  rw [← run_always_iff (P := fun p => Remembered p.1 p.2 ∧ Reported p.2) ?_ ⟨hstart, hreported⟩ hrun]
  · constructor
    · intro hall before p hbefore hp
      exact ⟨run_preserves hstep hp hstart, hall before p.2 hbefore (run_of_observed hp)⟩
    · intro hall before u hbefore hu
      obtain ⟨past', hu'⟩ : ∃ past', run stepHistory (startHistory maxPayload) before = some (past', u) :=
        run_observed [] hu
      exact (hall before (past', u) hbefore hu').2
  · intro p l p' hp hs
    obtain ⟨hi, hr⟩ := hp
    rw [and_iff_right (hstep p l p' hi hs)]
    exact reported_step hi hr (observed_eq_some.mp hs).1

/-- A `CLSE` for the stream. -/
def clseOne : List (Label Unit) := [.reader (.received .clse 9 1 []), .reader .proceed]

def readOne : List (Label Unit) := [.call () (.begin_ (.read 1)), .call () .proceed]

/-- The device closes a stream with a payload in its queue and is unplugged; then the stream is read. -/
def unplugged : List (Label Unit) :=
  openOne ++ wrteOne [5] ++ clseOne ++ [.reader .failed] ++ readOne ++ readOne

theorem reported_read : ∃ t, run step (start 4096) unplugged = some t ∧
    ∀ before u, before <+: unplugged → run step (start 4096) before = some u → Reported u := by
  have hsome : (run step (start 4096) unplugged).isSome = true := by decide +kernel
  obtain ⟨t, ht⟩ := Option.isSome_iff_exists.mp hsome
  exact ⟨t, ht, (reported_iff 4096 ht).mpr (by decide +kernel)⟩

/-- The connection is lost with a stream open: its reads wait on. -/
theorem ended_unreported :
    ¬ ∀ (maxPayload : UInt32) (ls : List (Label Unit)) (t : AdbClient Unit),
      run step (start maxPayload) ls = some t → Reported t := by
  intro h
  have hrun : (run step (start 4096) (openOne ++ [.reader .failed])).map
      (fun t => (t.reader, t.shared.streams 1, (t.shared.slots 0).tx)) =
        some (.ended, some 0, true) := by decide +kernel
  obtain ⟨t, ht, hview⟩ := Option.map_eq_some_iff.mp hrun
  simp only [Prod.mk.injEq] at hview
  obtain ⟨hended, hlisted, htx⟩ := hview
  have hdropped := (h 4096 _ t ht hended).clear.senders hlisted
  exact absurd (htx.symm.trans hdropped) Bool.noConfusion

end AdbClient

end DroidMirror.Transport
