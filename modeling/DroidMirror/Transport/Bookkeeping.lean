import Mathlib.Data.Fintype.Basic
import DroidMirror.Transport.Delivery
import DroidMirror.Transport.Waiters

/-! # Leftovers

What the tables should hold when no call is in progress: no waiter, the streams
that `open_stream` returned and `close_stream` was not called for, and among
them every stream the device thinks is open. A `write` or a close that times
out, a packet that cannot be written and an `OKAY` that comes after its
`open_stream` has given up each leave something behind (`leftovers`); in a run
without these nothing is left (`nothing_left`). -/
namespace DroidMirror.Transport
open DroidMirror.Lib.Run

/-! ## The books -/

/-- What the device makes of a stream: over once either side has closed it. -/
inductive Peer where
  | unknown
  | offered
  | accepted
  | over
  deriving DecidableEq

/-- `live` are the streams returned by `open_stream` and not yet closed. -/
structure Books where
  live : UInt32 → Bool
  peer : UInt32 → Peer

namespace Books

def start : Books := ⟨fun _ => false, fun _ => .unknown⟩

def setLive (b : Books) (id : UInt32) (v : Bool) : Books :=
  { b with live := Function.update b.live id v }

def setPeer (b : Books) (id : UInt32) (p : Peer) : Books :=
  { b with peer := Function.update b.peer id p }

theorem setLive_live (b : Books) (id : UInt32) (v : Bool) (id' : UInt32) :
    (b.setLive id v).live id' = if id' = id then v else b.live id' :=
  Function.update_apply ..

theorem setPeer_peer (b : Books) (id : UInt32) (p : Peer) (id' : UInt32) :
    (b.setPeer id p).peer id' = if id' = id then p else b.peer id' :=
  Function.update_apply ..

/-- A stream set to anything but accepted is not accepted. -/
theorem accepted_setPeer {b : Books} {id id' : UInt32} {p : Peer} (hp : p ≠ .accepted)
    (h : (b.setPeer id p).peer id' = .accepted) : b.peer id' = .accepted := by
  rw [setPeer_peer] at h
  split at h
  · exact absurd h hp
  · exact h

/-- A packet is received from the device. -/
def received (b : Books) (command : Command) (id : UInt32) : Books :=
  match command with
  | .okay => if b.peer id = .offered then b.setPeer id .accepted else b
  | .clse => b.setPeer id .over
  | .wrte | .auth | .cnxn | .sync | .open_ => b

/-- A call begins, sends its packet or returns. -/
def called (b : Books) (c : Call) (e : CallEvent) (c' : Call) : Books :=
  match e with
  | .begin_ (.closeStream id) => b.setLive id false
  | .proceed =>
    match c with
    | .openSend id _ _ _ => b.setPeer id .offered
    | .openAck id _ _ => if c' = .returned (.opened id) then b.setLive id true else b
    | .closeSend id _ _ _ => b.setPeer id .over
    | _ => b
  | _ => b

def see {τ : Type} (b : Books) (s : AdbClient τ) (l : Label τ) (s' : AdbClient τ) : Books :=
  match l with
  | .reader (.received command _ id _) => b.received command id
  | .reader .proceed | .reader .failed => b
  | .call t e => b.called (s.calls t) e (s'.calls t)

/-- What the tables should hold. -/
structure Balanced (b : Books) (s : Shared) : Prop where
  waiters : ∀ id, s.waiters id = none
  streams : ∀ id, (s.streams id).isSome = b.live id
  peers : ∀ id, b.peer id = .accepted → (s.streams id).isSome = true

end Books

def CallEvent.opens : CallEvent → Bool
  | .begin_ (.openStream _) => true
  | .begin_ (.read _) | .begin_ (.write _ _) | .begin_ (.closeStream _) => false
  | .proceed | .failed _ | .timeout => false

namespace Call

/-- An `open_stream`, `write` or `close_stream` is in progress. -/
def working : Call → Bool
  | .idle | .returned _ | .reading _ => false
  | _ => true

/-- The stream a call in progress is opening or closing. -/
inductive Role where
  | none
  | opens (id : UInt32)
  | closes (id : UInt32)
  deriving DecidableEq

def role : Call → Role
  | .opening id _ _ | .openSend id _ _ _ | .openAck id _ _ | .openForget id => .opens id
  | .closing id _ _ | .closeSend id _ _ _ | .closeAck id _ _ => .closes id
  | _ => .none

/-- The call leaves nothing behind by the event. -/
def tidy (b : Books) (s : Shared) (c : Call) : CallEvent → Bool
  | .begin_ (.openStream _) => (s.streams s.nextLocal).isNone
  | .begin_ (.read _) | .begin_ (.write _ _) | .begin_ (.closeStream _) => true
  | .failed _ =>
    match c with
    | .openSend id _ _ w => !s.awaits id w && (s.streams id).isNone
    | .writeSend id _ _ _ w => !s.awaits id w
    | _ => true
  | .timeout =>
    match c with
    | .writeAck _ _ _ _ | .closeAck _ _ _ => false
    | _ => true
  | .proceed =>
    match c with
    | .openAck id _ w =>
      match s.acks w with
      | some (.okay _) => (s.streams id).isSome
      | some .closed => b.peer id ≠ .accepted
      | none => (s.streams id).isNone
    | .openForget id | .closeAck id _ _ => b.peer id ≠ .accepted
    | _ => true

end Call

namespace AdbClient
variable {τ : Type} [DecidableEq τ]

def stepBooks : Books × AdbClient τ → Label τ → Option (Books × AdbClient τ) :=
  observed Books.see step

def startBooks (maxPayload : UInt32) : Books × AdbClient τ := (.start, start maxPayload)

/-- The condition: no call leaves anything behind, the id of a new stream is not
that of an `open_stream` still in progress, and the device's `OKAY` to an `OPEN`
finds its stream in the table or about to be closed. -/
def Tidy (p : Books × AdbClient τ) : Label τ → Prop
  | .reader (.received command _ id _) => command = .okay → p.1.peer id = .offered →
    (p.2.shared.streams id).isSome = true ∨ ∃ t, (p.2.calls t).role = .closes id
  | .reader .proceed | .reader .failed => True
  | .call t e => (p.2.calls t).tidy p.1 p.2.shared e = true ∧
    (e.opens = true → ∀ t', (p.2.calls t').role ≠ .opens p.2.shared.nextLocal)

instance [Fintype τ] (p : Books × AdbClient τ) : (l : Label τ) → Decidable (Tidy p l)
  | .reader (.received command _ id _) =>
    inferInstanceAs (Decidable (command = .okay → p.1.peer id = .offered →
      (p.2.shared.streams id).isSome = true ∨ ∃ t, (p.2.calls t).role = .closes id))
  | .reader .proceed | .reader .failed => inferInstanceAs (Decidable True)
  | .call t e => inferInstanceAs (Decidable ((p.2.calls t).tidy p.1 p.2.shared e = true ∧
      (e.opens = true → ∀ t', (p.2.calls t').role ≠ .opens p.2.shared.nextLocal)))

end AdbClient

/-! ## The ledger -/

/-- The streams listed are those returned and not closed and those being opened,
and the ones the device has accepted are listed or being closed. -/
structure Ledger {τ : Type} (live accepted listed : UInt32 → Prop) (role : τ → Call.Role) : Prop where
  entries : ∀ id, listed id → live id ∨ ∃ t, role t = .opens id
  returned : ∀ id, live id → listed id
  opening : ∀ t id, role t = .opens id → ¬ live id
  alone : ∀ t t' id, role t = .opens id → role t' = .opens id → t = t'
  answered : ∀ id, accepted id → listed id ∨ ∃ t, role t = .closes id

namespace Ledger
variable {τ : Type} {live accepted listed : UInt32 → Prop} {role : τ → Call.Role}

theorem accept (h : Ledger live accepted listed role) {accepted' : UInt32 → Prop}
    (hacc : ∀ id, accepted' id → accepted id ∨ listed id ∨ ∃ t, role t = .closes id) :
    Ledger live accepted' listed role := by
  refine ⟨h.entries, h.returned, h.opening, h.alone, ?_⟩
  intro id hid
  rcases hacc id hid with hold | hrest
  · exact h.answered id hold
  · exact hrest

variable [DecidableEq τ]

omit live accepted listed in
/-- A role that the call has not changed from is still somebody's. -/
theorem somebody {t : τ} {r x : Call.Role} (h : ∃ t', role t' = x) (ht : role t ≠ x) :
    ∃ t', Function.update role t r t' = x := by
  obtain ⟨t', ht'⟩ := h
  refine ⟨t', ?_⟩
  rw [Function.update_of_ne]
  · exact ht'
  · rintro rfl
    exact ht ht'

theorem whose {t t' : τ} {r x : Call.Role} (h : Function.update role t r t' = x) :
    (t' = t ∧ r = x) ∨ (t' ≠ t ∧ role t' = x) := by
  rw [Function.update_apply] at h
  split at h
  · rename_i heq
    exact .inl ⟨heq, h⟩
  · rename_i hne
    exact .inr ⟨hne, h⟩

theorem begins (h : Ledger live accepted listed role) {t : τ} {id : UInt32} (ht : role t = .none)
    (hid : ¬ listed id) (hbusy : ∀ t', role t' ≠ .opens id) {listed' : UInt32 → Prop}
    (hlisted' : ∀ id', listed' id' ↔ id' = id ∨ listed id') :
    Ledger live accepted listed' (Function.update role t (.opens id)) := by
  refine ⟨?_, ?_, ?_, ?_, ?_⟩
  · intro id' hid'
    rcases (hlisted' id').mp hid' with rfl | hlisted
    · exact .inr ⟨t, Function.update_self ..⟩
    · rcases h.entries id' hlisted with hlive | hopens
      · exact .inl hlive
      · exact .inr (somebody hopens (ht ▸ Call.Role.noConfusion))
  · exact fun id' hlive => (hlisted' id').mpr (.inr (h.returned id' hlive))
  · intro t' id' hopens hlive
    rcases whose hopens with ⟨_, hr⟩ | ⟨_, hold⟩
    · cases hr
      exact hid (h.returned id hlive)
    · exact h.opening t' id' hold hlive
  · intro t₁ t₂ id' h₁ h₂
    rcases whose h₁ with ⟨ht₁, hr₁⟩ | ⟨_, hold₁⟩
    · rcases whose h₂ with ⟨ht₂, _⟩ | ⟨_, hold₂⟩
      · rw [ht₁, ht₂]
      · cases hr₁
        exact absurd hold₂ (hbusy t₂)
    · rcases whose h₂ with ⟨_, hr₂⟩ | ⟨_, hold₂⟩
      · cases hr₂
        exact absurd hold₁ (hbusy t₁)
      · exact h.alone t₁ t₂ id' hold₁ hold₂
  · intro id' hacc
    rcases h.answered id' hacc with hlisted | hcloses
    · exact .inl ((hlisted' id').mpr (.inr hlisted))
    · exact .inr (somebody hcloses (ht ▸ Call.Role.noConfusion))

/-- A call that ends, whatever it was at: the stream it was opening is returned
or no longer listed, the one it was closing is over. -/
theorem ends (h : Ledger live accepted listed role) {t : τ} {live' listed' : UInt32 → Prop}
    {r : Call.Role} (hr : ∀ id, r ≠ .opens id)
    (hentries : ∀ id, listed' id → listed id ∧ (role t = .opens id → live' id))
    (hlive : ∀ id, listed' id → live id → live' id)
    (hreturned : ∀ id, live' id → listed' id ∧ (live id ∨ role t = .opens id))
    (hanswered : ∀ id, accepted id → listed id → listed' id ∨ r = .closes id)
    (hcloses : ∀ id, accepted id → role t = .closes id → r = .closes id ∨ listed' id) :
    Ledger live' accepted listed' (Function.update role t r) := by
  refine ⟨?_, fun id hid => (hreturned id hid).1, ?_, ?_, ?_⟩
  · intro id hid
    obtain ⟨hlisted, hmine⟩ := hentries id hid
    rcases h.entries id hlisted with hold | hopens
    · exact .inl (hlive id hid hold)
    · by_cases ht : role t = .opens id
      · exact .inl (hmine ht)
      · exact .inr (somebody hopens ht)
  · intro t' id hopens hid
    rcases whose hopens with ⟨_, heq⟩ | ⟨hne, hold⟩
    · exact hr id heq
    · rcases (hreturned id hid).2 with hlive | ht
      · exact h.opening t' id hold hlive
      · exact hne (h.alone t' t id hold ht)
  · intro t₁ t₂ id h₁ h₂
    rcases whose h₁ with ⟨_, heq⟩ | ⟨_, hold₁⟩
    · exact absurd heq (hr id)
    · rcases whose h₂ with ⟨_, heq⟩ | ⟨_, hold₂⟩
      · exact absurd heq (hr id)
      · exact h.alone t₁ t₂ id hold₁ hold₂
  · intro id hacc
    have hmine : r = .closes id → ∃ t', Function.update role t r t' = .closes id := by
      intro heq
      exact ⟨t, by rw [Function.update_self, heq]⟩
    rcases h.answered id hacc with hlisted | hold
    · exact (hanswered id hacc hlisted).imp_right hmine
    · by_cases ht : role t = .closes id
      · exact (hcloses id hacc ht).symm.imp_right hmine
      · exact .inr (somebody hold ht)

section
variable {t : τ} {id : UInt32} {live' listed' : UInt32 → Prop}

/-- An `open_stream` returns the stream it was opening. -/
theorem opened (h : Ledger live accepted listed role) (ht : role t = .opens id) (hid : listed id)
    (hlive : ∀ id', live' id' ↔ id' = id ∨ live id') :
    Ledger live' accepted listed (Function.update role t .none) := by
  refine h.ends (fun _ => Call.Role.noConfusion) ?_ ?_ ?_ ?_ ?_
  · intro id' hid'
    refine ⟨hid', ?_⟩
    intro hopens
    cases ht.symm.trans hopens
    exact (hlive id).mpr (.inl rfl)
  · exact fun id' _ hold => (hlive id').mpr (.inr hold)
  · intro id' hid'
    rcases (hlive id').mp hid' with rfl | hold
    · exact ⟨hid, .inr ht⟩
    · exact ⟨h.returned id' hold, .inl hold⟩
  · exact fun id' _ hid' => .inl hid'
  · intro id' _ hcloses
    cases ht.symm.trans hcloses

/-- An `open_stream` takes the stream it was opening off the list again. -/
theorem givesUp (h : Ledger live accepted listed role) (ht : role t = .opens id)
    (hacc : accepted id → ¬ listed id) (hlisted : ∀ id', listed' id' ↔ id' ≠ id ∧ listed id') :
    Ledger live accepted listed' (Function.update role t .none) := by
  refine h.ends (fun _ => Call.Role.noConfusion) ?_ (fun _ _ hold => hold) ?_ ?_ ?_
  · intro id' hid'
    obtain ⟨hne, hold⟩ := (hlisted id').mp hid'
    refine ⟨hold, ?_⟩
    intro hopens
    cases ht.symm.trans hopens
    exact absurd rfl hne
  · intro id' hold
    refine ⟨(hlisted id').mpr ⟨?_, h.returned id' hold⟩, .inl hold⟩
    rintro rfl
    exact h.opening t id' ht hold
  · intro id' hid' hold
    refine .inl ((hlisted id').mpr ⟨?_, hold⟩)
    rintro rfl
    exact hacc hid' hold
  · intro id' _ hcloses
    cases ht.symm.trans hcloses

/-- A `close_stream` takes its stream off both lists; it need not go on where the stream was on neither. -/
theorem closes (h : Ledger live accepted listed role) (ht : role t = .none) {r : Call.Role}
    (hr : r = .closes id ∨ r = .none ∧ ¬ listed id) (hlive : ∀ id', live' id' ↔ id' ≠ id ∧ live id')
    (hlisted : ∀ id', listed' id' ↔ id' ≠ id ∧ listed id') :
    Ledger live' accepted listed' (Function.update role t r) := by
  refine h.ends ?_ ?_ ?_ ?_ ?_ ?_
  · intro id' hopens
    rcases hr with hr | ⟨hr, _⟩ <;> cases hr.symm.trans hopens
  · intro id' hid'
    refine ⟨((hlisted id').mp hid').2, ?_⟩
    intro hopens
    cases ht.symm.trans hopens
  · exact fun id' hid' hold => (hlive id').mpr ⟨((hlisted id').mp hid').1, hold⟩
  · intro id' hid'
    obtain ⟨hne, hold⟩ := (hlive id').mp hid'
    exact ⟨(hlisted id').mpr ⟨hne, h.returned id' hold⟩, .inl hold⟩
  · intro id' _ hold
    by_cases hid : id' = id
    · rcases hr with hr | ⟨_, hnone⟩
      · exact .inr (hid ▸ hr)
      · exact absurd (hid ▸ hold) hnone
    · exact .inl ((hlisted id').mpr ⟨hid, hold⟩)
  · intro id' _ hcloses
    cases ht.symm.trans hcloses

/-- A `close_stream` returns, the device done with its stream. -/
theorem closed (h : Ledger live accepted listed role) (ht : role t = .closes id) (hacc : ¬ accepted id) :
    Ledger live accepted listed (Function.update role t .none) := by
  refine h.ends (fun _ => Call.Role.noConfusion) ?_ (fun _ _ hold => hold)
    (fun id' hold => ⟨h.returned id' hold, .inl hold⟩) (fun _ _ hold => .inl hold) ?_
  · intro id' hid'
    refine ⟨hid', ?_⟩
    intro hopens
    cases ht.symm.trans hopens
  · intro id' hid' hcloses
    cases ht.symm.trans hcloses
    exact absurd hid' hacc

end

end Ledger

/-! ## Steps of the calls -/

/-- What a step of a call does to the table of streams and to the books. -/
inductive Call.Deed (b : Books) (s : Shared) (c : Call) (e : CallEvent) (op : Op) (c' : Call)
    (b' : Books) : Prop
  | begins : c.role = .none → c'.role = .opens s.nextLocal → op = .insertStream →
      s.streams s.nextLocal = none → e.opens = true → b' = b → Deed b s c e op c' b'
  | offers (id : UInt32) : c.role = .opens id → c'.role = .opens id → (s.apply op).streams = s.streams →
      b' = b.setPeer id .offered → Deed b s c e op c' b'
  | opened (id : UInt32) : c.role = .opens id → c'.role = .none → (s.apply op).streams = s.streams →
      (s.streams id).isSome = true → b' = b.setLive id true → Deed b s c e op c' b'
  | givesUp (id : UInt32) : c.role = .opens id → c'.role = .none →
      (s.apply op).streams = (s.removeStream id).streams →
      (b.peer id = .accepted → s.streams id = none) → b' = b → Deed b s c e op c' b'
  | closes (id : UInt32) : c.role = .none →
      (c'.role = .closes id ∨ c'.role = .none ∧ s.streams id = none) →
      (s.apply op).streams = (s.removeStream id).streams → b' = b.setLive id false →
      Deed b s c e op c' b'
  | dismisses (id : UInt32) : c.role = .closes id → c'.role = .closes id →
      (s.apply op).streams = s.streams → b' = b.setPeer id .over → Deed b s c e op c' b'
  | closed (id : UInt32) : c.role = .closes id → c'.role = .none → (s.apply op).streams = s.streams →
      b.peer id ≠ .accepted → b' = b → Deed b s c e op c' b'
  | other : c'.role = c.role → (s.apply op).streams = s.streams → b' = b → Deed b s c e op c' b'

theorem Shared.removeStream_eq {s : Shared} {id : UInt32} (h : s.streams id = none) :
    s.streams = (s.removeStream id).streams := by
  funext id'
  rw [removeStream_streams]
  split
  · rename_i hid
    rw [hid, h]
  · rfl

/-- What the table lists once a stream is removed. -/
theorem Shared.removeStream_lists (s : Shared) (id id' : UInt32) :
    (s.removeStream id).streams id' ≠ none ↔ id' ≠ id ∧ s.streams id' ≠ none := by
  rw [removeStream_streams]
  by_cases hid : id' = id <;> simp [hid]

theorem Books.called_failed (b : Books) (id : UInt32) (k w : Nat) (err : AdbError) :
    b.called (.openAck id k w) .proceed (.returned (.failed err)) = b := by
  simp [called]

theorem Call.resting_role {c : Call} (h : c.resting = true) : c.role = .none ∧ c.ticket = none := by
  cases c with
  | idle | returned => exact ⟨rfl, rfl⟩
  | _ => cases h

theorem Call.next_deed {b : Books} {s : Shared} {c c' : Call} {e : CallEvent} {op : Op}
    (h : c.next s e = some (op, c')) (hok : c.tidy b s e = true) :
    Deed b s c e op c' (b.called c e c') := by
  cases next_move h with
  | opens hc =>
    exact .begins (resting_role hc).1 rfl rfl (Option.isNone_iff_eq_none.mp hok) rfl rfl
  | closeGone hc hs =>
    exact .closes _ (resting_role hc).1 (.inr ⟨rfl, hs⟩) (Shared.removeStream_eq hs) rfl
  | closes hc => exact .closes _ (resting_role hc).1 (.inl rfl) rfl rfl
  | readGone hc | reads hc | writeGone hc | writeEarly hc | writesNothing hc | writes hc =>
    exact .other (resting_role hc).1.symm rfl rfl
  | openSends => exact .offers _ rfl rfl rfl rfl
  | @opened id k w remote ha =>
    have hsome : (s.streams id).isSome = true := by simpa only [tidy, ha] using hok
    exact .opened id rfl rfl rfl hsome (if_pos rfl)
  | @openRefused id k w ha =>
    have hpeer : b.peer id ≠ .accepted := by simpa only [tidy, ha, decide_eq_true_eq] using hok
    exact .givesUp id rfl rfl rfl (fun hp => absurd hp hpeer) (b.called_failed ..)
  | @openDropped id k w ha hw =>
    have hnone : s.streams id = none := by
      simpa only [tidy, ha, Option.isNone_iff_eq_none] using hok
    exact .givesUp id rfl rfl (Shared.removeStream_eq hnone) (fun _ => hnone) (b.called_failed ..)
  | openForgets => exact .givesUp _ rfl rfl rfl (fun hp => absurd hp (of_decide_eq_true hok)) rfl
  | closeSends => exact .dismisses _ rfl rfl rfl rfl
  | closeAnswered => exact .closed _ rfl rfl rfl (of_decide_eq_true hok) rfl
  | @openFails id k dest w err =>
    have hnone : s.streams id = none := Option.isNone_iff_eq_none.mp (Bool.and_eq_true_iff.mp hok).2
    exact .givesUp id rfl rfl (Shared.removeStream_eq hnone) (fun _ => hnone) rfl
  | writeTimesOut | closeTimesOut => cases hok
  | _ => exact .other rfl rfl rfl

theorem Shared.Ticketed.unlisted {s : Shared} (hs : s.Ticketed) {id : UInt32} {w : Nat}
    (h : ¬ s.awaits id w = true) : s.waiters id ≠ some w := by
  intro hlisted
  refine h (decide_eq_true ⟨?_, hlisted⟩)
  rw [← Classical.not_not (a := s.acks w = none)]
  intro hack
  exact (hs.answered hack).2 id hlisted

theorem Shared.Ticketed.acked {s : Shared} (hs : s.Ticketed) {id : UInt32} {w : Nat} {ack : Ack}
    (h : s.acks w = some ack) : s.waiters id ≠ some w :=
  (hs.answered (h ▸ Option.some_ne_none ack)).2 id

/-- A call that lets go of its waiter leaves nothing listed. -/
theorem Call.next_unlists {b : Books} {s : Shared} {c c' : Call} {e : CallEvent} {op : Op}
    (h : c.next s e = some (op, c')) (hok : c.tidy b s e = true) (hs : s.Ticketed) {id : UInt32}
    {w : Nat} (hc : c.ticket = some (id, w)) (hc' : c'.ticket = none) :
    (s.apply op).waiters id ≠ some w := by
  cases next_move h with
  | opened ha | openRefused ha | wrote ha | writesOn ha | writeRefused ha =>
    cases hc
    exact hs.acked ha
  | openDropped _ hw | writeDropped _ hw | closeAnswered hw =>
    cases hc
    exact hs.unlisted hw
  | openFails =>
    cases hc
    have hnot := (Bool.and_eq_true_iff.mp hok).1
    exact hs.unlisted (by simpa using hnot)
  | writeFails =>
    cases hc
    exact hs.unlisted (by simpa [tidy] using hok)
  | openTimesOut =>
    cases hc
    rw [Shared.apply, Shared.removeWaiter_waiters, if_pos rfl]
    exact (Option.some_ne_none _).symm
  | writeTimesOut | closeTimesOut => cases hok
  | openSends | writeSends | closeSends | closeFails => cases hc'
  | opens hrest | readGone hrest | reads hrest | writeGone hrest | writeEarly hrest
  | writesNothing hrest | writes hrest | closeGone hrest | closes hrest =>
    cases (resting_role hrest).2.symm.trans hc
  | _ => cases hc

theorem Call.working_role {c : Call} (h : c.working = false) : c.role = .none ∧ c.ticket = none := by
  cases c with
  | idle | returned | reading => exact ⟨rfl, rfl⟩
  | _ => cases h

/-! ## Runs -/

namespace AdbClient
variable {τ : Type}

/-- What the tables hold is accounted for by the books and by the calls in
progress. -/
structure Accounted (b : Books) (s : AdbClient τ) : Prop where
  tickets : s.Tickets
  waiters : ∀ {id w}, s.shared.waiters id = some w → ∃ t, (s.calls t).ticket = some (id, w)
  ledger : Ledger (b.live · = true) (b.peer · = .accepted) (s.shared.streams · ≠ none)
    fun t => (s.calls t).role

theorem Accounted.balanced {b : Books} {s : AdbClient τ} (h : Accounted b s)
    (hrest : ∀ t, (s.calls t).working = false) : b.Balanced s.shared := by
  have hrole : ∀ t, (s.calls t).role = .none := fun t => (Call.working_role (hrest t)).1
  refine ⟨?_, ?_, ?_⟩
  · intro id
    refine Option.eq_none_iff_forall_ne_some.mpr ?_
    intro w hw
    obtain ⟨t, ht⟩ := h.waiters hw
    cases (Call.working_role (hrest t)).2.symm.trans ht
  · intro id
    rw [Bool.eq_iff_iff, Option.isSome_iff_ne_none]
    refine ⟨?_, h.ledger.returned id⟩
    intro hid
    rcases h.ledger.entries id hid with hlive | ⟨t, ht⟩
    · exact hlive
    · cases (hrole t).symm.trans ht
  · intro id hid
    rw [Option.isSome_iff_ne_none]
    rcases h.ledger.answered id hid with hsome | ⟨t, ht⟩
    · exact hsome
    · cases (hrole t).symm.trans ht

theorem accounted_start (maxPayload : UInt32) : Accounted .start (start maxPayload : AdbClient τ) :=
  ⟨tickets_start maxPayload, (fun h => nomatch h), (fun _ h => absurd rfl h), (fun _ h => nomatch h),
    (fun _ _ h => nomatch h), (fun _ _ _ h => nomatch h), fun _ h => nomatch h⟩

variable [DecidableEq τ]

theorem ledger_call {b b' : Books} {s : AdbClient τ} {t : τ} {op : Op} {c : Call}
    (hi : Ledger (b.live · = true) (b.peer · = .accepted) (s.shared.streams · ≠ none)
      fun t' => (s.calls t').role)
    {e : CallEvent} (h : Call.Deed b s.shared (s.calls t) e op c b')
    (hfree : e.opens = true → ∀ t', (s.calls t').role ≠ .opens s.shared.nextLocal) :
    Ledger (b'.live · = true) (b'.peer · = .accepted) ((s.shared.apply op).streams · ≠ none)
      (Function.update (fun t' => (s.calls t').role) t c.role) := by
  have hsame : c.role = (s.calls t).role →
      Function.update (fun t' => (s.calls t').role) t c.role = fun t' => (s.calls t').role := by
    intro hrole
    rw [hrole]
    exact Function.update_eq_self ..
  cases h with
  | begins hc hc' hop hnone hopens hb =>
    subst hop hb
    rw [hc']
    refine hi.begins hc (not_not_intro hnone) (hfree hopens) ?_
    intro id
    rw [Shared.apply, Shared.insertStream_streams]
    by_cases hid : id = s.shared.nextLocal <;> simp [hid]
  | offers id hc hc' hstreams hb =>
    rw [hb, hstreams, hsame (hc'.trans hc.symm)]
    exact hi.accept fun id' hid' => .inl (Books.accepted_setPeer Peer.noConfusion hid')
  | opened id hc hc' hstreams hsome hb =>
    rw [hb, hstreams, hc']
    refine hi.opened hc (Option.isSome_iff_ne_none.mp hsome) ?_
    intro id'
    rw [Books.setLive_live]
    by_cases hid : id' = id <;> simp [hid]
  | givesUp id hc hc' hstreams hpeer hb =>
    rw [hb, hc', hstreams]
    exact hi.givesUp hc (fun hacc => not_not_intro (hpeer hacc)) (s.shared.removeStream_lists id)
  | closes id hc hc' hstreams hb =>
    rw [hb, hstreams]
    refine hi.closes hc ?_ ?_ (s.shared.removeStream_lists id)
    · exact hc'.imp_right fun h => ⟨h.1, not_not_intro h.2⟩
    · intro id'
      rw [Books.setLive_live]
      by_cases hid : id' = id <;> simp [hid]
  | dismisses id hc hc' hstreams hb =>
    rw [hb, hstreams, hsame (hc'.trans hc.symm)]
    exact hi.accept fun id' hid' => .inl (Books.accepted_setPeer Peer.noConfusion hid')
  | closed id hc hc' hstreams hpeer hb =>
    rw [hb, hstreams, hc']
    exact hi.closed hc hpeer
  | other hc hstreams hb =>
    rw [hb, hstreams, hsame hc]
    exact hi

theorem accounted_call {b : Books} {s s' : AdbClient τ} {t : τ} {e : CallEvent} {op : Op} {c : Call}
    (hi : Accounted b s) (hok : Tidy (b, s) (.call t e))
    (h : (s.calls t).next s.shared e = some (op, c)) (hshared : s'.shared = s.shared.apply op)
    (hcalls : s'.calls = Function.update s.calls t c) (ht : s'.Tickets) :
    Accounted (b.see s (.call t e) s') s' := by
  obtain ⟨htidy, hfree⟩ := hok
  have hself : s'.calls t = c := by
    rw [hcalls, Function.update_self]
  have hothers : ∀ t', t' ≠ t → s'.calls t' = s.calls t' := by
    intro t' htt
    rw [hcalls, Function.update_of_ne htt]
  refine ⟨ht, ?_, ?_⟩
  · intro id w hw
    rw [hshared] at hw
    rcases Call.next_ticket h with ⟨id', _, rfl, hnone, hnew⟩ | ⟨hop, hkeeps⟩
    · rcases Shared.insertWaiter_listed hw with ⟨rfl, rfl⟩ | ⟨_, hold⟩
      · exact ⟨t, hself ▸ hnew⟩
      · obtain ⟨t', ht'⟩ := hi.waiters hold
        refine ⟨t', ?_⟩
        rw [hothers t']
        · exact ht'
        · rintro rfl
          cases hnone.symm.trans ht'
    · obtain ⟨t', ht'⟩ := hi.waiters (Shared.apply_listed hop hw)
      by_cases htt : t' = t
      · subst htt
        refine ⟨t', ?_⟩
        rw [hself]
        rcases hkeeps with hgone | hsame
        · exact absurd hw (Call.next_unlists h htidy hi.tickets.listed ht' hgone)
        · rw [hsame, ht']
      · exact ⟨t', by rw [hothers t' htt, ht']⟩
  · have hrole : (fun t' => (s'.calls t').role) =
        Function.update (fun t' => (s.calls t').role) t c.role := by
      funext t'
      rw [hcalls]
      exact Function.apply_update (fun _ => Call.role) s.calls t c t'
    have hdeed := Call.next_deed h htidy
    rw [← hself] at hdeed
    rw [hrole, hshared, ← hself]
    exact ledger_call hi.ledger hdeed hfree

omit [DecidableEq τ] in
theorem accounted_reader {b : Books} {s s' : AdbClient τ} {e : ReaderEvent}
    (hi : Accounted b s) (hok : Tidy (b, s) (.reader e))
    (h : s.reader.next s.shared e = some (s'.shared, s'.reader)) (hcalls : s'.calls = s.calls)
    (ht : s'.Tickets) : Accounted (b.see s (.reader e) s') s' := by
  have hwaiters : ∀ {id w}, s'.shared.waiters id = some w → ∃ t, (s'.calls t).ticket = some (id, w) := by
    intro id w hw
    rw [hcalls]
    exact hi.waiters (Reader.next_listed h hw)
  have hledger := hi.ledger
  rw [← hcalls, ← (Reader.next_kept h).streams] at hledger
  cases e with
  | received command arg0 id data =>
    change Accounted (b.received command id) s'
    refine ⟨ht, hwaiters, ?_⟩
    cases command with
    | okay =>
      rw [Books.received]
      split
      · rename_i hoffered
        refine hledger.accept ?_
        intro id' hid'
        rw [Books.setPeer_peer] at hid'
        split at hid'
        · rename_i heq
          right
          rw [heq, (Reader.next_kept h).streams, hcalls, ← Option.isSome_iff_ne_none]
          exact hok rfl hoffered
        · exact .inl hid'
      · exact hledger
    | clse =>
      exact hledger.accept fun id' hid' => .inl (Books.accepted_setPeer Peer.noConfusion hid')
    | _ => exact hledger
  | proceed | failed => exact ⟨ht, hwaiters, hledger⟩

theorem accounted_step {b : Books} {s s' : AdbClient τ} {l : Label τ} (hi : Accounted b s)
    (hok : Tidy (b, s) l) (h : step s l = some s') : Accounted (b.see s l s') s' := by
  have ht := tickets_step hi.tickets h
  cases step_move h with
  | reader hnext => exact accounted_reader hi hok hnext rfl ht
  | call hnext => exact accounted_call hi hok hnext rfl rfl ht

/-- **Leftovers.** In a run that meets the condition, whenever no `open_stream`,
`write` or `close_stream` is in progress the tables hold what they should. -/
theorem nothing_left (maxPayload : UInt32) {ls : List (Label τ)} {t : AdbClient τ}
    (h : run step (start maxPayload) ls = some t) (hok : Meets stepBooks Tidy (startBooks maxPayload) ls) :
    ∃ b, run stepBooks (startBooks maxPayload) ls = some (b, t) ∧
      ((∀ u, (t.calls u).working = false) → b.Balanced t.shared) := by
  obtain ⟨b, hrun⟩ : ∃ b, run stepBooks (startBooks maxPayload) ls = some (b, t) :=
    run_observed Books.start h
  refine ⟨b, hrun, Accounted.balanced ?_⟩
  refine @run_invariant _ _ _ (fun p => Accounted p.1 p.2) _ ?_ _ _ _ hrun hok
    (accounted_start maxPayload)
  intro p l p' hi hl hs
  obtain ⟨hstep, hsee⟩ := observed_eq_some.mp hs
  rw [hsee]
  exact accounted_step hi hl hstep

/-- `close_stream` up to the device's `CLSE`. -/
def closeOne : List (Label Unit) :=
  [.call () (.begin_ (.closeStream 1)), .call () .proceed, .call () .proceed,
    .reader (.received .clse 9 1 []), .reader .proceed, .call () .proceed, .call () .proceed]

theorem nothing_left_closed :
    ∃ t b, run stepBooks (startBooks 4096) (openOne ++ closeOne) = some (b, t) ∧
      ((∀ u, (t.calls u).working = false) → b.Balanced t.shared) := by
  have hsome : (run step (start 4096) (openOne ++ closeOne)).isSome = true := by decide +kernel
  obtain ⟨t, ht⟩ := Option.isSome_iff_exists.mp hsome
  obtain ⟨b, hrun, hbalanced⟩ := nothing_left 4096 ht (by decide +kernel)
  exact ⟨t, b, hrun, hbalanced⟩

/-- A `write` that times out leaves its waiter, an `OPEN` that cannot be written
its stream, and an `OKAY` that comes too late a stream open on the device. -/
theorem leftovers :
    (¬ ∀ (maxPayload : UInt32) (ls : List (Label Unit)) (b : Books) (t : AdbClient Unit),
      run stepBooks (startBooks maxPayload) ls = some (b, t) → (∀ u, (t.calls u).working = false) →
        ∀ id, t.shared.waiters id = none) ∧
    (¬ ∀ (maxPayload : UInt32) (ls : List (Label Unit)) (b : Books) (t : AdbClient Unit),
      run stepBooks (startBooks maxPayload) ls = some (b, t) → (∀ u, (t.calls u).working = false) →
        ∀ id, (t.shared.streams id).isSome = b.live id) ∧
    ¬ ∀ (maxPayload : UInt32) (ls : List (Label Unit)) (b : Books) (t : AdbClient Unit),
      run stepBooks (startBooks maxPayload) ls = some (b, t) → (∀ u, (t.calls u).working = false) →
        ∀ id, b.peer id = .accepted → (t.shared.streams id).isSome = true := by
  refine ⟨?_, ?_, ?_⟩
  · intro h
    have hrun : (run stepBooks (startBooks 4096)
        (openOne ++ [.call () (.begin_ (.write 1 [7])), .call () .proceed, .call () .proceed,
          .call () .timeout])).map (fun p => ((p.2.calls ()).working, p.2.shared.waiters 1)) =
        some (false, some 1) := by decide +kernel
    obtain ⟨⟨b, t⟩, ht, hview⟩ := Option.map_eq_some_iff.mp hrun
    simp only [Prod.mk.injEq] at hview
    have hnone := h 4096 _ b t ht (fun _ => hview.1) 1
    cases hnone.symm.trans hview.2
  · intro h
    have hrun : (run stepBooks (startBooks 4096)
        [.call () (.begin_ (.openStream "sync:")), .call () .proceed,
          .call () (.failed .closed)]).map
        (fun p => ((p.2.calls ()).working, (p.2.shared.streams 1).isSome, p.1.live 1)) =
        some (false, true, false) := by decide +kernel
    obtain ⟨⟨b, t⟩, ht, hview⟩ := Option.map_eq_some_iff.mp hrun
    simp only [Prod.mk.injEq] at hview
    obtain ⟨hrest, hsome, hlive⟩ := hview
    have heq := h 4096 _ b t ht (fun _ => hrest) 1
    rw [hsome, hlive] at heq
    cases heq
  · intro h
    have hrun : (run stepBooks (startBooks 4096)
        [.call () (.begin_ (.openStream "sync:")), .call () .proceed, .call () .proceed,
          .call () .timeout, .call () .proceed, .reader (.received .okay 9 1 []),
          .reader .proceed]).map
        (fun p => ((p.2.calls ()).working, p.1.peer 1, (p.2.shared.streams 1).isSome)) =
        some (false, .accepted, false) := by decide +kernel
    obtain ⟨⟨b, t⟩, ht, hview⟩ := Option.map_eq_some_iff.mp hrun
    simp only [Prod.mk.injEq] at hview
    obtain ⟨hrest, hpeer, hgone⟩ := hview
    exact absurd (hgone.symm.trans (h 4096 _ b t ht (fun _ => hrest) 1 hpeer)) Bool.false_ne_true

end AdbClient

end DroidMirror.Transport
