import DroidMirror.Transport.AdbClient

/-! # Acknowledged payloads

The reader task acknowledges a payload before it hands it to the stream, and a
payload that finds the stream's channel full is dropped: the device takes it
for received and never sends it again (`acknowledged_payload_dropped`). As long
as every hand-over finds room, and the stream is not taken from the table
between the two, what the reads of a stream returned and what is queued for it
are the payloads acknowledged while it was open (`reads_acknowledged`). -/
namespace DroidMirror.Transport
open DroidMirror.Lib.Run

/-! ## The table of streams -/

namespace Shared

/-- The slots listed have been made, and each is listed under one id. -/
structure Linked (s : Shared) : Prop where
  made : ∀ {id h}, s.streams id = some h → h < s.opened
  single : ∀ {id id' h}, s.streams id = some h → s.streams id' = some h → id = id'

/-- A slot that has been made and is not listed. -/
structure Unlisted (s : Shared) (h : Nat) : Prop where
  made : h < s.opened
  gone : ∀ id, s.streams id ≠ some h

theorem Linked.congr {s s' : Shared} (hs : Linked s) (hstreams : s'.streams = s.streams)
    (hopened : s'.opened = s.opened) : Linked s' := by
  constructor
  · intro id h hid
    rw [hstreams] at hid
    rw [hopened]
    exact hs.made hid
  · intro id id' h hid hid'
    rw [hstreams] at hid hid'
    exact hs.single hid hid'

theorem Unlisted.congr {s s' : Shared} {h : Nat} (hu : Unlisted s h) (hstreams : s'.streams = s.streams)
    (hopened : s'.opened = s.opened) : Unlisted s' h := by
  constructor
  · rw [hopened]
    exact hu.made
  · rw [hstreams]
    exact hu.gone

theorem linked_insertStream {s : Shared} (hs : Linked s) : Linked s.insertStream := by
  have hlisted : ∀ {id h}, s.insertStream.streams id = some h →
      (id = s.nextLocal ∧ h = s.opened) ∨ (id ≠ s.nextLocal ∧ s.streams id = some h) := by
    intro id h hid
    rw [insertStream_streams] at hid
    split at hid
    · rename_i hid'
      exact .inl ⟨hid', (Option.some.inj hid).symm⟩
    · rename_i hne
      exact .inr ⟨hne, hid⟩
  constructor
  · intro id h hid
    rcases hlisted hid with ⟨_, rfl⟩ | ⟨_, hold⟩
    · exact Nat.lt_succ_self _
    · exact Nat.lt_succ_of_lt (hs.made hold)
  · intro id id' h hid hid'
    rcases hlisted hid with ⟨hi, hh⟩ | ⟨_, hold⟩
    · rcases hlisted hid' with ⟨hi', _⟩ | ⟨_, hold'⟩
      · rw [hi, hi']
      · exact absurd (hs.made hold') (hh ▸ Nat.lt_irrefl _)
    · rcases hlisted hid' with ⟨_, hh'⟩ | ⟨_, hold'⟩
      · exact absurd (hs.made hold) (hh' ▸ Nat.lt_irrefl _)
      · exact hs.single hold hold'

theorem removeStream_listed {s : Shared} {id id' : UInt32} {h : Nat}
    (hid : (s.removeStream id).streams id' = some h) : id' ≠ id ∧ s.streams id' = some h := by
  rw [removeStream_streams] at hid
  split at hid
  · cases hid
  · rename_i hne
    exact ⟨hne, hid⟩

theorem linked_removeStream {s : Shared} (hs : Linked s) (id : UInt32) :
    Linked (s.removeStream id) := by
  constructor
  · intro id' h hid
    exact hs.made (removeStream_listed hid).2
  · intro id₁ id₂ h h₁ h₂
    exact hs.single (removeStream_listed h₁).2 (removeStream_listed h₂).2

theorem linked_apply {s : Shared} (hs : Linked s) (op : Op) : Linked (s.apply op) := by
  cases op with
  | insertStream => exact linked_insertStream hs
  | removeStream id => exact linked_removeStream hs id
  | _ => exact hs.congr rfl rfl

theorem Unlisted.apply {s : Shared} {h : Nat} (hu : Unlisted s h) (op : Op) :
    Unlisted (s.apply op) h := by
  cases op with
  | insertStream =>
    refine ⟨Nat.lt_succ_of_lt hu.made, ?_⟩
    intro id hid
    rw [Shared.apply, insertStream_streams] at hid
    split at hid
    · cases hid
      exact absurd hu.made (Nat.lt_irrefl _)
    · exact hu.gone id hid
  | removeStream id => exact ⟨hu.made, fun id' hid => hu.gone id' (removeStream_listed hid).2⟩
  | _ => exact hu.congr rfl rfl

/-- A slot taken from the table is no longer listed. -/
theorem unlisted_removeStream {s : Shared} (hs : Linked s) {id : UInt32} {h : Nat}
    (hid : s.streams id = some h) : Unlisted (s.removeStream id) h := by
  refine ⟨hs.made hid, ?_⟩
  intro id' hid'
  obtain ⟨hne, hold⟩ := removeStream_listed hid'
  exact hne (hs.single hold hid)

/-! ## Open streams -/

theorem openSlot_eq_some {s : Shared} {id : UInt32} {h : Nat} :
    s.openSlot id = some h ↔ s.streams id = some h ∧ (s.slots h).tx = true := by
  simp only [openSlot, Option.filter_eq_some_iff]

/-- What leaves the table and the senders alone leaves the open streams alone. -/
theorem openSlot_congr {s s' : Shared} {id : UInt32} (hstreams : s'.streams id = s.streams id)
    (htx : ∀ h, s.streams id = some h → (s'.slots h).tx = (s.slots h).tx) :
    s'.openSlot id = s.openSlot id := by
  apply Option.ext
  intro h
  rw [openSlot_eq_some, openSlot_eq_some, hstreams]
  constructor
  · rintro ⟨hid, hopen⟩
    exact ⟨hid, htx h hid ▸ hopen⟩
  · rintro ⟨hid, hopen⟩
    exact ⟨hid, (htx h hid).symm ▸ hopen⟩

theorem openSlot_modifySlot {s : Shared} (h : Nat) {f : StreamSlot → StreamSlot}
    (hf : ∀ slot, (f slot).tx = slot.tx) (id : UInt32) :
    (s.modifySlot h f).openSlot id = s.openSlot id := by
  refine openSlot_congr rfl ?_
  intro k _
  rw [modifySlot_slots]
  split
  · exact hf _
  · rfl

theorem openSlot_dropTx {s : Shared} {h : Nat} (hu : Unlisted s h) (id : UInt32) :
    (s.dropTx h).openSlot id = s.openSlot id := by
  refine openSlot_congr rfl ?_
  intro k hk
  rw [dropTx, modifySlot_slots, if_neg]
  rintro rfl
  exact hu.gone id hk

theorem openSlot_insertStream {s : Shared} (hs : Linked s) {id : UInt32} (hne : id ≠ s.nextLocal) :
    s.insertStream.openSlot id = s.openSlot id := by
  apply openSlot_congr
  · rw [insertStream_streams, if_neg hne]
  · intro h hid
    rw [insertStream_slots, if_neg (Nat.ne_of_lt (hs.made hid))]

theorem openSlot_removeStream {s : Shared} {id id' : UInt32} (hne : id' ≠ id) :
    (s.removeStream id).openSlot id' = s.openSlot id' := by
  apply openSlot_congr
  · rw [removeStream_streams, if_neg hne]
  · intro _ _
    rfl

theorem openSlot_removeStream_self (s : Shared) (id : UInt32) :
    (s.removeStream id).openSlot id = none := by
  simp [openSlot, removeStream_streams]

end Shared

/-! ## What the reader task holds -/

/-- The id of an acknowledged payload that is not handed over yet. -/
def Reader.handing? : Reader → Option UInt32
  | .delivering id _ => some id
  | _ => none

/-- The payloads for a slot that are acknowledged and not handed over yet. -/
def Reader.inHand (r : Reader) (s : Shared) (h : Nat) : List (List UInt8) :=
  match r with
  | .delivering id data => if s.openSlot id = some h then [data] else []
  | _ => []

theorem Reader.inHand_delivering (id : UInt32) (data : List UInt8) (s : Shared) (h : Nat) :
    (Reader.delivering id data).inHand s h = if s.openSlot id = some h then [data] else [] := rfl

theorem Reader.inHand_none {r : Reader} (hr : r.handing? = none) (s : Shared) (h : Nat) :
    r.inHand s h = [] := by
  cases r with
  | delivering id data => cases hr
  | _ => rfl

theorem Reader.inHand_congr {r : Reader} {s s' : Shared}
    (hopen : ∀ id, r.handing? = some id → s'.openSlot id = s.openSlot id) (h : Nat) :
    r.inHand s' h = r.inHand s h := by
  cases r with
  | delivering id data => rw [inHand, inHand, hopen id rfl]
  | _ => rfl

/-- The payloads acknowledged while a slot was open are, in order, those its
reads returned, those queued and the one in hand. -/
def Delivered (s : Shared) (r : Reader) : Prop :=
  ∀ h, (s.slots h).returned ++ (s.slots h).rx ++ r.inHand s h = (s.slots h).acked

theorem Delivered.congr {s s' : Shared} {r r' : Reader} (hd : Delivered s r)
    (hslots : ∀ h, (s'.slots h).returned ++ (s'.slots h).rx = (s.slots h).returned ++ (s.slots h).rx ∧
      (s'.slots h).acked = (s.slots h).acked)
    (hhand : ∀ h, r'.inHand s' h = r.inHand s h) : Delivered s' r' := by
  intro h
  obtain ⟨hqueue, hacked⟩ := hslots h
  rw [hqueue, hacked, hhand]
  exact hd h

/-- A change of one slot that keeps its payloads. -/
theorem slots_modifySlot {s : Shared} {h : Nat} {f : StreamSlot → StreamSlot}
    (hf : ∀ slot, (f slot).returned ++ (f slot).rx = slot.returned ++ slot.rx ∧
      (f slot).acked = slot.acked) (k : Nat) :
    ((s.modifySlot h f).slots k).returned ++ ((s.modifySlot h f).slots k).rx =
        (s.slots k).returned ++ (s.slots k).rx ∧
      ((s.modifySlot h f).slots k).acked = (s.slots k).acked := by
  rw [Shared.modifySlot_slots]
  split
  · exact hf _
  · exact ⟨rfl, rfl⟩

theorem Delivered.modifySlot {s : Shared} {r : Reader} (hd : Delivered s r) {h : Nat}
    {f : StreamSlot → StreamSlot}
    (hf : ∀ slot, (f slot).returned ++ (f slot).rx = slot.returned ++ slot.rx ∧
      (f slot).acked = slot.acked)
    (hopen : ∀ id, (s.modifySlot h f).openSlot id = s.openSlot id) : Delivered (s.modifySlot h f) r :=
  hd.congr (slots_modifySlot hf) (Reader.inHand_congr fun id _ => hopen id)

/-! ## Steps of the reader task -/

/-- A hand-over to an open stream finds room in its channel. -/
def Room (s : Shared) : Reader → Prop
  | .delivering id _ => ∀ h ∈ s.openSlot id, (s.slots h).rx.length < STREAM_DEPTH
  | _ => True

instance (s : Shared) : (r : Reader) → Decidable (Room s r)
  | .delivering id _ =>
    inferInstanceAs (Decidable (∀ h ∈ s.openSlot id, (s.slots h).rx.length < STREAM_DEPTH))
  | .waiting | .resolving _ _ | .answering _ _ _ | .closing _ | .ended =>
    inferInstanceAs (Decidable True)

theorem delivered_acknowledge {s : Shared} {id remote : UInt32} {data : List UInt8}
    (hd : Delivered s (.answering id remote data)) :
    Delivered (s.acknowledge id remote data) (.delivering id data) := by
  intro h
  have hh := hd h
  rw [Reader.inHand_none rfl, List.append_nil] at hh
  cases ho : s.openSlot id with
  | none =>
    have hsame : s.acknowledge id remote data = s.send ⟨.okay, id, remote, []⟩ := by
      rw [Shared.acknowledge, ho]
    have hclosed : (s.send ⟨.okay, id, remote, []⟩).openSlot id = none := ho
    rw [hsame, Reader.inHand_delivering, hclosed, if_neg (by simp), List.append_nil]
    exact hh
  | some k =>
    have hsame : s.acknowledge id remote data =
        (s.send ⟨.okay, id, remote, []⟩).modifySlot k
          fun slot => { slot with acked := slot.acked ++ [data] } := by
      rw [Shared.acknowledge, ho]
    have hopen : (s.acknowledge id remote data).openSlot id = some k := by
      rw [hsame, Shared.openSlot_modifySlot]
      · exact ho
      · intro _
        rfl
    rw [Reader.inHand_delivering, hopen, hsame, Shared.modifySlot_slots]
    by_cases hk : h = k
    · subst hk
      rw [if_pos rfl, if_pos rfl]
      exact congrArg (· ++ [data]) hh
    · rw [if_neg hk, if_neg (fun he => hk (Option.some.inj he).symm), List.append_nil]
      exact hh

theorem delivered_deliver {s : Shared} {id : UInt32} {data : List UInt8}
    (hd : Delivered s (.delivering id data)) (hroom : Room s (.delivering id data)) :
    Delivered (s.deliver id data) .waiting := by
  intro h
  have hh := hd h
  rw [Reader.inHand_delivering] at hh
  rw [Reader.inHand_none rfl, List.append_nil]
  cases ho : s.openSlot id with
  | none =>
    rw [ho, if_neg (by simp), List.append_nil] at hh
    rw [Shared.deliver, ho]
    exact hh
  | some k =>
    have hsame : s.deliver id data =
        s.modifySlot k fun slot => { slot with rx := slot.rx ++ [data] } := by
      rw [Shared.deliver, ho]
      exact if_pos (hroom k ho)
    rw [hsame, Shared.modifySlot_slots]
    rw [ho] at hh
    by_cases hk : h = k
    · subst hk
      rw [if_pos rfl] at hh ⊢
      rw [← List.append_assoc]
      exact hh
    · rw [if_neg (fun he => hk (Option.some.inj he).symm), List.append_nil] at hh
      rw [if_neg hk]
      exact hh

theorem slots_learnRemote (s : Shared) (id remote : UInt32) (h : Nat) :
    ((s.learnRemote id remote).slots h).returned ++ ((s.learnRemote id remote).slots h).rx =
        (s.slots h).returned ++ (s.slots h).rx ∧
      ((s.learnRemote id remote).slots h).acked = (s.slots h).acked := by
  unfold Shared.learnRemote
  split
  · exact ⟨rfl, rfl⟩
  · split
    · apply slots_modifySlot
      intro _
      exact ⟨rfl, rfl⟩
    · exact ⟨rfl, rfl⟩

theorem slots_resolve (s : Shared) (id : UInt32) (ack : Ack) : (s.resolve id ack).slots = s.slots := by
  unfold Shared.resolve
  split <;> rfl

theorem slots_hangUp (s : Shared) (id : UInt32) (h : Nat) :
    ((s.hangUp id).slots h).returned ++ ((s.hangUp id).slots h).rx =
        (s.slots h).returned ++ (s.slots h).rx ∧
      ((s.hangUp id).slots h).acked = (s.slots h).acked := by
  unfold Shared.hangUp
  split
  · exact ⟨rfl, rfl⟩
  · apply slots_modifySlot
    intro _
    exact ⟨rfl, rfl⟩

theorem delivered_receive {s : Shared} (hd : Delivered s .waiting) (command : Command)
    (arg0 arg1 : UInt32) (data : List UInt8) :
    Delivered (Reader.receive s command arg0 arg1 data).1
      (Reader.receive s command arg0 arg1 data).2 := by
  cases command with
  | okay => exact hd.congr (slots_learnRemote s _ _) fun _ => rfl
  | clse =>
    refine hd.congr ?_ fun _ => rfl
    intro k
    rw [Reader.receive, slots_resolve]
    exact ⟨rfl, rfl⟩
  | wrte => exact hd.congr (fun _ => ⟨rfl, rfl⟩) fun _ => rfl
  | _ => exact hd

theorem delivered_proceed {s s' : Shared} {r r' : Reader} (hd : Delivered s r) (hroom : Room s r)
    (h : r.proceed s = some (s', r')) : Delivered s' r' := by
  cases r with
  | resolving id remote =>
    cases h
    refine hd.congr ?_ fun _ => rfl
    intro k
    rw [slots_resolve]
    exact ⟨rfl, rfl⟩
  | answering id remote data =>
    cases h
    exact delivered_acknowledge hd
  | delivering id data =>
    cases h
    exact delivered_deliver hd hroom
  | closing id =>
    cases h
    exact hd.congr (slots_hangUp s _) fun _ => rfl
  | waiting | ended => cases h

theorem delivered_fail {s s' : Shared} {r r' : Reader} (hd : Delivered s r)
    (h : r.fail s = some (s', r')) : Delivered s' r' := by
  revert h
  fun_cases Reader.fail s r
  all_goals
    intro h
    cases h <;> exact hd.congr (fun _ => ⟨rfl, rfl⟩) fun _ => rfl

theorem delivered_reader {s s' : Shared} {r r' : Reader} {e : ReaderEvent} (hd : Delivered s r)
    (hroom : e = .proceed → Room s r) (h : r.next s e = some (s', r')) : Delivered s' r' := by
  cases e with
  | received command arg0 arg1 data =>
    obtain ⟨rfl, hreceive⟩ := Reader.next_received h
    have hnext := delivered_receive hd command arg0 arg1 data
    rw [hreceive] at hnext
    exact hnext
  | proceed => exact delivered_proceed hd (hroom rfl) h
  | failed => exact delivered_fail hd h

/-! ## Steps of the calls -/

/-- An operation that changes the entry of an id in the table finds no payload
for its stream in hand. -/
def Settled (s : Shared) (r : Reader) : Op → Prop
  | .insertStream => r.handing? ≠ some s.nextLocal
  | .removeStream id => r.handing? = some id → s.openSlot id = none
  | _ => True

instance (s : Shared) (r : Reader) : (op : Op) → Decidable (Settled s r op)
  | .insertStream => inferInstanceAs (Decidable (r.handing? ≠ some s.nextLocal))
  | .removeStream id => inferInstanceAs (Decidable (r.handing? = some id → s.openSlot id = none))
  | .nop | .insertWaiter _ | .removeWaiter _ | .send _ | .storeRemote _ _ | .recv _ | .dropTx _ =>
    inferInstanceAs (Decidable True)

theorem delivered_insertStream {s : Shared} {r : Reader} (hd : Delivered s r) (hs : s.Linked)
    (hr : r.handing? ≠ some s.nextLocal) : Delivered s.insertStream r := by
  have hhand : ∀ h, r.inHand s.insertStream h = r.inHand s h := by
    apply Reader.inHand_congr
    intro id hid
    apply Shared.openSlot_insertStream hs
    rintro rfl
    exact hr hid
  intro h
  rw [hhand, Shared.insertStream_slots]
  split
  · rename_i hh
    have hnone : r.inHand s h = [] := by
      cases r with
      | delivering id data =>
        rw [Reader.inHand_delivering, if_neg]
        intro ho
        rw [hh] at ho
        exact absurd (hs.made (Shared.openSlot_eq_some.mp ho).1) (Nat.lt_irrefl _)
      | _ => rfl
    rw [hnone]
    rfl
  · exact hd h

theorem delivered_removeStream {s : Shared} {r : Reader} (hd : Delivered s r) {id : UInt32}
    (hr : r.handing? = some id → s.openSlot id = none) : Delivered (s.removeStream id) r := by
  refine hd.congr (fun _ => ⟨rfl, rfl⟩) ?_
  apply Reader.inHand_congr
  intro id' hid'
  by_cases hne : id' = id
  · subst hne
    rw [Shared.openSlot_removeStream_self, hr hid']
  · exact Shared.openSlot_removeStream hne

theorem delivered_apply {s : Shared} {r : Reader} {op : Op} (hd : Delivered s r) (hs : s.Linked)
    (hr : Settled s r op) (hdrop : ∀ h, op = .dropTx h → s.Unlisted h) :
    Delivered (s.apply op) r := by
  cases op with
  | insertStream => exact delivered_insertStream hd hs hr
  | removeStream id => exact delivered_removeStream hd hr
  | storeRemote h remote =>
    rw [Shared.apply, Shared.storeRemote]
    apply hd.modifySlot
    · exact fun _ => ⟨rfl, rfl⟩
    · exact Shared.openSlot_modifySlot h fun _ => rfl
  | recv h =>
    rw [Shared.apply, Shared.recv]
    apply hd.modifySlot
    · intro slot
      refine ⟨?_, rfl⟩
      rw [List.append_assoc, List.take_append_drop]
    · exact Shared.openSlot_modifySlot h fun _ => rfl
  | dropTx h =>
    rw [Shared.apply, Shared.dropTx]
    apply hd.modifySlot
    · exact fun _ => ⟨rfl, rfl⟩
    · exact Shared.openSlot_dropTx (hdrop h rfl)
  | _ => exact hd.congr (fun _ => ⟨rfl, rfl⟩) (Reader.inHand_congr fun _ _ => rfl)

/-- The slot a `close_stream` in progress has taken from the table. -/
def Call.closes? : Call → Option Nat
  | .closing _ h _ | .closeSend _ h _ _ | .closeAck _ h _ | .closeDrop h => some h
  | _ => none

/-- A call holds a slot to close because it held it before, or has just taken
it from the table. -/
theorem Call.next_closes {s : Shared} {c c' : Call} {e : CallEvent} {op : Op}
    (h : c.next s e = some (op, c')) {k : Nat} (hk : c'.closes? = some k) :
    c.closes? = some k ∨ ∃ id, op = .removeStream id ∧ s.streams id = some k := by
  cases next_move h with
  | @closes _ id k' _ hs => exact .inr ⟨id, rfl, hs.trans hk⟩
  | closeLists | closeSends | closeAnswered | closeFails | closeTimesOut => exact .inl hk
  | _ => cases hk

/-- Only a `close_stream` drops a sender, that of the slot it has taken. -/
theorem Call.next_dropTx {s : Shared} {c c' : Call} {e : CallEvent} {k : Nat}
    (h : c.next s e = some (.dropTx k, c')) : c.closes? = some k := by
  cases next_move h with
  | closed => rfl

/-! ## Runs -/

namespace AdbClient
variable {τ : Type} [DecidableEq τ]

/-- The condition: a hand-over to an open stream finds room in its channel, and
no call opens or removes a stream that a payload in hand is for. -/
def KeepsUp (s : AdbClient τ) : Label τ → Prop
  | .reader e => e = .proceed → Room s.shared s.reader
  | .call t e => ∀ next ∈ (s.calls t).next s.shared e, Settled s.shared s.reader next.1

instance (s : AdbClient τ) : (l : Label τ) → Decidable (KeepsUp s l)
  | .reader e => inferInstanceAs (Decidable (e = .proceed → Room s.shared s.reader))
  | .call t e =>
    inferInstanceAs (Decidable
      (∀ next ∈ (s.calls t).next s.shared e, Settled s.shared s.reader next.1))

/-- The table is in order, and a slot that is being closed is not in it. -/
structure Tabled (s : AdbClient τ) : Prop where
  linked : s.shared.Linked
  closing : ∀ t h, (s.calls t).closes? = some h → s.shared.Unlisted h

omit [DecidableEq τ] in
theorem tabled_start (maxPayload : UInt32) : Tabled (start maxPayload : AdbClient τ) :=
  ⟨⟨(fun h => nomatch h), (fun h => nomatch h)⟩, fun _ _ h => nomatch h⟩

theorem tabled_step {s s' : AdbClient τ} {l : Label τ} (hi : Tabled s) (h : step s l = some s') :
    Tabled s' := by
  cases step_move h with
  | reader hnext =>
    have hkept := Reader.next_kept hnext
    exact ⟨hi.linked.congr hkept.streams hkept.opened,
      fun t k hk => (hi.closing t k hk).congr hkept.streams hkept.opened⟩
  | @call t e op c hnext =>
    refine ⟨Shared.linked_apply hi.linked op, ?_⟩
    intro t' k hk
    by_cases ht : t' = t
    · subst ht
      simp only [Function.update_self] at hk
      rcases Call.next_closes hnext hk with hold | ⟨id, rfl, hid⟩
      · exact (hi.closing t' k hold).apply op
      · exact Shared.unlisted_removeStream hi.linked hid
    · simp only [Function.update_of_ne ht] at hk
      exact (hi.closing t' k hk).apply op

structure Sound (s : AdbClient τ) : Prop where
  tabled : s.Tabled
  delivered : Delivered s.shared s.reader

omit [DecidableEq τ] in
theorem sound_start (maxPayload : UInt32) : Sound (start maxPayload : AdbClient τ) :=
  ⟨tabled_start maxPayload, fun _ => rfl⟩

theorem sound_step {s s' : AdbClient τ} {l : Label τ} (hi : Sound s) (hok : KeepsUp s l)
    (h : step s l = some s') : Sound s' := by
  refine ⟨tabled_step hi.tabled h, ?_⟩
  cases step_move h with
  | reader hnext => exact delivered_reader hi.delivered hok hnext
  | @call t e op c hnext =>
    apply delivered_apply hi.delivered hi.tabled.linked
    · exact hok (op, c) hnext
    · rintro k rfl
      exact hi.tabled.closing t k (Call.next_dropTx hnext)

/-- **Acknowledged payloads.** In a run in which every hand-over to an open
stream finds room, and no stream is opened or removed with a payload for it in
hand: what the reads of a stream returned, then what is queued for it, then the
payload in hand are the payloads acknowledged while it was open. -/
theorem reads_acknowledged (maxPayload : UInt32) {ls : List (Label τ)} {t : AdbClient τ}
    (h : run step (start maxPayload) ls = some t) (hok : Meets step KeepsUp (start maxPayload) ls)
    (k : Nat) :
    (t.shared.slots k).returned ++ (t.shared.slots k).rx ++ t.reader.inHand t.shared k =
        (t.shared.slots k).acked ∧
      (t.reader.handing? = none →
        (t.shared.slots k).returned ++ (t.shared.slots k).rx = (t.shared.slots k).acked) := by
  have hsound :=
    run_invariant (fun s l s' hi hok hs => sound_step hi hok hs) h hok (sound_start maxPayload)
  have hk := hsound.delivered k
  refine ⟨hk, ?_⟩
  intro hnone
  rw [Reader.inHand_none hnone, List.append_nil] at hk
  exact hk

/-- `open_stream` up to the device's `OKAY`. -/
def openOne : List (Label Unit) :=
  [.call () (.begin_ (.openStream "sync:")), .call () .proceed, .call () .proceed,
    .reader (.received .okay 9 1 []), .reader .proceed, .call () .proceed]

/-- A payload for the stream, acknowledged and handed over. -/
def wrteOne (data : List UInt8) : List (Label Unit) :=
  [.reader (.received .wrte 9 1 data), .reader .proceed, .reader .proceed]

theorem reads_acknowledged_two :
    ∃ t, run step (start 4096)
        (openOne ++ wrteOne [1] ++ [.call () (.begin_ (.read 1)), .call () .proceed] ++
          wrteOne [2]) = some t ∧
      (t.reader.handing? = none →
        (t.shared.slots 0).returned ++ (t.shared.slots 0).rx = (t.shared.slots 0).acked) := by
  have hsome : (run step (start 4096)
      (openOne ++ wrteOne [1] ++ [.call () (.begin_ (.read 1)), .call () .proceed] ++
        wrteOne [2])).isSome = true := by decide +kernel
  obtain ⟨t, ht⟩ := Option.isSome_iff_exists.mp hsome
  exact ⟨t, ht, (reads_acknowledged 4096 ht (by decide +kernel) 0).2⟩

/-- A stream that is not read gets 129 payloads: all are acknowledged, the last
finds the channel full. -/
theorem acknowledged_payload_dropped :
    ¬ ∀ (maxPayload : UInt32) (ls : List (Label Unit)) (t : AdbClient Unit),
      run step (start maxPayload) ls = some t → t.reader.handing? = none →
        ∀ k, (t.shared.slots k).returned ++ (t.shared.slots k).rx = (t.shared.slots k).acked := by
  intro h
  have hrun : (run step (start 4096) (openOne ++ (List.replicate 129 (wrteOne [0])).flatten)).map
      (fun t => (t.reader, (t.shared.slots 0).returned.length + (t.shared.slots 0).rx.length,
        (t.shared.slots 0).acked.length)) = some (.waiting, 128, 129) := by decide +kernel
  obtain ⟨t, ht, hlen⟩ := Option.map_eq_some_iff.mp hrun
  simp only [Prod.mk.injEq] at hlen
  obtain ⟨hwait, hqueue, hacked⟩ := hlen
  have heq := h 4096 _ t ht (by rw [hwait]; rfl) 0
  have hcount := congrArg List.length heq
  rw [List.length_append, hqueue, hacked] at hcount
  cases hcount

end AdbClient

end DroidMirror.Transport
