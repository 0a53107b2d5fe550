import Mathlib.Data.List.Basic
import Mathlib.Logic.Function.Basic
import DroidMirror.Transport.Protocol
import DroidMirror.Lib.Run

/-! # The multiplexed connection

`Shared` is what the reader task and the calls of `AdbClient` share, with an
operation for each critical section. `Reader.next` is `reader_loop` and
`Call.next` the four calls on a stream, each cut at its awaits, and a run of
`step` is any interleaving of them with any packets from the device, any
failure to write and any timeout. -/
namespace DroidMirror.Transport
open DroidMirror.Lib.LittleEndian DroidMirror.Lib.Run

def ADB_MAXDATA : UInt32 := 1024 * 1024

/-- What the handshake makes of the `arg1` of the device's `CNXN`. -/
def acceptedMaxPayload (arg1 : UInt32) : UInt32 :=
  if arg1 < 4096 then 4096 else if arg1 > ADB_MAXDATA then ADB_MAXDATA else arg1

theorem acceptedMaxPayload_le (arg1 : UInt32) : acceptedMaxPayload arg1 ≤ ADB_MAXDATA := by
  unfold acceptedMaxPayload
  split
  · decide
  · split
    · exact UInt32.le_refl _
    · rename_i h
      exact UInt32.not_lt.mp h

/-- The capacity of a stream's channel. -/
def STREAM_DEPTH : Nat := 128

/-! ## Shared state -/

/-- A stream: `tx` says whether the sender is still there, `rx` is what the
channel holds. The last two are a record of what the reads took from the
channel and of the payloads acknowledged while the stream was open. -/
structure StreamSlot where
  remoteId : UInt32
  tx : Bool
  rx : List (List UInt8)
  returned : List (List UInt8)
  acked : List (List UInt8)
  deriving DecidableEq

def StreamSlot.new : StreamSlot := ⟨0, true, [], [], []⟩

inductive Ack where
  | okay (remoteId : UInt32)
  | closed
  deriving DecidableEq

/-- The slots and the oneshot channels are numbered in the order they are made;
`streams` and `waiters` list them under local ids. -/
structure Shared where
  maxPayload : UInt32
  nextLocal : UInt32
  streams : UInt32 → Option Nat
  slots : Nat → StreamSlot
  opened : Nat
  waiters : UInt32 → Option Nat
  acks : Nat → Option Ack
  asked : Nat
  sent : List PacketCall

namespace Shared

def start (maxPayload : UInt32) : Shared :=
  { maxPayload, nextLocal := 1
    streams := fun _ => none, slots := fun _ => .new, opened := 0
    waiters := fun _ => none, acks := fun _ => none, asked := 0, sent := [] }

def modifySlot (s : Shared) (h : Nat) (f : StreamSlot → StreamSlot) : Shared :=
  { s with slots := Function.update s.slots h (f (s.slots h)) }

/-- The slot listed under an id whose sender is still there. -/
def openSlot (s : Shared) (id : UInt32) : Option Nat :=
  (s.streams id).filter fun h => (s.slots h).tx

/-- A new slot under the next id. -/
def insertStream (s : Shared) : Shared :=
  { s with
    nextLocal := s.nextLocal + 1
    streams := Function.update s.streams s.nextLocal (some s.opened)
    slots := Function.update s.slots s.opened .new
    opened := s.opened + 1 }

def removeStream (s : Shared) (id : UInt32) : Shared :=
  { s with streams := Function.update s.streams id none }

/-- A new oneshot under an id; the one listed there before is dropped. -/
def insertWaiter (s : Shared) (id : UInt32) : Shared :=
  { s with waiters := Function.update s.waiters id (some s.asked), asked := s.asked + 1 }

def removeWaiter (s : Shared) (id : UInt32) : Shared :=
  { s with waiters := Function.update s.waiters id none }

/-- The waiter listed under an id is taken out and sent the ack. -/
def resolve (s : Shared) (id : UInt32) (ack : Ack) : Shared :=
  match s.waiters id with
  | none => s
  | some w => { s.removeWaiter id with acks := Function.update s.acks w (some ack) }

/-- The oneshot is neither answered nor dropped. -/
def awaits (s : Shared) (id : UInt32) (w : Nat) : Bool :=
  s.acks w = none ∧ s.waiters id = some w

def send (s : Shared) (c : PacketCall) : Shared := { s with sent := s.sent ++ [c] }

def storeRemote (s : Shared) (h : Nat) (remote : UInt32) : Shared :=
  s.modifySlot h fun slot => { slot with remoteId := remote }

/-- `rx.recv` on a channel that holds something. -/
def recv (s : Shared) (h : Nat) : Shared :=
  s.modifySlot h fun slot =>
    { slot with rx := slot.rx.drop 1, returned := slot.returned ++ slot.rx.take 1 }

def dropTx (s : Shared) (h : Nat) : Shared := s.modifySlot h fun slot => { slot with tx := false }

/-- The device's id is taken over unless one is known. -/
def learnRemote (s : Shared) (id remote : UInt32) : Shared :=
  match s.streams id with
  | none => s
  | some h => if (s.slots h).remoteId = 0 then s.storeRemote h remote else s

/-- The `OKAY` for a payload is written. -/
def acknowledge (s : Shared) (id remote : UInt32) (data : List UInt8) : Shared :=
  let sent := s.send ⟨.okay, id, remote, []⟩
  match s.openSlot id with
  | none => sent
  | some h => sent.modifySlot h fun slot => { slot with acked := slot.acked ++ [data] }

/-- `try_send`: a payload that finds the channel full is dropped. -/
def deliver (s : Shared) (id : UInt32) (data : List UInt8) : Shared :=
  match s.openSlot id with
  | none => s
  | some h =>
    if (s.slots h).rx.length < STREAM_DEPTH then
      s.modifySlot h fun slot => { slot with rx := slot.rx ++ [data] }
    else s

def hangUp (s : Shared) (id : UInt32) : Shared :=
  match s.streams id with
  | none => s
  | some h => s.dropTx h

theorem modifySlot_slots (s : Shared) (h : Nat) (f : StreamSlot → StreamSlot) (k : Nat) :
    (s.modifySlot h f).slots k = if k = h then f (s.slots k) else s.slots k := by
  by_cases hk : k = h
  · rw [hk, if_pos rfl]
    exact Function.update_self ..
  · rw [if_neg hk]
    exact Function.update_of_ne hk ..

theorem insertStream_streams (s : Shared) (id : UInt32) :
    s.insertStream.streams id = if id = s.nextLocal then some s.opened else s.streams id :=
  Function.update_apply ..

theorem insertStream_slots (s : Shared) (h : Nat) :
    s.insertStream.slots h = if h = s.opened then .new else s.slots h :=
  Function.update_apply ..

theorem removeStream_streams (s : Shared) (id id' : UInt32) :
    (s.removeStream id).streams id' = if id' = id then none else s.streams id' :=
  Function.update_apply ..

/-- What the reader task leaves alone. -/
structure Kept (s s' : Shared) : Prop where
  maxPayload : s'.maxPayload = s.maxPayload
  streams : s'.streams = s.streams
  opened : s'.opened = s.opened
  sent : ∀ c ∈ s'.sent, c ∈ s.sent ∨ c.data = []

theorem Kept.refl (s : Shared) : Kept s s := ⟨rfl, rfl, rfl, fun _ hc => .inl hc⟩

theorem Kept.modifySlot {s s' : Shared} (hk : Kept s s') (h : Nat) (f : StreamSlot → StreamSlot) :
    Kept s (s'.modifySlot h f) :=
  ⟨hk.maxPayload, hk.streams, hk.opened, hk.sent⟩

theorem kept_send (s : Shared) {p : PacketCall} (hp : p.data = []) : Kept s (s.send p) := by
  refine ⟨rfl, rfl, rfl, ?_⟩
  intro c hc
  rcases List.mem_append.mp hc with hc | hc
  · exact .inl hc
  · rw [List.mem_singleton.mp hc]
    exact .inr hp

theorem kept_learnRemote (s : Shared) (id remote : UInt32) : Kept s (s.learnRemote id remote) := by
  unfold learnRemote
  split
  · exact .refl s
  · split
    · exact (Kept.refl s).modifySlot ..
    · exact .refl s

theorem kept_resolve (s : Shared) (id : UInt32) (ack : Ack) : Kept s (s.resolve id ack) := by
  unfold resolve
  split
  · exact .refl s
  · exact ⟨rfl, rfl, rfl, fun _ hc => .inl hc⟩

theorem kept_acknowledge (s : Shared) (id remote : UInt32) (data : List UInt8) :
    Kept s (s.acknowledge id remote data) := by
  unfold acknowledge
  split
  · exact kept_send s rfl
  · exact (kept_send s rfl).modifySlot ..

theorem kept_deliver (s : Shared) (id : UInt32) (data : List UInt8) : Kept s (s.deliver id data) := by
  unfold deliver
  split
  · exact .refl s
  · split
    · exact (Kept.refl s).modifySlot ..
    · exact .refl s

theorem kept_hangUp (s : Shared) (id : UInt32) : Kept s (s.hangUp id) := by
  unfold hangUp
  split
  · exact .refl s
  · exact (Kept.refl s).modifySlot ..

end Shared

/-! ## `reader_loop` -/

/-- Where `reader_loop` stands: at `read_packet`, or inside an arm. -/
inductive Reader where
  | waiting
  | resolving (id remote : UInt32)
  | answering (id remote : UInt32) (data : List UInt8)
  | delivering (id : UInt32) (data : List UInt8)
  | closing (id : UInt32)
  | ended
  deriving DecidableEq

inductive ReaderEvent where
  | received (command : Command) (arg0 arg1 : UInt32) (data : List UInt8)
  | proceed
  | failed
  deriving DecidableEq

namespace Reader

/-- `read_packet` returned a packet. -/
def receive (s : Shared) (command : Command) (arg0 arg1 : UInt32) (data : List UInt8) :
    Shared × Reader :=
  match command with
  | .okay => (s.learnRemote arg1 arg0, .resolving arg1 arg0)
  | .wrte => (s, .answering arg1 arg0 data)
  | .clse => (s.resolve arg1 .closed, .closing arg1)
  | .auth | .cnxn | .sync | .open_ => (s, .waiting)

/-- The rest of an arm. The table stays locked from the lookup to `try_send`,
and from the lookup to `take`, so each is one step. -/
def proceed (s : Shared) : Reader → Option (Shared × Reader)
  | .resolving id remote => some (s.resolve id (.okay remote), .waiting)
  | .answering id remote data => some (s.acknowledge id remote data, .delivering id data)
  | .delivering id data => some (s.deliver id data, .waiting)
  | .closing id => some (s.hangUp id, .waiting)
  | .waiting | .ended => none

/-- `read_packet` fails, or the write of the `OKAY` does. -/
def fail (s : Shared) : Reader → Option (Shared × Reader)
  | .waiting | .answering _ _ _ => some (s, .ended)
  | _ => none

def next (s : Shared) (r : Reader) : ReaderEvent → Option (Shared × Reader)
  | .received command arg0 arg1 data =>
    if r = .waiting then some (receive s command arg0 arg1 data) else none
  | .proceed => r.proceed s
  | .failed => r.fail s

theorem next_received {s : Shared} {r : Reader} {command : Command} {arg0 arg1 : UInt32}
    {data : List UInt8} {next' : Shared × Reader}
    (h : r.next s (.received command arg0 arg1 data) = some next') :
    r = .waiting ∧ receive s command arg0 arg1 data = next' := by
  simp only [next] at h
  split at h
  · rename_i hr
    exact ⟨hr, Option.some.inj h⟩
  · cases h

theorem receive_kept (s : Shared) (command : Command) (arg0 arg1 : UInt32) (data : List UInt8) :
    s.Kept (receive s command arg0 arg1 data).1 := by
  cases command with
  | okay => exact s.kept_learnRemote ..
  | clse => exact s.kept_resolve ..
  | _ => exact .refl s

theorem proceed_kept {s s' : Shared} {r r' : Reader} (h : r.proceed s = some (s', r')) : s.Kept s' := by
  cases r with
  | resolving id remote => cases h; exact s.kept_resolve ..
  | answering id remote data => cases h; exact s.kept_acknowledge ..
  | delivering id data => cases h; exact s.kept_deliver ..
  | closing id => cases h; exact s.kept_hangUp ..
  | waiting | ended => cases h

theorem fail_eq {s s' : Shared} {r r' : Reader} (h : r.fail s = some (s', r')) :
    s' = s ∧ r' = .ended := by
  revert h
  fun_cases fail s r
  all_goals
    intro h
    cases h <;> exact ⟨rfl, rfl⟩

theorem next_kept {s s' : Shared} {r r' : Reader} {e : ReaderEvent} (h : r.next s e = some (s', r')) :
    s.Kept s' := by
  cases e with
  | received command arg0 arg1 data =>
    have hkept := receive_kept s command arg0 arg1 data
    rw [(next_received h).2] at hkept
    exact hkept
  | proceed => exact proceed_kept h
  | failed => exact (fail_eq h).1 ▸ .refl s

end Reader

/-! ## Calls -/

/-- One critical section of a call. -/
inductive Op where
  | nop
  | insertStream
  | removeStream (id : UInt32)
  | insertWaiter (id : UInt32)
  | removeWaiter (id : UInt32)
  | send (c : PacketCall)
  | storeRemote (h : Nat) (remote : UInt32)
  | recv (h : Nat)
  | dropTx (h : Nat)
  deriving DecidableEq

def Shared.apply (s : Shared) : Op → Shared
  | .nop => s
  | .insertStream => s.insertStream
  | .removeStream id => s.removeStream id
  | .insertWaiter id => s.insertWaiter id
  | .removeWaiter id => s.removeWaiter id
  | .send c => s.send c
  | .storeRemote h remote => s.storeRemote h remote
  | .recv h => s.recv h
  | .dropTx h => s.dropTx h

inductive Request where
  | openStream (dest : String)
  | read (id : UInt32)
  | write (id : UInt32) (data : List UInt8)
  | closeStream (id : UInt32)

inductive Reply where
  | opened (id : UInt32)
  | chunk (data : List UInt8)
  | wrote
  | closed
  | failed (e : AdbError)
  deriving DecidableEq

/-- Where a call stands: the critical section or the await it is at. A slot and
a waiter are the ones the call holds. -/
inductive Call where
  | idle
  | opening (id : UInt32) (h : Nat) (dest : String)
  | openSend (id : UInt32) (h : Nat) (dest : String) (w : Nat)
  | openAck (id : UInt32) (h : Nat) (w : Nat)
  | openForget (id : UInt32)
  | reading (h : Nat)
  | writing (id remote : UInt32) (chunk : List UInt8) (rest : List (List UInt8))
  | writeSend (id remote : UInt32) (chunk : List UInt8) (rest : List (List UInt8)) (w : Nat)
  | writeAck (id remote : UInt32) (rest : List (List UInt8)) (w : Nat)
  | closing (id : UInt32) (h : Nat) (remote : UInt32)
  | closeSend (id : UInt32) (h : Nat) (remote : UInt32) (w : Nat)
  | closeAck (id : UInt32) (h : Nat) (w : Nat)
  | closeDrop (h : Nat)
  | returned (r : Reply)
  deriving DecidableEq

inductive CallEvent where
  | begin_ (r : Request)
  | proceed
  | failed (e : AdbError)
  | timeout

/-- The destination with a final zero byte. -/
def openPayload (dest : String) : List UInt8 :=
  let payload := dest.toUTF8.data.toList
  if payload.getLast? = some 0 then payload else payload ++ [0]

/-- The payloads `write` cuts its data into: one empty one, or `data.chunks(max)`. -/
def writeChunks (maxPayload : UInt32) (data : List UInt8) : List (List UInt8) :=
  let max := max maxPayload.toNat 1
  if data.isEmpty then [[]]
  else (List.range ((data.length + max - 1) / max)).map fun i => slice data (i * max) ((i + 1) * max)

theorem writeChunks_length {maxPayload : UInt32} {data chunk : List UInt8}
    (h : chunk ∈ writeChunks maxPayload data) : chunk.length ≤ max maxPayload.toNat 1 := by
  unfold writeChunks at h
  split at h
  · rw [List.mem_singleton.mp h]
    exact Nat.zero_le _
  · obtain ⟨i, _, rfl⟩ := List.mem_map.mp h
    rw [length_slice, Nat.succ_mul, Nat.add_sub_cancel_left]
    exact Nat.min_le_left _ _

namespace Call

def begin_ (s : Shared) : Request → Op × Call
  | .openStream dest => (.insertStream, .opening s.nextLocal s.opened dest)
  | .read id =>
    match s.streams id with
    | none => (.nop, .returned (.failed .closed))
    | some h => (.nop, .reading h)
  | .write id data =>
    match s.streams id with
    | none => (.nop, .returned (.failed .closed))
    | some h =>
      let remote := (s.slots h).remoteId
      if remote = 0 then (.nop, .returned (.failed (.msg "stream not open")))
      else
        match writeChunks s.maxPayload data with
        | [] => (.nop, .returned .wrote)
        | chunk :: rest => (.nop, .writing id remote chunk rest)
  | .closeStream id =>
    match s.streams id with
    | none => (.nop, .returned .closed)
    | some h => (.removeStream id, .closing id h (s.slots h).remoteId)

/-- A call proceeds. One that awaits a reply or a chunk proceeds once it is
there, or its sender is gone. -/
def proceed (s : Shared) : Call → Option (Op × Call)
  | .opening id h dest => some (.insertWaiter id, .openSend id h dest s.asked)
  | .openSend id h dest w => some (.send ⟨.open_, id, 0, openPayload dest⟩, .openAck id h w)
  | .openAck id h w =>
    match s.acks w with
    | some (.okay remote) => some (.storeRemote h remote, .returned (.opened id))
    | some .closed => some (.removeStream id, .returned (.failed .closed))
    | none => if s.awaits id w then none else some (.nop, .returned (.failed .closed))
  | .openForget id => some (.removeStream id, .returned (.failed .timeout))
  | .reading h =>
    match (s.slots h).rx with
    | chunk :: _ => some (.recv h, .returned (.chunk chunk))
    | [] => if (s.slots h).tx then none else some (.nop, .returned (.failed .closed))
  | .writing id remote chunk rest => some (.insertWaiter id, .writeSend id remote chunk rest s.asked)
  | .writeSend id remote chunk rest w =>
    some (.send ⟨.wrte, id, remote, chunk⟩, .writeAck id remote rest w)
  | .writeAck id remote rest w =>
    match s.acks w with
    | some (.okay _) =>
      match rest with
      | [] => some (.nop, .returned .wrote)
      | chunk :: rest => some (.nop, .writing id remote chunk rest)
    | some .closed => some (.nop, .returned (.failed .closed))
    | none => if s.awaits id w then none else some (.nop, .returned (.failed .closed))
  | .closing id h remote => some (.insertWaiter id, .closeSend id h remote s.asked)
  | .closeSend id h remote w => some (.send ⟨.clse, id, remote, []⟩, .closeAck id h w)
  | .closeAck id h w => if s.awaits id w then none else some (.nop, .closeDrop h)
  | .closeDrop h => some (.dropTx h, .returned .closed)
  | .idle | .returned _ => none

/-- The I/O under a call's `write_packet` fails. -/
def fail (e : AdbError) : Call → Option (Op × Call)
  | .openSend _ _ _ _ | .writeSend _ _ _ _ _ => some (.nop, .returned (.failed e))
  | .closeSend id h _ w => some (.nop, .closeAck id h w)
  | _ => none

/-- The time for what a call awaits is up; a read's is its caller's. -/
def timeout (s : Shared) : Call → Option (Op × Call)
  | .openAck id _ w => if s.awaits id w then some (.removeWaiter id, .openForget id) else none
  | .reading h =>
    if (s.slots h).rx = [] ∧ (s.slots h).tx then some (.nop, .returned (.failed .timeout)) else none
  | .writeAck id _ _ w => if s.awaits id w then some (.nop, .returned (.failed .timeout)) else none
  | .closeAck id h w => if s.awaits id w then some (.nop, .closeDrop h) else none
  | _ => none

def resting : Call → Bool
  | .idle | .returned _ => true
  | _ => false

def next (s : Shared) (c : Call) : CallEvent → Option (Op × Call)
  | .begin_ r => if c.resting then some (begin_ s r) else none
  | .proceed => c.proceed s
  | .failed err => c.fail err
  | .timeout => c.timeout s

/-- What a step of a call did. -/
inductive Move (s : Shared) : Call → CallEvent → Op → Call → Prop
  | opens {c dest} (hc : c.resting = true) : Move s c (.begin_ (.openStream dest)) .insertStream
      (.opening s.nextLocal s.opened dest)
  | readGone {c id} (hc : c.resting = true) (hs : s.streams id = none) :
      Move s c (.begin_ (.read id)) .nop (.returned (.failed .closed))
  | reads {c id h} (hc : c.resting = true) (hs : s.streams id = some h) :
      Move s c (.begin_ (.read id)) .nop (.reading h)
  | writeGone {c id data} (hc : c.resting = true) (hs : s.streams id = none) :
      Move s c (.begin_ (.write id data)) .nop (.returned (.failed .closed))
  | writeEarly {c id data h} (hc : c.resting = true) (hs : s.streams id = some h)
      (hr : (s.slots h).remoteId = 0) : Move s c (.begin_ (.write id data)) .nop
      (.returned (.failed (.msg "stream not open")))
  | writesNothing {c id data h} (hc : c.resting = true) (hs : s.streams id = some h)
      (hr : (s.slots h).remoteId ≠ 0) (hd : writeChunks s.maxPayload data = []) :
      Move s c (.begin_ (.write id data)) .nop (.returned .wrote)
  | writes {c id data h chunk rest} (hc : c.resting = true) (hs : s.streams id = some h)
      (hr : (s.slots h).remoteId ≠ 0) (hd : writeChunks s.maxPayload data = chunk :: rest) :
      Move s c (.begin_ (.write id data)) .nop (.writing id (s.slots h).remoteId chunk rest)
  | closeGone {c id} (hc : c.resting = true) (hs : s.streams id = none) :
      Move s c (.begin_ (.closeStream id)) .nop (.returned .closed)
  | closes {c id h} (hc : c.resting = true) (hs : s.streams id = some h) :
      Move s c (.begin_ (.closeStream id)) (.removeStream id) (.closing id h (s.slots h).remoteId)
  | openLists {id h dest} : Move s (.opening id h dest) .proceed (.insertWaiter id)
      (.openSend id h dest s.asked)
  | openSends {id h dest w} : Move s (.openSend id h dest w) .proceed
      (.send ⟨.open_, id, 0, openPayload dest⟩) (.openAck id h w)
  | opened {id h w remote} (ha : s.acks w = some (.okay remote)) :
      Move s (.openAck id h w) .proceed (.storeRemote h remote) (.returned (.opened id))
  | openRefused {id h w} (ha : s.acks w = some .closed) :
      Move s (.openAck id h w) .proceed (.removeStream id) (.returned (.failed .closed))
  | openDropped {id h w} (ha : s.acks w = none) (hw : ¬ s.awaits id w = true) :
      Move s (.openAck id h w) .proceed .nop (.returned (.failed .closed))
  | openForgets {id} : Move s (.openForget id) .proceed (.removeStream id)
      (.returned (.failed .timeout))
  | received {h chunk rest} (hr : (s.slots h).rx = chunk :: rest) :
      Move s (.reading h) .proceed (.recv h) (.returned (.chunk chunk))
  | readEnds {h} (hr : (s.slots h).rx = []) (ht : ¬ (s.slots h).tx = true) :
      Move s (.reading h) .proceed .nop (.returned (.failed .closed))
  | writeLists {id remote chunk rest} : Move s (.writing id remote chunk rest) .proceed
      (.insertWaiter id) (.writeSend id remote chunk rest s.asked)
  | writeSends {id remote chunk rest w} : Move s (.writeSend id remote chunk rest w) .proceed
      (.send ⟨.wrte, id, remote, chunk⟩) (.writeAck id remote rest w)
  | wrote {id remote w remote'} (ha : s.acks w = some (.okay remote')) :
      Move s (.writeAck id remote [] w) .proceed .nop (.returned .wrote)
  | writesOn {id remote chunk rest w remote'} (ha : s.acks w = some (.okay remote')) :
      Move s (.writeAck id remote (chunk :: rest) w) .proceed .nop (.writing id remote chunk rest)
  | writeRefused {id remote rest w} (ha : s.acks w = some .closed) :
      Move s (.writeAck id remote rest w) .proceed .nop (.returned (.failed .closed))
  | writeDropped {id remote rest w} (ha : s.acks w = none) (hw : ¬ s.awaits id w = true) :
      Move s (.writeAck id remote rest w) .proceed .nop (.returned (.failed .closed))
  | closeLists {id h remote} : Move s (.closing id h remote) .proceed (.insertWaiter id)
      (.closeSend id h remote s.asked)
  | closeSends {id h remote w} : Move s (.closeSend id h remote w) .proceed
      (.send ⟨.clse, id, remote, []⟩) (.closeAck id h w)
  | closeAnswered {id h w} (hw : ¬ s.awaits id w = true) :
      Move s (.closeAck id h w) .proceed .nop (.closeDrop h)
  | closed {h} : Move s (.closeDrop h) .proceed (.dropTx h) (.returned .closed)
  | openFails {id h dest w err} : Move s (.openSend id h dest w) (.failed err) .nop
      (.returned (.failed err))
  | writeFails {id remote chunk rest w err} : Move s (.writeSend id remote chunk rest w) (.failed err)
      .nop (.returned (.failed err))
  | closeFails {id h remote w err} : Move s (.closeSend id h remote w) (.failed err) .nop
      (.closeAck id h w)
  | openTimesOut {id h w} (hw : s.awaits id w = true) : Move s (.openAck id h w) .timeout
      (.removeWaiter id) (.openForget id)
  | readTimesOut {h} (hr : (s.slots h).rx = []) (ht : (s.slots h).tx = true) :
      Move s (.reading h) .timeout .nop (.returned (.failed .timeout))
  | writeTimesOut {id remote rest w} (hw : s.awaits id w = true) :
      Move s (.writeAck id remote rest w) .timeout .nop (.returned (.failed .timeout))
  | closeTimesOut {id h w} (hw : s.awaits id w = true) :
      Move s (.closeAck id h w) .timeout .nop (.closeDrop h)

theorem begin_move {s : Shared} {c : Call} (hc : c.resting = true) (r : Request) :
    Move s c (.begin_ r) (begin_ s r).1 (begin_ s r).2 := by
  fun_cases begin_ s r with
  | case1 dest => exact .opens hc
  | case2 id hs => exact .readGone hc hs
  | case3 id h hs => exact .reads hc hs
  | case4 id data hs => exact .writeGone hc hs
  | case5 id data h hs remote hr => exact .writeEarly hc hs hr
  | case6 id data h hs remote hr hd => exact .writesNothing hc hs hr hd
  | case7 id data h hs remote hr chunk rest hd => exact .writes hc hs hr hd
  | case8 id hs => exact .closeGone hc hs
  | case9 id h hs => exact .closes hc hs

theorem proceed_move {s : Shared} {c c' : Call} {op : Op} (h : c.proceed s = some (op, c')) :
    Move s c .proceed op c' := by
  cases c with
  | opening id k dest => cases h; exact .openLists
  | openSend id k dest w => cases h; exact .openSends
  | openAck id k w =>
    simp only [proceed] at h
    split at h
    · cases h; exact .opened ‹_›
    · cases h; exact .openRefused ‹_›
    · split at h
      · cases h
      · cases h; exact .openDropped ‹_› ‹_›
  | openForget id => cases h; exact .openForgets
  | reading k =>
    simp only [proceed] at h
    split at h
    · cases h; exact .received ‹_›
    · split at h
      · cases h
      · cases h; exact .readEnds ‹_› ‹_›
  | writing id remote chunk rest => cases h; exact .writeLists
  | writeSend id remote chunk rest w => cases h; exact .writeSends
  | writeAck id remote rest w =>
    simp only [proceed] at h
    split at h
    · split at h
      · cases h; exact .wrote ‹_›
      · cases h; exact .writesOn ‹_›
    · cases h; exact .writeRefused ‹_›
    · split at h
      · cases h
      · cases h; exact .writeDropped ‹_› ‹_›
  | closing id k remote => cases h; exact .closeLists
  | closeSend id k remote w => cases h; exact .closeSends
  | closeAck id k w =>
    simp only [proceed] at h
    split at h
    · cases h
    · cases h; exact .closeAnswered ‹_›
  | closeDrop k => cases h; exact .closed
  | idle | returned => cases h

theorem fail_move {s : Shared} {err : AdbError} {c c' : Call} {op : Op}
    (h : c.fail err = some (op, c')) : Move s c (.failed err) op c' := by
  cases c with
  | openSend id k dest w => cases h; exact .openFails
  | writeSend id remote chunk rest w => cases h; exact .writeFails
  | closeSend id k remote w => cases h; exact .closeFails
  | _ => cases h

theorem timeout_move {s : Shared} {c c' : Call} {op : Op} (h : c.timeout s = some (op, c')) :
    Move s c .timeout op c' := by
  cases c with
  | openAck id k w =>
    simp only [timeout] at h
    split at h
    · cases h; exact .openTimesOut ‹_›
    · cases h
  | reading k =>
    simp only [timeout] at h
    split at h
    · rename_i hr
      cases h
      exact .readTimesOut hr.1 hr.2
    · cases h
  | writeAck id remote rest w =>
    simp only [timeout] at h
    split at h
    · cases h; exact .writeTimesOut ‹_›
    · cases h
  | closeAck id k w =>
    simp only [timeout] at h
    split at h
    · cases h; exact .closeTimesOut ‹_›
    · cases h
  | _ => cases h

theorem next_move {s : Shared} {c c' : Call} {e : CallEvent} {op : Op}
    (h : c.next s e = some (op, c')) : Move s c e op c' := by
  cases e with
  | begin_ r =>
    simp only [next] at h
    split at h
    · rename_i hc
      have hmove := begin_move (s := s) hc r
      rw [Option.some.inj h] at hmove
      exact hmove
    · cases h
  | proceed => exact proceed_move h
  | failed err => exact fail_move h
  | timeout => exact timeout_move h

end Call

/-! ## Runs -/

structure AdbClient (τ : Type) where
  shared : Shared
  reader : Reader
  calls : τ → Call

inductive Label (τ : Type) where
  | reader (e : ReaderEvent)
  | call (t : τ) (e : CallEvent)

namespace AdbClient
variable {τ : Type} [DecidableEq τ]

/-- After the handshake. -/
def start (maxPayload : UInt32) : AdbClient τ := ⟨.start maxPayload, .waiting, fun _ => .idle⟩

def step (s : AdbClient τ) : Label τ → Option (AdbClient τ)
  | .reader e =>
    (s.reader.next s.shared e).map fun (shared, reader) => { s with shared, reader }
  | .call t e =>
    ((s.calls t).next s.shared e).map fun (op, c) =>
      { s with shared := s.shared.apply op, calls := Function.update s.calls t c }

/-- What a step did. -/
inductive Move (s : AdbClient τ) : Label τ → AdbClient τ → Prop
  | reader {e shared reader} : s.reader.next s.shared e = some (shared, reader) →
      Move s (.reader e) { s with shared, reader }
  | call {t e op c} : (s.calls t).next s.shared e = some (op, c) →
      Move s (.call t e) { s with shared := s.shared.apply op, calls := Function.update s.calls t c }

theorem step_move {s s' : AdbClient τ} {l : Label τ} (h : step s l = some s') : Move s l s' := by
  cases l with
  | reader e =>
    obtain ⟨⟨shared, reader⟩, hnext, rfl⟩ := Option.map_eq_some_iff.mp h
    exact .reader hnext
  | call t e =>
    obtain ⟨⟨op, c⟩, hnext, rfl⟩ := Option.map_eq_some_iff.mp h
    exact .call hnext

end AdbClient

/-! ## The packets sent

Every packet a client sends has a payload that `read_packet` accepts, as long
as the destinations of its streams are such payloads. -/

namespace Call

/-- The payloads a call has still to send fit. -/
def Fits : Call → Prop
  | .opening id _ dest | .openSend id _ dest _ => (PacketCall.mk .open_ id 0 (openPayload dest)).Fits
  | .writing id remote chunk rest | .writeSend id remote chunk rest _ =>
    ∀ data ∈ chunk :: rest, (PacketCall.mk .wrte id remote data).Fits
  | .writeAck id remote rest _ => ∀ data ∈ rest, (PacketCall.mk .wrte id remote data).Fits
  | _ => True

/-- The destination of the stream the event opens, if any, fits. -/
def FitsEvent : CallEvent → Prop
  | .begin_ (.openStream dest) => (openPayload dest).length ≤ MAX_PAYLOAD.toNat
  | _ => True

theorem next_fits {s : Shared} {c c' : Call} {e : CallEvent} {op : Op} (h : c.next s e = some (op, c'))
    (hc : c.Fits) (he : FitsEvent e) (hmax : s.maxPayload ≤ ADB_MAXDATA) :
    c'.Fits ∧ ∀ p, op = .send p → p.Fits := by
  cases next_move h with
  | opens => exact ⟨he, fun p hp => Op.noConfusion hp⟩
  | @writes _ id data k chunk rest _ _ _ hd =>
    refine ⟨?_, fun p hp => Op.noConfusion hp⟩
    intro d hmem
    rw [← hd] at hmem
    have hlen := writeChunks_length hmem
    have hmax' := UInt32.le_iff_toNat_le.mp hmax
    have hcap : ADB_MAXDATA.toNat ≤ MAX_PAYLOAD.toNat := by decide
    have hone : 1 ≤ MAX_PAYLOAD.toNat := by decide
    exact Nat.le_trans hlen (Nat.max_le.mpr ⟨Nat.le_trans hmax' hcap, hone⟩)
  | openLists | writeLists | writesOn => exact ⟨hc, fun p hp => Op.noConfusion hp⟩
  | openSends =>
    refine ⟨trivial, ?_⟩
    intro p hp
    cases hp
    exact hc
  | @writeSends id remote chunk rest w =>
    refine ⟨fun d hd => hc d (List.mem_cons_of_mem chunk hd), ?_⟩
    intro p hp
    cases hp
    exact hc chunk List.mem_cons_self
  | closeSends =>
    refine ⟨trivial, ?_⟩
    intro p hp
    cases hp
    exact Nat.zero_le _
  | _ => exact ⟨trivial, fun p hp => Op.noConfusion hp⟩

end Call

theorem Shared.sent_apply (s : Shared) (op : Op) :
    (s.apply op).maxPayload = s.maxPayload ∧ ∀ c ∈ (s.apply op).sent, c ∈ s.sent ∨ op = .send c := by
  cases op with
  | send p =>
    refine ⟨rfl, ?_⟩
    intro c hc
    rcases List.mem_append.mp hc with hc | hc
    · exact .inl hc
    · exact .inr (congrArg Op.send (List.mem_singleton.mp hc).symm)
  | _ => exact ⟨rfl, fun c hc => .inl hc⟩

namespace AdbClient
variable {τ : Type} [DecidableEq τ]

structure SentFits (s : AdbClient τ) : Prop where
  max : s.shared.maxPayload ≤ ADB_MAXDATA
  calls : ∀ t, (s.calls t).Fits
  sent : ∀ c ∈ s.shared.sent, c.Fits

/-- The destination of the stream the step opens, if any, fits. -/
def DestFits (_ : AdbClient τ) : Label τ → Prop
  | .reader _ => True
  | .call _ e => Call.FitsEvent e

theorem sentFits_step {s s' : AdbClient τ} {l : Label τ} (hi : SentFits s) (hok : DestFits s l)
    (h : step s l = some s') : SentFits s' := by
  cases step_move h with
  | reader hnext =>
    have hkept := Reader.next_kept hnext
    refine ⟨hkept.maxPayload ▸ hi.max, hi.calls, ?_⟩
    intro c hc
    rcases hkept.sent c hc with hold | hempty
    · exact hi.sent c hold
    · rw [PacketCall.Fits, hempty]
      exact Nat.zero_le _
  | @call t e op c hnext =>
    obtain ⟨hcall, hsend⟩ := Call.next_fits hnext (hi.calls t) hok hi.max
    obtain ⟨hmax, hsent⟩ := s.shared.sent_apply op
    refine ⟨hmax ▸ hi.max, ?_, ?_⟩
    · intro t'
      by_cases ht : t' = t
      · rw [ht]
        simpa only [Function.update_self] using hcall
      · simpa only [Function.update_of_ne ht] using hi.calls t'
    · intro p hp
      rcases hsent p hp with hold | hop
      · exact hi.sent p hold
      · exact hsend p hop

theorem sent_fits (arg1 : UInt32) {ls : List (Label τ)} {t : AdbClient τ}
    (h : run step (start (acceptedMaxPayload arg1)) ls = some t)
    (hok : Meets step DestFits (start (acceptedMaxPayload arg1)) ls) :
    ∀ c ∈ t.shared.sent, c.Fits := by
  have hstart : SentFits (start (acceptedMaxPayload arg1) : AdbClient τ) :=
    ⟨acceptedMaxPayload_le arg1, fun _ => trivial, fun _ hc => nomatch hc⟩
  exact (run_invariant (fun s l s' hi hok hs => sentFits_step hi hok hs) h hok hstart).sent

end AdbClient

end DroidMirror.Transport
