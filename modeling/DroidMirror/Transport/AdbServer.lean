import DroidMirror.Transport.AdbClient

/-! # Streams through the adb server

Each stream of `AdbServer` is a connection of its own, which a task of its own,
`pump`, reads into a channel of 128 chunks. A run of `step` is any interleaving
of the services, the pumps and the calls on the streams, which may fail or be
dropped at every await. A pump that finds its channel full waits, so that, other
than on a multiplexed connection, no chunk is dropped: what is read of a stream
is in order what its service sent, and is all of it when a stream that is still
open reports its end (`delivers`). Ids name their streams as long as they do not
wrap (`names`). -/
namespace DroidMirror.Transport
open DroidMirror.Lib.Run

/-! ## A stream -/

/-- Where `pump` stands. It ends at the end of the file, at a failed read, or because
nobody holds the receiver any more. -/
inductive Pump where
  | reading
  | sending (chunk : List UInt8)
  | finished
  | failed
  | aborted
  deriving DecidableEq

/-- What `pump` has read and not sent yet. -/
def Pump.hand : Pump → List UInt8
  | sending chunk => chunk
  | _ => []

/-- The sender is gone. -/
def Pump.over : Pump → Bool
  | finished | failed | aborted => true
  | _ => false

/-- A stream is in the hands of `open_stream`, then listed, until `close_stream` removes it,
or it is lost: its listing is overwritten, or `open_stream` is dropped. -/
inductive Life where
  | opening
  | listed (id : UInt32)
  | closed
  | lost
  deriving DecidableEq

def Life.over : Life → Bool
  | closed | lost => true
  | _ => false

/-- A stream: the place of its id among those drawn, what the service sent and the pump
has not read, whether nothing more follows, the pump and the channel. The last three are
a record of what the service sent, the reads returned and the writes wrote. -/
structure ServerStream where
  number : Option Nat
  life : Life
  socket : List UInt8
  hungUp : Bool
  pump : Pump
  rx : List (List UInt8)
  received : List UInt8
  returned : List (List UInt8)
  written : List UInt8
  deriving DecidableEq

/-- The buffer of `pump`. -/
def PUMP_BUF : Nat := 32 * 1024

inductive WireEvent where
  | arrives (bytes : List UInt8)
  | hangsUp
  | reads (n : Nat)
  | sends
  | ends
  | fails
  | aborts
  deriving DecidableEq

namespace ServerStream

def new : ServerStream := ⟨none, .opening, [], false, .reading, [], [], [], []⟩

/-- The service and `pump` at work. -/
def wire (s : ServerStream) : WireEvent → Option ServerStream
  | .arrives bytes =>
    if s.hungUp then none
    else some { s with socket := s.socket ++ bytes, received := s.received ++ bytes }
  | .hangsUp => if s.hungUp then none else some { s with hungUp := true }
  | .reads n =>
    if s.pump = .reading ∧ 0 < n ∧ n ≤ PUMP_BUF ∧ n ≤ s.socket.length then
      some { s with pump := .sending (s.socket.take n), socket := s.socket.drop n }
    else none
  | .sends =>
    match s.pump with
    | .sending chunk =>
      if s.rx.length < STREAM_DEPTH then some { s with rx := s.rx ++ [chunk], pump := .reading } else none
    | _ => none
  | .ends =>
    if s.pump = .reading ∧ s.socket = [] ∧ s.hungUp then some { s with pump := .finished } else none
  | .fails => if s.pump = .reading then some { s with pump := .failed } else none
  | .aborts => if s.life.over ∧ !s.pump.over then some { s with pump := .aborted } else none

def recv (s : ServerStream) : ServerStream :=
  { s with rx := s.rx.drop 1, returned := s.returned ++ s.rx.take 1 }

end ServerStream

/-! ## Calls -/

/-- One critical section of a call. -/
inductive ServerOp where
  | nop
  | connect
  | draw (h : Nat)
  | list (id : UInt32) (h : Nat)
  | recv (h : Nat)
  | write (h : Nat) (data : List UInt8)
  | close (id : UInt32)
  | lose (h : Nat)

/-- Where a call stands: the critical section or the await it is at. -/
inductive ServerCall where
  | idle
  | opening (dest : String)
  | naming (h : Nat)
  | listing (id : UInt32) (h : Nat)
  | reading (h : Nat)
  | writing (h : Nat) (data : List UInt8)
  | returned (r : Reply)
  deriving DecidableEq

/-- A call begins; the adb server grants the service; the call proceeds; what it awaits fails
or its caller drops it, a write then after so many bytes. -/
inductive ServerCallEvent where
  | begin_ (r : Request)
  | connected
  | proceed
  | failed (e : AdbError) (n : Nat)
  | dropped (n : Nat)

/-- The streams are numbered in the order their connections are made; `table` lists them under
their ids. -/
structure AdbServer (τ : Type) where
  nextId : UInt32
  drawn : Nat
  table : UInt32 → Option Nat
  conns : Nat → ServerStream
  opened : Nat
  calls : τ → ServerCall

namespace AdbServer
variable {τ : Type}

def start : AdbServer τ :=
  { nextId := 1, drawn := 0, table := fun _ => none, conns := fun _ => .new, opened := 0
    calls := fun _ => .idle }

def modifyStream (s : AdbServer τ) (h : Nat) (f : ServerStream → ServerStream) : AdbServer τ :=
  { s with conns := Function.update s.conns h (f (s.conns h)) }

/-- The stream listed under an id, if any, gets another life. -/
def unlist (s : AdbServer τ) (id : UInt32) (life : Life) : AdbServer τ :=
  match s.table id with
  | none => s
  | some h =>
    { s.modifyStream h fun c => { c with life } with table := Function.update s.table id none }

def apply (s : AdbServer τ) : ServerOp → AdbServer τ
  | .nop => s
  | .connect => { s with conns := Function.update s.conns s.opened .new, opened := s.opened + 1 }
  | .draw h =>
    { s.modifyStream h fun c => { c with number := some s.drawn } with
      nextId := s.nextId + 1
      drawn := s.drawn + 1 }
  | .list id h =>
    let s := s.unlist id .lost
    { s.modifyStream h fun c => { c with life := .listed id } with
      table := Function.update s.table id (some h) }
  | .recv h => s.modifyStream h ServerStream.recv
  | .write h data => s.modifyStream h fun c => { c with written := c.written ++ data }
  | .close id => s.unlist id .closed
  | .lose h => s.modifyStream h fun c => { c with life := .lost }

end AdbServer

namespace ServerCall
variable {τ : Type}

def begin_ (s : AdbServer τ) : Request → ServerOp × ServerCall
  | .openStream dest => (.nop, .opening dest)
  | .read id =>
    match s.table id with
    | none => (.nop, .returned (.failed .closed))
    | some h => (.nop, .reading h)
  | .write id data =>
    if data.isEmpty then (.nop, .returned .wrote)
    else
      match s.table id with
      | none => (.nop, .returned (.failed .closed))
      | some h => (.nop, .writing h data)
  | .closeStream id => (.close id, .returned .closed)

def proceed (s : AdbServer τ) : ServerCall → Option (ServerOp × ServerCall)
  | .naming h => some (.draw h, .listing s.nextId h)
  | .listing id h => some (.list id h, .returned (.opened id))
  | .reading h =>
    match (s.conns h).rx with
    | chunk :: _ => some (.recv h, .returned (.chunk chunk))
    | [] => if (s.conns h).pump.over then some (.nop, .returned (.failed .closed)) else none
  | .writing h data => some (.write h data, .returned .wrote)
  | .idle | .opening _ | .returned _ => none

def fail (e : AdbError) (n : Nat) : ServerCall → Option (ServerOp × ServerCall)
  | .opening _ => some (.nop, .returned (.failed e))
  | .writing h data => some (.write h (data.take n), .returned (.failed e))
  | _ => none

def drop (n : Nat) : ServerCall → Option (ServerOp × ServerCall)
  | .opening _ | .reading _ => some (.nop, .idle)
  | .naming h | .listing _ h => some (.lose h, .idle)
  | .writing h data => some (.write h (data.take n), .idle)
  | .idle | .returned _ => none

def resting : ServerCall → Bool
  | .idle | .returned _ => true
  | _ => false

def next (s : AdbServer τ) (c : ServerCall) : ServerCallEvent → Option (ServerOp × ServerCall)
  | .begin_ r => if c.resting then some (begin_ s r) else none
  | .connected =>
    match c with
    | .opening _ => some (.connect, .naming s.opened)
    | _ => none
  | .proceed => c.proceed s
  | .failed e n => c.fail e n
  | .dropped n => c.drop n

end ServerCall

inductive ServerLabel (τ : Type) where
  | wire (h : Nat) (e : WireEvent)
  | call (t : τ) (e : ServerCallEvent)

namespace AdbServer
variable {τ : Type} [DecidableEq τ]

/-- One step of the services, the pumps or the calls. -/
def step (s : AdbServer τ) : ServerLabel τ → Option (AdbServer τ)
  | .wire h e =>
    if h < s.opened then
      ((s.conns h).wire e).map fun c => { s with conns := Function.update s.conns h c }
    else none
  | .call t e =>
    ((s.calls t).next s e).map fun r =>
      { s.apply r.1 with calls := Function.update s.calls t r.2 }

end AdbServer

/-! ## What a stream keeps -/

/-- What its reads returned and its channel holds is a front of what the service sent. As long
as no read of the socket failed and the pump was not aborted, the chunk the pump has and what
it has not read are the rest. -/
structure ServerStream.Sound (s : ServerStream) : Prop where
  front : s.returned.flatten ++ s.rx.flatten <+: s.received
  whole : s.pump ≠ .failed → s.pump ≠ .aborted →
    s.returned.flatten ++ s.rx.flatten ++ s.pump.hand ++ s.socket = s.received
  finished : s.pump = .finished → s.socket = [] ∧ s.hungUp = true
  aborted : s.pump = .aborted → s.life.over = true
  room : s.rx.length ≤ STREAM_DEPTH
  chunks : ∀ c ∈ s.rx, c ≠ [] ∧ c.length ≤ PUMP_BUF
  sending : ∀ c, s.pump = .sending c → c ≠ [] ∧ c.length ≤ PUMP_BUF

namespace ServerStream

theorem sound_new : Sound new :=
  { front := List.prefix_rfl
    whole := fun _ _ => rfl
    finished := fun h => nomatch h
    aborted := fun h => nomatch h
    room := Nat.zero_le _
    chunks := fun _ h => nomatch h
    sending := fun _ h => nomatch h }

theorem Sound.recv {s : ServerStream} (h : s.Sound) : s.recv.Sound := by
  have hshift : s.recv.returned.flatten ++ s.recv.rx.flatten = s.returned.flatten ++ s.rx.flatten := by
    rw [ServerStream.recv, List.flatten_append, List.append_assoc, ← List.flatten_append,
      List.take_append_drop]
  refine { h with front := ?_, whole := ?_, room := ?_, chunks := ?_ }
  · rw [hshift]
    exact h.front
  · rw [hshift]
    exact h.whole
  · exact Nat.le_trans (List.length_drop ▸ Nat.sub_le _ _) h.room
  · exact fun c hc => h.chunks c (List.mem_of_mem_drop hc)

/-- A stream that is not over may get any life, one that is over may be lost or closed. -/
theorem Sound.live {s : ServerStream} (h : s.Sound) {life : Life}
    (hl : s.life.over = true → life.over = true) : Sound { s with life } :=
  { h with aborted := fun hp => hl (h.aborted hp) }

theorem Sound.wire {s s' : ServerStream} {e : WireEvent} (h : s.Sound) (he : s.wire e = some s') :
    s'.Sound := by
  revert he
  fun_cases ServerStream.wire s e with
  | case2 bytes hup =>
    intro he
    cases he
    refine { h with front := h.front.trans (List.prefix_append ..), whole := ?_, finished := ?_ }
    · intro hf ha
      rw [← List.append_assoc, h.whole hf ha]
    · exact fun hp => absurd (h.finished hp).2 hup
  | case4 hup =>
    intro he
    cases he
    exact { h with finished := fun hp => ⟨(h.finished hp).1, rfl⟩ }
  | case5 n hn =>
    intro he
    cases he
    obtain ⟨hp, hpos, hbuf, hle⟩ := hn
    have hwhole := h.whole (by rw [hp]; exact fun h => nomatch h) (by rw [hp]; exact fun h => nomatch h)
    refine { h with
      whole := ?_
      finished := fun hp => nomatch hp
      aborted := fun hp => nomatch hp
      sending := ?_ }
    · intro _ _
      rw [hp] at hwhole
      show _ ++ s.socket.take n ++ s.socket.drop n = _
      rw [List.append_assoc, List.take_append_drop]
      exact (congrArg (· ++ s.socket) (List.append_nil _).symm).trans hwhole
    · intro c hc
      cases hc
      rw [← List.length_pos_iff, List.length_take]
      omega
  | case7 chunk hp hroom =>
    intro he
    cases he
    have hwhole := h.whole (by rw [hp]; exact fun h => nomatch h) (by rw [hp]; exact fun h => nomatch h)
    have hshift : s.returned.flatten ++ (s.rx ++ [chunk]).flatten = s.returned.flatten ++ s.rx.flatten ++ chunk := by
      rw [List.flatten_append, List.flatten_singleton, List.append_assoc]
    rw [hp] at hwhole
    refine { h with
      front := ?_
      whole := ?_
      finished := fun hp => nomatch hp
      aborted := fun hp => nomatch hp
      room := ?_
      chunks := ?_
      sending := fun _ hp => nomatch hp }
    · rw [hshift]
      exact ⟨s.socket, hwhole⟩
    · intro _ _
      rw [hshift]
      exact (congrArg (· ++ s.socket) (List.append_nil _)).trans hwhole
    · rw [List.length_append, List.length_singleton]
      exact hroom
    · intro c hc
      rcases List.mem_append.mp hc with hc | hc
      · exact h.chunks c hc
      · rw [List.mem_singleton.mp hc]
        exact h.sending chunk hp
  | case10 hn =>
    intro he
    cases he
    obtain ⟨hp, hsocket, hup⟩ := hn
    have hwhole := h.whole (by rw [hp]; exact fun h => nomatch h) (by rw [hp]; exact fun h => nomatch h)
    rw [hp] at hwhole
    exact { h with
      whole := fun _ _ => hwhole
      finished := fun _ => ⟨hsocket, hup⟩
      aborted := fun hp => nomatch hp
      sending := fun _ hp => nomatch hp }
  | case12 hp =>
    intro he
    cases he
    exact { h with
      whole := fun hf => absurd rfl hf
      finished := fun hp => nomatch hp
      aborted := fun hp => nomatch hp
      sending := fun _ hp => nomatch hp }
  | case14 hn =>
    intro he
    cases he
    exact { h with
      whole := fun _ ha => absurd rfl ha
      finished := fun hp => nomatch hp
      aborted := fun _ => hn.1
      sending := fun _ hp => nomatch hp }
  | _ =>
    intro he
    cases he

end ServerStream

/-! ## What a step does -/

/-- The stream in the hands of an `open_stream`. -/
def ServerCall.holds : ServerCall → Option Nat
  | naming h | listing _ h => some h
  | _ => none

/-- What a step of a call does to the streams and their table. -/
inductive ServerCall.Deed {τ : Type} (s : AdbServer τ) (c : ServerCall) (e : ServerCallEvent)
    (op : ServerOp) (c' : ServerCall) : Prop
  | quiet (hop : op = .nop ∨ (∃ h, op = .recv h) ∨ ∃ h data, op = .write h data)
      (hc : c.holds = none) (hc' : c'.holds = none)
  | connects (hop : op = .connect) (hc' : c' = .naming s.opened)
  | draws {h : Nat} (hc : c = .naming h) (hop : op = .draw h) (hc' : c' = .listing s.nextId h)
  | lists {id : UInt32} {h : Nat} (hc : c = .listing id h) (hop : op = .list id h)
      (hc' : c' = .returned (.opened id))
  | closes {id : UInt32} (he : e = .begin_ (.closeStream id)) (hop : op = .close id)
      (hc' : c' = .returned .closed)
  | loses {h : Nat} (hc : c.holds = some h) (hop : op = .lose h) (hc' : c' = .idle)

theorem ServerCall.resting_holds {c : ServerCall} (h : c.resting = true) : c.holds = none := by
  cases c with
  | naming | listing => cases h
  | _ => rfl

theorem ServerCall.begin_deed {τ : Type} {s : AdbServer τ} {c : ServerCall} (hc : c.resting = true)
    (r : Request) : Deed s c (.begin_ r) (begin_ s r).1 (begin_ s r).2 := by
  have hrest := resting_holds hc
  cases r with
  | openStream dest => exact .quiet (.inl rfl) hrest rfl
  | closeStream id => exact .closes rfl rfl rfl
  | read id =>
    unfold begin_
    simp only
    split
    · exact .quiet (.inl rfl) hrest rfl
    · exact .quiet (.inl rfl) hrest rfl
  | write id data =>
    unfold begin_
    simp only
    split
    · exact .quiet (.inl rfl) hrest rfl
    · split
      · exact .quiet (.inl rfl) hrest rfl
      · exact .quiet (.inl rfl) hrest rfl

theorem ServerCall.next_deed {τ : Type} {s : AdbServer τ} {c c' : ServerCall} {e : ServerCallEvent}
    {op : ServerOp} (h : c.next s e = some (op, c')) : Deed s c e op c' := by
  cases e with
  | begin_ r =>
    simp only [next] at h
    split at h
    · rename_i hc
      have hdeed := @begin_deed τ s c hc r
      rwa [Option.some.inj h] at hdeed
    · cases h
  | connected =>
    cases c with
    | opening dest =>
      cases h
      exact .connects rfl rfl
    | _ => cases h
  | proceed =>
    cases c with
    | naming k =>
      cases h
      exact .draws rfl rfl rfl
    | listing id k =>
      cases h
      exact .lists rfl rfl rfl
    | reading k =>
      simp only [next, proceed] at h
      split at h
      · cases h
        exact .quiet (.inr (.inl ⟨k, rfl⟩)) rfl rfl
      · split at h
        · cases h
          exact .quiet (.inl rfl) rfl rfl
        · cases h
    | writing k data =>
      cases h
      exact .quiet (.inr (.inr ⟨k, data, rfl⟩)) rfl rfl
    | _ => cases h
  | failed err n =>
    cases c with
    | opening dest =>
      cases h
      exact .quiet (.inl rfl) rfl rfl
    | writing k data =>
      cases h
      exact .quiet (.inr (.inr ⟨k, _, rfl⟩)) rfl rfl
    | _ => cases h
  | dropped n =>
    cases c with
    | opening | reading =>
      cases h
      exact .quiet (.inl rfl) rfl rfl
    | naming k =>
      cases h
      exact .loses rfl rfl rfl
    | listing id k =>
      cases h
      exact .loses rfl rfl rfl
    | writing k data =>
      cases h
      exact .quiet (.inr (.inr ⟨k, _, rfl⟩)) rfl rfl
    | _ => cases h

namespace AdbServer

section
variable {τ : Type} (s : AdbServer τ)

theorem modifyStream_conns (h : Nat) (f : ServerStream → ServerStream) (k : Nat) :
    (s.modifyStream h f).conns k = if k = h then f (s.conns k) else s.conns k := by
  by_cases hk : k = h
  · rw [hk, if_pos rfl]
    exact Function.update_self ..
  · rw [if_neg hk]
    exact Function.update_of_ne hk ..

theorem unlist_conns (id : UInt32) (life : Life) (k : Nat) :
    (s.unlist id life).conns k = if s.table id = some k then { s.conns k with life } else s.conns k := by
  unfold unlist
  cases hid : s.table id with
  | none => rfl
  | some h =>
    refine (s.modifyStream_conns h (fun c => { c with life }) k).trans ?_
    by_cases hk : k = h
    · rw [if_pos hk, if_pos (congrArg some hk.symm)]
    · rw [if_neg hk, if_neg fun heq => hk (Option.some.inj heq).symm]

theorem unlist_table (id : UInt32) (life : Life) (id' : UInt32) :
    (s.unlist id life).table id' = if id' = id then none else s.table id' := by
  unfold unlist
  cases hid : s.table id with
  | none =>
    show s.table id' = _
    by_cases heq : id' = id
    · rw [if_pos heq, heq, hid]
    · rw [if_neg heq]
  | some h => exact Function.update_apply ..

theorem unlist_rest (id : UInt32) (life : Life) :
    (s.unlist id life).opened = s.opened ∧ (s.unlist id life).drawn = s.drawn ∧
      (s.unlist id life).nextId = s.nextId := by
  unfold unlist
  split
  · exact ⟨rfl, rfl, rfl⟩
  · exact ⟨rfl, rfl, rfl⟩

theorem list_conns (id : UInt32) (h k : Nat) : (s.apply (.list id h)).conns k =
    if k = h then { (s.unlist id .lost).conns k with life := .listed id }
    else (s.unlist id .lost).conns k :=
  (s.unlist id .lost).modifyStream_conns h (fun c => { c with life := .listed id }) k

theorem list_table (id : UInt32) (h : Nat) (id' : UInt32) :
    (s.apply (.list id h)).table id' = if id' = id then some h else s.table id' := by
  show Function.update (s.unlist id .lost).table id (some h) id' = _
  rw [Function.update_apply, unlist_table]
  split
  · rfl
  · rfl

end

section
variable {τ : Type} [DecidableEq τ] {s s' : AdbServer τ}

theorem step_wire {k : Nat} {e : WireEvent} (h : step s (.wire k e) = some s') :
    k < s.opened ∧ ∃ c, (s.conns k).wire e = some c ∧
      s' = { s with conns := Function.update s.conns k c } := by
  simp only [step] at h
  split at h
  · obtain ⟨c, hc, rfl⟩ := Option.map_eq_some_iff.mp h
    exact ⟨‹_›, c, hc, rfl⟩
  · cases h

theorem step_call {t : τ} {e : ServerCallEvent} (h : step s (.call t e) = some s') :
    ∃ op c, (s.calls t).Deed s e op c ∧
      s' = { s.apply op with calls := Function.update s.calls t c } := by
  obtain ⟨⟨op, c⟩, hnext, rfl⟩ := Option.map_eq_some_iff.mp h
  exact ⟨op, c, ServerCall.next_deed hnext, rfl⟩

end

end AdbServer
end DroidMirror.Transport
