import DroidMirror.Lib.Chunks
import DroidMirror.Lib.Run
import DroidMirror.Proto.Message
import DroidMirror.Transport.Protocol

/-! # Writes over USB

`crates/transport/src/adb/usb.rs`, `UsbIo::write_all`. A call holds the write
lock until it returns. It sends its buffer in bulk OUT transfers of 16 KiB, and
an empty one after a buffer of whole packets. The device takes a short packet
for the end of a message; it gets every buffer that was written as a message of
its own, whatever calls compete for the lock, and joins two only where the empty
packet between them failed (`writes_framed`). -/
namespace DroidMirror.Transport
open DroidMirror.Lib.Chunks DroidMirror.Lib.Run DroidMirror.Proto

/-- How many bytes go into a transfer. -/
def bulkOutLen : Nat := 16 * 1024

/-! ## The calls one after another -/

/-- The call that holds the lock: what it has sent of its buffer, and the chunks
it has not. The first of these is in flight, or the empty packet if there is none. -/
structure Writing where
  buf : List UInt8
  sent : List UInt8
  chunks : List (List UInt8)
  deriving DecidableEq

/-- A call that returned: what went out of its buffer, and whether a short packet ended it. -/
structure Written where
  buf : List UInt8
  sent : List UInt8
  ended : Bool
  result : Except AdbError Unit
  deriving DecidableEq

/-- The endpoint, the call that holds the lock, the packets that went out and the calls that returned. -/
structure UsbOut where
  epOut : UInt8
  mpsOut : Nat
  writing : Option Writing
  wire : List (List UInt8)
  returned : List Written
  deriving DecidableEq

inductive UsbOutEvent where
  /-- A call gets the lock. -/
  | writeAll (buf : List UInt8)
  /-- The transfer in flight completes. -/
  | bulkOut
  /-- The transfer in flight fails, with so many of its packets out. -/
  | failed (e : String) (out : Nat)

/-- The buffer an event brings. -/
def UsbOutEvent.buf : UsbOutEvent → Option (List UInt8)
  | .writeAll buf => some buf
  | _ => none

/-- No transfer fails. -/
def UsbOutEvent.Completes : UsbOutEvent → Prop
  | .failed .. => False
  | _ => True

namespace UsbOut

def new (epOut : UInt8) (mpsOut : Nat) : UsbOut := ⟨epOut, mpsOut, none, [], []⟩

def send (u : UsbOut) (packets : List (List UInt8)) : UsbOut := { u with wire := u.wire ++ packets }

def finish (u : UsbOut) (buf sent : List UInt8) (ended : Bool) (result : Except AdbError Unit) : UsbOut :=
  { u with writing := none, returned := u.returned ++ [⟨buf, sent, ended, result⟩] }

/-- The call goes on to its next transfer, or returns. -/
def goOn (u : UsbOut) (w : Writing) : UsbOut :=
  match w.chunks with
  | _ :: _ => { u with writing := some w }
  | [] =>
    if ¬ w.buf.isEmpty ∧ u.mpsOut > 0 ∧ w.buf.length % u.mpsOut = 0 then { u with writing := some w }
    else u.finish w.buf w.sent (!w.buf.isEmpty) (.ok ())

def step (u : UsbOut) : UsbOutEvent → Option UsbOut
  | .writeAll buf =>
    match u.writing with
    | some _ => none
    | none => some (u.goOn ⟨buf, [], chunks bulkOutLen buf⟩)
  | .bulkOut =>
    match u.writing with
    | none => none
    | some ⟨buf, sent, chunk :: rest⟩ =>
      some ((u.send (inPackets u.mpsOut chunk)).goOn ⟨buf, sent ++ chunk, rest⟩)
    | some ⟨buf, sent, []⟩ =>
      some ((u.send (inPackets u.mpsOut [])).finish buf sent true (.ok ()))
  | .failed e out =>
    match u.writing with
    | none => none
    | some ⟨buf, sent, chunk :: _⟩ =>
      let sent := sent ++ chunk.take (out * u.mpsOut)
      let err := AdbError.usb ("bulk out 0x" ++ hexByte u.epOut ++ ": " ++ e)
      some ((u.send ((inPackets u.mpsOut chunk).take out)).finish buf sent
        (sent.length % u.mpsOut ≠ 0) (.error err))
    | some ⟨buf, sent, []⟩ =>
      some ((u.send ((inPackets u.mpsOut []).take out)).finish buf sent (0 < out) (.ok ()))

/-! ## What a step does -/

inductive Move (u : UsbOut) : UsbOutEvent → UsbOut → Prop
  | writeAll {buf : List UInt8} (h : u.writing = none) :
    Move u (.writeAll buf) (u.goOn ⟨buf, [], chunks bulkOutLen buf⟩)
  | chunk {buf sent chunk : List UInt8} {rest : List (List UInt8)}
      (h : u.writing = some ⟨buf, sent, chunk :: rest⟩) :
    Move u .bulkOut ((u.send (inPackets u.mpsOut chunk)).goOn ⟨buf, sent ++ chunk, rest⟩)
  | empty {buf sent : List UInt8} (h : u.writing = some ⟨buf, sent, []⟩) :
    Move u .bulkOut ((u.send (inPackets u.mpsOut [])).finish buf sent true (.ok ()))
  | broken {buf sent chunk : List UInt8} {rest : List (List UInt8)} (e : String) (out : Nat) (err : AdbError)
      (h : u.writing = some ⟨buf, sent, chunk :: rest⟩) :
    Move u (.failed e out) ((u.send ((inPackets u.mpsOut chunk).take out)).finish buf
      (sent ++ chunk.take (out * u.mpsOut)) ((sent ++ chunk.take (out * u.mpsOut)).length % u.mpsOut ≠ 0)
      (.error err))
  | joined {buf sent : List UInt8} (e : String) (out : Nat) (h : u.writing = some ⟨buf, sent, []⟩) :
    Move u (.failed e out) ((u.send ((inPackets u.mpsOut []).take out)).finish buf sent
      (0 < out) (.ok ()))

theorem step_move {u u' : UsbOut} {e : UsbOutEvent} (h : u.step e = some u') : Move u e u' := by
  cases e with
  | writeAll buf =>
    simp only [step] at h
    split at h
    · cases h
    · cases h
      exact .writeAll ‹_›
  | bulkOut =>
    simp only [step] at h
    split at h
    · cases h
    · cases h
      exact .chunk ‹_›
    · cases h
      exact .empty ‹_›
  | failed e out =>
    simp only [step] at h
    split at h
    · cases h
    · cases h
      exact .broken e out _ ‹_›
    · cases h
      exact .joined e out ‹_›

/-! ## What the device receives -/

/-- The messages the device has, and what it has of the next one. -/
def received (u : UsbOut) : List (List UInt8) × List UInt8 := u.wire.foldl (receive u.mpsOut) ([], [])

def join (m : List (List UInt8) × List UInt8) (w : Written) : List (List UInt8) × List UInt8 :=
  if w.ended then (m.1 ++ [m.2 ++ w.sent], []) else (m.1, m.2 ++ w.sent)

/-- What went out for the calls that returned, cut where a short packet was. -/
def joined (returned : List Written) : List (List UInt8) × List UInt8 := returned.foldl join ([], [])

theorem joined_concat (returned : List Written) (w : Written) :
    joined (returned ++ [w]) = join (joined returned) w :=
  List.foldl_append ..

def inFlight (u : UsbOut) : List UInt8 := u.writing.elim [] Writing.sent

/-- A call in progress: the chunks are those of what it has not sent, `rest`, and
it has sent whole packets before them. -/
structure Going (mpsOut : Nat) (w : Writing) (rest : List UInt8) : Prop where
  buf : w.buf = w.sent ++ rest
  chunks : w.chunks = chunks bulkOutLen rest
  whole : rest ≠ [] → mpsOut ∣ w.sent.length

/-- The chunk in flight. -/
theorem Going.cut {mpsOut : Nat} (hmult : mpsOut ∣ bulkOutLen) {buf sent chunk rest : List UInt8}
    {later : List (List UInt8)} (h : Going mpsOut ⟨buf, sent, chunk :: later⟩ rest)
    (hsent : mpsOut ∣ sent.length) :
    chunk ≠ [] ∧ sent ++ chunk <+: buf ∧
      Going mpsOut ⟨buf, sent ++ chunk, later⟩ (rest.drop bulkOutLen) := by
  have hne : rest ≠ [] := by
    rintro rfl
    have hnone := h.chunks
    rw [chunks_nil (by decide)] at hnone
    cases hnone
  have hcut := h.chunks.trans (chunks_cut (by decide) hne)
  obtain ⟨rfl, rfl⟩ := List.cons.inj hcut
  have hbuf : buf = sent ++ rest.take bulkOutLen ++ rest.drop bulkOutLen := by
    rw [List.append_assoc, List.take_append_drop]
    exact h.buf
  refine ⟨?_, ⟨_, hbuf.symm⟩, hbuf, rfl, fun hmore => ?_⟩
  · rw [Ne, List.take_eq_nil_iff]
    exact fun hnil => hnil.elim (by decide) hne
  · have hlen : bulkOutLen < rest.length := by simpa [List.drop_eq_nil_iff] using hmore
    rw [List.length_append, List.length_take, Nat.min_eq_left (Nat.le_of_lt hlen)]
    exact Nat.dvd_add hsent hmult

/-- What the calls that returned keep: `bufs` are the buffers of these. -/
structure Past (bufs : List (List UInt8)) (returned : List Written) : Prop where
  bufs : returned.map Written.buf = bufs
  sent : ∀ w ∈ returned, w.sent <+: w.buf ∧ (w.result = .ok () → w.sent = w.buf)

/-- What the writes keep: `bufs` are the buffers the calls came with. -/
structure Frames (mpsOut : Nat) (bufs : List (List UInt8)) (u : UsbOut) : Prop where
  mps : u.mpsOut = mpsOut
  received : u.received = ((joined u.returned).1, (joined u.returned).2 ++ u.inFlight)
  past : ∃ before, Past before u.returned ∧ bufs = before ++ (u.writing.map Writing.buf).toList
  going : ∀ w, u.writing = some w → w.buf ≠ [] ∧ ∃ rest, Going mpsOut w rest ∧ mpsOut ∣ w.sent.length

theorem frames_new (epOut : UInt8) (mpsOut : Nat) : Frames mpsOut [] (new epOut mpsOut) where
  mps := rfl
  received := rfl
  past := ⟨[], ⟨rfl, fun _ h => nomatch h⟩, rfl⟩
  going _ h := nomatch h

theorem Past.concat {bufs : List (List UInt8)} {returned : List Written} (h : Past bufs returned) {w : Written}
    (hsent : w.sent <+: w.buf) (hok : w.result = .ok () → w.sent = w.buf) :
    Past (bufs ++ [w.buf]) (returned ++ [w]) := by
  refine ⟨?_, List.forall_mem_append.mpr ⟨h.sent, List.forall_mem_singleton.mpr ⟨hsent, hok⟩⟩⟩
  rw [List.map_append, h.bufs]
  rfl

/-- The call returns. -/
theorem finish_frames {mpsOut : Nat} {before : List (List UInt8)} {u : UsbOut} {buf sent : List UInt8}
    {ended : Bool} {result : Except AdbError Unit} (hmps : u.mpsOut = mpsOut) (hpast : Past before u.returned)
    (hreceived : u.received = join (joined u.returned) ⟨buf, sent, ended, result⟩)
    (hsent : sent <+: buf) (hok : result = .ok () → sent = buf) :
    Frames mpsOut (before ++ [buf]) (u.finish buf sent ended result) where
  mps := hmps
  received := by
    show u.received = ((joined (u.returned ++ [_])).1, (joined (u.returned ++ [_])).2 ++ [])
    rw [joined_concat, List.append_nil, hreceived]
  past :=
    have hconcat := Past.concat (w := ⟨buf, sent, ended, result⟩) hpast hsent hok
    ⟨before ++ [buf], hconcat, (List.append_nil _).symm⟩
  going _ h := nomatch h

/-- The call goes on after what it has sent. -/
theorem goOn_frames {mpsOut : Nat} {before : List (List UInt8)} {u : UsbOut} {w : Writing} {rest : List UInt8}
    (hpos : 0 < mpsOut) (hmps : u.mpsOut = mpsOut) (hpast : Past before u.returned)
    (hgoing : Going mpsOut w rest) (hreceived : u.received = extend mpsOut (joined u.returned) w.sent) :
    Frames mpsOut (before ++ [w.buf]) (u.goOn w) := by
  have hon (hbuf : w.buf ≠ []) (hwhole : mpsOut ∣ w.sent.length) :
      Frames mpsOut (before ++ [w.buf]) { u with writing := some w } := by
    refine ⟨hmps, ?_, ⟨before, hpast, rfl⟩, fun w' hw => ?_⟩
    · show u.received = ((joined u.returned).1, (joined u.returned).2 ++ w.sent)
      rw [hreceived, extend, if_pos hwhole]
    · cases hw
      exact ⟨hbuf, rest, hgoing, hwhole⟩
  unfold goOn
  split
  · rename_i chunk chunks hchunks
    have hne : rest ≠ [] := by
      rintro rfl
      have hnone := hgoing.chunks
      rw [hchunks, chunks_nil (by decide)] at hnone
      cases hnone
    refine hon ?_ (hgoing.whole hne)
    rw [hgoing.buf]
    exact List.append_ne_nil_of_right_ne_nil _ hne
  · rename_i hchunks
    have hrest : rest = [] := by
      by_contra hne
      have hsome := hgoing.chunks
      rw [hchunks, chunks_cut (by decide) hne] at hsome
      cases hsome
    have hsent : w.sent = w.buf := by rw [hgoing.buf, hrest, List.append_nil]
    split
    · rename_i hwhole
      exact hon (by simpa using hwhole.1) (hsent ▸ hmps ▸ Nat.dvd_of_mod_eq_zero hwhole.2.2)
    · rename_i hlast
      refine finish_frames hmps hpast ?_ (hsent ▸ List.prefix_refl _) fun _ => hsent
      rw [hreceived, extend, join, hsent]
      by_cases hbuf : w.buf = []
      · simp [hbuf]
      · have hodd : ¬ mpsOut ∣ w.buf.length := by
          intro hdvd
          rw [hmps] at hlast
          exact hlast ⟨by simpa using hbuf, hpos, Nat.mod_eq_zero_of_dvd hdvd⟩
        rw [if_neg hodd, if_pos (by simpa using hbuf)]

/-- More goes over the wire. -/
theorem received_send (u : UsbOut) (packets : List (List UInt8)) :
    (u.send packets).received = packets.foldl (receive u.mpsOut) u.received :=
  List.foldl_append ..

/-- With no chunk left everything is sent. -/
theorem Going.all {mpsOut : Nat} {buf sent rest : List UInt8} (h : Going mpsOut ⟨buf, sent, []⟩ rest) :
    sent = buf := by
  have hrest : rest = [] := by
    by_contra hne
    have hsome := h.chunks
    rw [chunks_cut (by decide) hne] at hsome
    cases hsome
  have hbuf := h.buf
  rw [hrest, List.append_nil] at hbuf
  exact hbuf.symm

theorem step_frames {mpsOut : Nat} (hpos : 0 < mpsOut) (hmult : mpsOut ∣ bulkOutLen) {bufs : List (List UInt8)}
    {u u' : UsbOut} {e : UsbOutEvent} (hi : Frames mpsOut bufs u) (h : u.step e = some u') :
    Frames mpsOut (bufs ++ e.buf.toList) u' := by
  obtain ⟨hmps, hreceived, ⟨before, hpast, rfl⟩, hgoing⟩ := hi
  rw [inFlight] at hreceived
  cases step_move h with
  | @writeAll buf hnone =>
    rw [hnone, List.append_assoc]
    rw [hnone] at hreceived
    have hfirst : Going mpsOut ⟨buf, [], chunks bulkOutLen buf⟩ buf := ⟨rfl, rfl, fun _ => Nat.dvd_zero _⟩
    refine goOn_frames hpos hmps hpast hfirst ?_
    rw [hreceived]
    exact (if_pos (Nat.dvd_zero _)).symm
  | @chunk buf sent chunk later hw =>
    obtain ⟨-, rest, hrest, hwhole⟩ := hgoing _ hw
    obtain ⟨hchunk, -, hlater⟩ := hrest.cut hmult hwhole
    rw [hw] at hreceived ⊢
    show Frames mpsOut (before ++ [buf] ++ []) _
    rw [List.append_nil]
    refine goOn_frames (w := ⟨buf, sent ++ chunk, later⟩) hpos hmps hpast hlater ?_
    rw [received_send, hreceived, hmps, receive_inPackets hpos hchunk]
    exact extend_append (joined u.returned) chunk hwhole
  | @empty buf sent hw =>
    obtain ⟨-, rest, hrest, -⟩ := hgoing _ hw
    rw [hw] at hreceived ⊢
    show Frames mpsOut (before ++ [buf] ++ []) _
    rw [List.append_nil]
    refine finish_frames hmps hpast ?_ ?_ ?_
    · rw [received_send, hreceived, hmps, receive_empty hpos]
      rfl
    · exact ⟨rest, hrest.buf.symm⟩
    · exact fun _ => hrest.all
  | @broken buf sent chunk later e out err hw =>
    obtain ⟨-, rest, hrest, hwhole⟩ := hgoing _ hw
    obtain ⟨hchunk, hfront, -⟩ := hrest.cut hmult hwhole
    rw [hw] at hreceived ⊢
    show Frames mpsOut (before ++ [buf] ++ []) _
    rw [List.append_nil]
    refine finish_frames hmps hpast ?_ ?_ (fun h => nomatch h)
    · rw [received_send, hreceived, hmps, inPackets, if_neg hchunk, take_chunks hpos, receive_chunks hpos]
      refine (extend_append (joined u.returned) _ hwhole).trans ?_
      simp only [extend, join, Nat.dvd_iff_mod_eq_zero, decide_eq_true_eq]
      exact (ite_not ..).symm
    · exact ((List.prefix_append_right_inj sent).mpr (List.take_prefix _ chunk)).trans hfront
  | @joined buf sent e out hw =>
    obtain ⟨-, rest, hrest, -⟩ := hgoing _ hw
    rw [hw] at hreceived ⊢
    show Frames mpsOut (before ++ [buf] ++ []) _
    rw [List.append_nil]
    refine finish_frames hmps hpast ?_ ?_ ?_
    · rw [received_send, hreceived]
      cases out with
      | zero => rfl
      | succ out => rw [hmps, List.take_of_length_le (Nat.le_add_left 1 out), receive_empty hpos]; rfl
    · exact ⟨rest, hrest.buf.symm⟩
    · exact fun _ => hrest.all

/-! ## Runs -/

/-- Every run keeps what the writes keep, whatever the transfers end in. -/
theorem run_frames {epOut : UInt8} {mpsOut : Nat} (hmult : mpsOut ∣ bulkOutLen) {events : List UsbOutEvent}
    {u : UsbOut} (hrun : run step (new epOut mpsOut) events = some u) :
    Frames mpsOut (events.filterMap UsbOutEvent.buf) u := by
  have hpos : 0 < mpsOut := Nat.pos_of_dvd_of_pos hmult (by decide)
  have hstep : ∀ past s e s', Frames mpsOut (past.filterMap UsbOutEvent.buf) s → True → step s e = some s' →
      Frames mpsOut ((past ++ [e]).filterMap UsbOutEvent.buf) s' := by
    intro past s e s' hi _ hs
    have hfilter : (past ++ [e]).filterMap UsbOutEvent.buf = past.filterMap UsbOutEvent.buf ++ e.buf.toList := by
      rw [List.filterMap_append]
      cases e <;> rfl
    rw [hfilter]
    exact step_frames hpos hmult hi hs
  have hstart : Frames mpsOut (([] : List UsbOutEvent).filterMap UsbOutEvent.buf) (new epOut mpsOut) :=
    frames_new epOut mpsOut
  exact run_history hstep hrun (meets_true _ _) hstart

/-- No call failed, and a short packet ended each that wrote something. -/
def Clean (returned : List Written) : Prop := ∀ w ∈ returned, w.result = .ok () ∧ w.ended = !w.buf.isEmpty

theorem Clean.concat {returned : List Written} (h : Clean returned) {w : Written} (hok : w.result = .ok ())
    (hended : w.ended = !w.buf.isEmpty) : Clean (returned ++ [w]) :=
  List.forall_mem_append.mpr ⟨h, List.forall_mem_singleton.mpr ⟨hok, hended⟩⟩

theorem goOn_clean {u : UsbOut} (h : Clean u.returned) (w : Writing) : Clean (u.goOn w).returned := by
  unfold goOn
  split
  · exact h
  · split
    · exact h
    · exact h.concat rfl rfl

theorem step_clean {mpsOut : Nat} {bufs : List (List UInt8)} {u u' : UsbOut} {e : UsbOutEvent}
    (hi : Frames mpsOut bufs u) (hclean : Clean u.returned) (he : e.Completes) (h : u.step e = some u') :
    Clean u'.returned := by
  cases step_move h with
  | writeAll hnone => exact goOn_clean hclean _
  | @chunk buf sent chunk later hw => exact goOn_clean (u := u.send _) hclean _
  | @empty buf sent hw =>
    have hbuf := (hi.going _ hw).1
    exact hclean.concat rfl (by simpa using hbuf)
  | broken => cases he
  | joined => cases he

theorem joined_clean {returned : List Written} (h : Clean returned)
    (hsent : ∀ w ∈ returned, w.sent = w.buf) :
    joined returned = ((returned.map Written.buf).filter (· ≠ []), []) := by
  have hjoin (done : List (List UInt8)) :
      returned.foldl join (done, []) = (done ++ (returned.map Written.buf).filter (· ≠ []), []) := by
    induction returned generalizing done with
    | nil => rw [List.map_nil, List.filter_nil, List.append_nil]; rfl
    | cons w returned ih =>
      obtain ⟨hw, hlater⟩ := List.forall_mem_cons.mp h
      obtain ⟨hall, hsents⟩ := List.forall_mem_cons.mp hsent
      rw [List.foldl_cons, List.map_cons, join, hw.2, hall]
      by_cases hbuf : w.buf = []
      · simp [hbuf, ih hlater hsents]
      · simp [hbuf, ih hlater hsents]
  exact hjoin []

/-- Runs without a failing transfer. -/
theorem run_clean {epOut : UInt8} {mpsOut : Nat} (hmult : mpsOut ∣ bulkOutLen) {events : List UsbOutEvent}
    {u : UsbOut} (hrun : run step (new epOut mpsOut) events = some u) (hcompletes : ∀ e ∈ events, e.Completes) :
    Clean u.returned := by
  have hpos : 0 < mpsOut := Nat.pos_of_dvd_of_pos hmult (by decide)
  have hmeets : Meets step (fun _ e => e.Completes) (new epOut mpsOut) events :=
    meets_iff.mpr fun before e after s hevents _ => hcompletes e (by simp [hevents])
  have hstep : ∀ s e s', (∃ bufs, Frames mpsOut bufs s) ∧ Clean s.returned → e.Completes → step s e = some s' →
      (∃ bufs, Frames mpsOut bufs s') ∧ Clean s'.returned := by
    rintro s e s' ⟨⟨bufs, hframes⟩, hclean⟩ he hs
    exact ⟨⟨_, step_frames hpos hmult hframes hs⟩, step_clean hframes hclean he hs⟩
  have hstart : (∃ bufs, Frames mpsOut bufs (new epOut mpsOut)) ∧ Clean (new epOut mpsOut).returned :=
    ⟨⟨[], frames_new epOut mpsOut⟩, fun _ h => nomatch h⟩
  exact (run_invariant hstep hrun hmeets hstart).2

/-- **Messages.** However calls compete for the lock: they write their buffers
one after another, each from the front and, if it returns `Ok`, as a whole. The
device gets what went out for them, cut after each that a short packet ended;
and if no transfer fails, that is every buffer with bytes as a message of its
own, and of the one in progress what was sent. -/
theorem writes_framed {epOut : UInt8} {mpsOut : Nat} (hmult : mpsOut ∣ bulkOutLen) {events : List UsbOutEvent}
    {u : UsbOut} (hrun : run step (new epOut mpsOut) events = some u) :
    u.returned.map Written.buf ++ (u.writing.map Writing.buf).toList = events.filterMap UsbOutEvent.buf ∧
      (∀ w ∈ u.returned, w.sent <+: w.buf ∧ (w.result = .ok () → w.sent = w.buf)) ∧
      (∀ w, u.writing = some w → w.sent <+: w.buf) ∧
      u.received = ((joined u.returned).1, (joined u.returned).2 ++ u.inFlight) ∧
      ((∀ e ∈ events, e.Completes) → (∀ w ∈ u.returned, w.result = .ok ()) ∧
        u.received = ((u.returned.map Written.buf).filter (· ≠ []), u.inFlight)) := by
  obtain ⟨-, hreceived, ⟨before, ⟨rfl, hsent⟩, hbufs⟩, hgoing⟩ := run_frames hmult hrun
  refine ⟨hbufs.symm, hsent, fun w hw => ?_, hreceived, fun hcompletes => ?_⟩
  · obtain ⟨-, rest, hrest, -⟩ := hgoing w hw
    exact ⟨rest, hrest.buf.symm⟩
  · have hclean := run_clean hmult hrun hcompletes
    refine ⟨fun w hw => (hclean w hw).1, ?_⟩
    rw [hreceived, joined_clean hclean fun w hw => (hsent w hw).2 (hclean w hw).1]
    rfl

/-- A buffer of one whole packet, whose empty packet fails, and another one. -/
theorem writes_framed_joined : ∃ u, run step (new 1 4) [.writeAll [1, 2, 3, 4], .bulkOut, .failed "stall" 0,
    .writeAll [5], .bulkOut] = some u ∧ u.received = ([[1, 2, 3, 4, 5]], []) := by
  obtain ⟨u, hrun, hjoined⟩ : ∃ u, run step (new 1 4) [.writeAll [1, 2, 3, 4], .bulkOut, .failed "stall" 0,
      .writeAll [5], .bulkOut] = some u ∧ ((joined u.returned).1, (joined u.returned).2 ++ u.inFlight) =
        ([[1, 2, 3, 4, 5]], []) := ⟨_, rfl, rfl⟩
  exact ⟨u, hrun, (writes_framed (by decide) hrun).2.2.2.1.trans hjoined⟩

end UsbOut

end DroidMirror.Transport
