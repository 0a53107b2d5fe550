import DroidMirror.Lib.Run
import DroidMirror.Proto.Message
import DroidMirror.Transport.Protocol

/-! # Reads over USB

`crates/transport/src/adb/usb.rs`, `UsbIo::read_exact`. A call holds the lock
on the pending bytes until it returns. It fills its buffer from them, then from
one bulk IN transfer after another, and what a transfer leaves over stays
pending for the next call. So the buffers and the pending bytes are the
transfers' bytes in order, and each transfer is of whole packets
(`reads_reassemble`). The sums stay far below the largest `usize`: a slice has
`isize::MAX` bytes at most. -/
namespace DroidMirror.Transport
open DroidMirror.Lib.Run DroidMirror.Proto

/-! ## The length of a transfer -/

def roundUp (n m : Nat) : Nat := if m = 0 then n else (n + m - 1) / m * m

/-- What is asked for with `left` bytes of the buffer to fill: whole packets, 16 KiB or the packet
around it at most. -/
def bulkLen (mpsIn left : Nat) : Nat :=
  let want := max (roundUp (max left mpsIn) mpsIn) mpsIn
  let want := max (min want (16 * 1024)) mpsIn
  roundUp want mpsIn

theorem dvd_roundUp (n : Nat) {m : Nat} (h : 0 < m) : m ∣ roundUp n m := by
  rw [roundUp, if_neg (by omega)]
  exact Nat.dvd_mul_left m _

theorem le_roundUp (n : Nat) {m : Nat} (h : 0 < m) : n ≤ roundUp n m := by
  rw [roundUp, if_neg (by omega)]
  have hdiv := Nat.div_add_mod' (n + m - 1) m
  have hmod := Nat.mod_lt (n + m - 1) h
  omega

theorem bulkLen_packets {mpsIn : Nat} (left : Nat) (h : 0 < mpsIn) :
    0 < bulkLen mpsIn left ∧ mpsIn ∣ bulkLen mpsIn left := by
  refine ⟨Nat.lt_of_lt_of_le h ?_, dvd_roundUp _ h⟩
  exact Nat.le_trans (Nat.le_max_right _ _) (le_roundUp _ h)

/-! ## The loop of a call -/

/-- Where the loop stops: the call returns `Ok`, or awaits a transfer of that length. -/
inductive ReadStop where
  | returns
  | asks (want : Nat)
  deriving DecidableEq

/-- The loop of `read_exact` up to its next transfer: the bytes filled and pending there. The
buffer's length is fuel enough (`readLoop_eq`). -/
def readLoop (mpsIn len : Nat) : Nat → List UInt8 → List UInt8 → List UInt8 × List UInt8 × ReadStop
  | 0, filled, pending => (filled, pending, .returns)
  | fuel + 1, filled, pending =>
    if filled.length < len then
      if pending.isEmpty then (filled, pending, .asks (bulkLen mpsIn (len - filled.length)))
      else
        let n := min (len - filled.length) pending.length
        readLoop mpsIn len fuel (filled ++ pending.take n) (pending.drop n)
    else (filled, pending, .returns)

/-- The loop takes what fits of the pending bytes, and asks for more if they do not suffice. -/
theorem readLoop_eq (mpsIn len fuel : Nat) : ∀ filled pending : List UInt8, filled.length ≤ len →
    len - filled.length < fuel → readLoop mpsIn len fuel filled pending =
      (filled ++ pending.take (len - filled.length), pending.drop (len - filled.length),
        if filled.length + pending.length < len then
          .asks (bulkLen mpsIn (len - (filled.length + pending.length)))
        else .returns) := by
  induction fuel with
  | zero => intro filled pending _ hfuel; omega
  | succ fuel ih =>
    intro filled pending hle hfuel
    rw [readLoop]
    by_cases hlt : filled.length < len
    · rw [if_pos hlt]
      cases pending with
      | nil => simp [hlt]
      | cons b rest =>
        rw [if_neg (by simp)]
        simp only
        generalize hp : b :: rest = pending at *
        have hpos : 0 < pending.length := by simp [← hp]
        rw [ih _ _ (by simp; omega) (by simp; omega)]
        by_cases hmore : filled.length + pending.length < len
        · -- everything pending is taken, and more is asked for
          have hall : min (len - filled.length) pending.length = pending.length := by omega
          have htake : pending.take (len - filled.length) = pending :=
            List.take_of_length_le (by omega)
          rw [hall]
          simp [hmore, htake]
          omega
        · have hall : min (len - filled.length) pending.length = len - filled.length := by omega
          have hdone : len - (filled ++ pending.take (len - filled.length)).length = 0 := by
            simp; omega
          rw [hall, hdone, if_neg hmore, if_neg (by simp; omega)]
          simp
    · have hzero : len - filled.length = 0 := by omega
      rw [if_neg hlt, hzero, if_neg (by omega)]
      simp

/-! ## The calls one after another -/

/-- A call's buffer: its length and what is filled of it. -/
structure Reading where
  len : Nat
  filled : List UInt8
  deriving DecidableEq

/-- The endpoint, the call that holds the lock, and the reads made so far: what each call returned,
with its buffer, and the transfers asked for. -/
structure UsbIo where
  epIn : UInt8
  mpsIn : Nat
  pending : List UInt8
  reading : Option Reading
  returned : List (Except AdbError Unit × Reading)
  asked : List Nat
  deriving DecidableEq

inductive UsbEvent where
  /-- A call gets the lock. -/
  | readExact (len : Nat)
  /-- The transfer asked for completes. -/
  | bulkIn (result : Except String (List UInt8))

namespace UsbIo

def new (epIn : UInt8) (mpsIn : Nat) : UsbIo :=
  { epIn, mpsIn, pending := [], reading := none, returned := [], asked := [] }

/-- The call goes on until it returns or awaits a transfer. -/
def goOn (u : UsbIo) (r : Reading) : UsbIo :=
  match readLoop u.mpsIn r.len (r.len + 1) r.filled u.pending with
  | (filled, pending, .returns) =>
    { u with pending, reading := none, returned := u.returned ++ [(.ok (), ⟨r.len, filled⟩)] }
  | (filled, pending, .asks want) =>
    { u with pending, reading := some ⟨r.len, filled⟩, asked := u.asked ++ [want] }

/-- The call returns an error; what it filled stays in the caller's buffer. -/
def fail (u : UsbIo) (r : Reading) (e : AdbError) : UsbIo :=
  { u with reading := none, returned := u.returned ++ [(.error e, r)] }

def step (u : UsbIo) : UsbEvent → Option UsbIo
  | .readExact len =>
    match u.reading with
    | some _ => none
    | none => some (u.goOn ⟨len, []⟩)
  | .bulkIn result =>
    match u.reading with
    | none => none
    | some r =>
      match result with
      | .error e => some (u.fail r (.usb ("bulk in 0x" ++ hexByte u.epIn ++ ": " ++ e)))
      | .ok data =>
        if data.isEmpty then some (u.fail r (.usb "zero-length IN"))
        else some ({ u with pending := u.pending ++ data }.goOn r)

/-- The bytes a call in progress has filled. -/
def inFlight (u : UsbIo) : List UInt8 := u.reading.elim [] Reading.filled

/-- The buffers of the calls that returned `Ok`. -/
def filled (u : UsbIo) : List (List UInt8) :=
  u.returned.filterMap fun r => if r.1 = .ok () then some r.2.filled else none

/-- The bytes the calls that returned had filled, and the lengths of their buffers. -/
def handed (returned : List (Except AdbError Unit × Reading)) : List UInt8 :=
  returned.flatMap fun p => p.2.filled

def lens (returned : List (Except AdbError Unit × Reading)) : List Nat :=
  returned.map fun p => p.2.len

theorem handed_concat (l : List (Except AdbError Unit × Reading)) (e : Except AdbError Unit)
    (r : Reading) : handed (l ++ [(e, r)]) = handed l ++ r.filled := by
  rw [handed, List.flatMap_append, List.flatMap_singleton]
  rfl

theorem lens_concat (l : List (Except AdbError Unit × Reading)) (e : Except AdbError Unit)
    (r : Reading) : lens (l ++ [(e, r)]) = lens l ++ [r.len] :=
  List.map_append

/-! ### What a step does -/

theorem goOn_eq (u : UsbIo) {r : Reading} (h : r.filled.length ≤ r.len) :
    u.goOn r =
      if r.filled.length + u.pending.length < r.len then
        { u with
          pending := []
          reading := some ⟨r.len, r.filled ++ u.pending⟩
          asked := u.asked ++ [bulkLen u.mpsIn (r.len - (r.filled.length + u.pending.length))] }
      else
        { u with
          pending := u.pending.drop (r.len - r.filled.length)
          reading := none
          returned := u.returned ++
            [(.ok (), ⟨r.len, r.filled ++ u.pending.take (r.len - r.filled.length)⟩)] } := by
  rw [goOn, readLoop_eq _ _ _ _ _ h (by omega)]
  by_cases hmore : r.filled.length + u.pending.length < r.len
  · rw [if_pos hmore, if_pos hmore, List.drop_of_length_le (by omega), List.take_of_length_le (by omega)]
  · rw [if_neg hmore, if_neg hmore]

/-- What the reads keep: `got` are the bytes received, `calls` the lengths of the calls' buffers. -/
structure Keeps (mpsIn : Nat) (got : List UInt8) (calls : List Nat) (u : UsbIo) : Prop where
  mps : u.mpsIn = mpsIn
  stream : handed u.returned ++ u.inFlight ++ u.pending = got
  lens : lens u.returned ++ (u.reading.map Reading.len).toList = calls
  full : ∀ p ∈ u.returned, p.1 = .ok () → p.2.filled.length = p.2.len
  waits : ∀ r, u.reading = some r → r.filled.length < r.len ∧ u.pending = []
  asked : ∀ want ∈ u.asked, 0 < want ∧ mpsIn ∣ want

theorem keeps_new (epIn : UInt8) (mpsIn : Nat) : Keeps mpsIn [] [] (new epIn mpsIn) where
  mps := rfl
  stream := rfl
  lens := rfl
  full _ hp := nomatch hp
  waits _ hr := nomatch hr
  asked _ hw := nomatch hw

/-- The call goes on: it moves bytes from the pending ones to its buffer. -/
theorem goOn_keeps {mpsIn : Nat} {got : List UInt8} {calls : List Nat} {u : UsbIo} {r : Reading}
    (hmps : u.mpsIn = mpsIn) (hpos : 0 < mpsIn)
    (hstream : handed u.returned ++ r.filled ++ u.pending = got)
    (hlens : lens u.returned ++ [r.len] = calls)
    (hfull : ∀ p ∈ u.returned, p.1 = .ok () → p.2.filled.length = p.2.len)
    (hle : r.filled.length ≤ r.len) (hasked : ∀ want ∈ u.asked, 0 < want ∧ mpsIn ∣ want) :
    Keeps mpsIn got calls (u.goOn r) := by
  rw [goOn_eq u hle]
  split
  · rename_i hmore
    refine ⟨hmps, ?_, hlens, hfull, ?_, ?_⟩
    · show handed u.returned ++ (r.filled ++ u.pending) ++ [] = got
      rw [List.append_nil, ← List.append_assoc, hstream]
    · intro r' hr'
      cases hr'
      exact ⟨by simpa using hmore, rfl⟩
    · have hwant := bulkLen_packets (r.len - (r.filled.length + u.pending.length)) hpos
      exact List.forall_mem_append.mpr ⟨hasked, List.forall_mem_singleton.mpr (hmps ▸ hwant)⟩
  · rename_i hdone
    refine ⟨hmps, ?_, ?_, ?_, ?_, hasked⟩
    · show handed (u.returned ++ [_]) ++ [] ++ u.pending.drop _ = got
      rw [List.append_nil, handed_concat, List.append_assoc, List.append_assoc,
        List.take_append_drop, ← List.append_assoc, hstream]
    · show UsbIo.lens (u.returned ++ [_]) ++ [] = calls
      rw [List.append_nil, lens_concat, hlens]
    · refine List.forall_mem_append.mpr ⟨hfull, List.forall_mem_singleton.mpr fun _ => ?_⟩
      simp
      omega
    · intro r' hr'
      cases hr'

/-- The call fails: its buffer keeps the bytes it had filled. -/
theorem fail_keeps {mpsIn : Nat} {got : List UInt8} {calls : List Nat} {u : UsbIo} {r : Reading}
    (h : Keeps mpsIn got calls u) (hr : u.reading = some r) (e : AdbError) :
    Keeps mpsIn got calls (u.fail r e) := by
  have hstream := h.stream
  have hlens := h.lens
  rw [inFlight, hr] at hstream
  rw [hr] at hlens
  refine ⟨h.mps, ?_, ?_, ?_, ?_, h.asked⟩
  · show handed (u.returned ++ [_]) ++ [] ++ u.pending = got
    rw [List.append_nil, handed_concat]
    exact hstream
  · show UsbIo.lens (u.returned ++ [_]) ++ [] = calls
    rw [List.append_nil, lens_concat]
    exact hlens
  · refine List.forall_mem_append.mpr ⟨h.full, List.forall_mem_singleton.mpr fun hok => ?_⟩
    cases hok
  · intro r' hr'
    cases hr'

end UsbIo

/-! ## Runs -/

/-- The bytes an event brings from the device. -/
def UsbEvent.data : UsbEvent → List UInt8
  | .bulkIn (.ok data) => data
  | _ => []

/-- The buffer a call comes with. -/
def UsbEvent.len : UsbEvent → Option Nat
  | .readExact len => some len
  | .bulkIn _ => none

/-- A transfer brings bytes. -/
def UsbEvent.Brings : UsbEvent → Prop
  | .bulkIn (.ok data) => data ≠ []
  | .bulkIn (.error _) => False
  | .readExact _ => True

namespace UsbIo

/-- What a step does: a call begins, the call in progress fails, or it goes on with more bytes. -/
theorem step_cases {u u' : UsbIo} {e : UsbEvent} (h : u.step e = some u') :
    (∃ len, e = .readExact len ∧ u.reading = none ∧ u' = u.goOn ⟨len, []⟩) ∨
    (∃ r err, e.data = [] ∧ e.len = none ∧ ¬ e.Brings ∧ u.reading = some r ∧ u' = u.fail r err) ∨
    (∃ r data, e = .bulkIn (.ok data) ∧ u.reading = some r ∧
      u' = { u with pending := u.pending ++ data }.goOn r) := by
  cases e with
  | readExact len =>
    simp only [step] at h
    split at h
    · cases h
    · rename_i hr
      cases h
      exact .inl ⟨len, rfl, hr, rfl⟩
  | bulkIn result =>
    simp only [step] at h
    split at h
    · cases h
    · rename_i r hr
      cases result with
      | error e =>
        cases h
        exact .inr (.inl ⟨r, _, rfl, rfl, id, hr, rfl⟩)
      | ok data =>
        simp only at h
        split at h
        · rename_i hempty
          cases List.isEmpty_iff.mp hempty
          cases h
          exact .inr (.inl ⟨r, _, rfl, rfl, fun hne => hne rfl, hr, rfl⟩)
        · cases h
          exact .inr (.inr ⟨r, data, rfl, hr, rfl⟩)

/-- The reads keep what the events taken so far brought and asked for. -/
def Tracks (mpsIn : Nat) (past : List UsbEvent) (u : UsbIo) : Prop :=
  Keeps mpsIn (past.flatMap UsbEvent.data) (past.filterMap UsbEvent.len) u

theorem step_tracks {mpsIn : Nat} (hpos : 0 < mpsIn) {past : List UsbEvent} {u u' : UsbIo}
    {e : UsbEvent} (h : Tracks mpsIn past u) (hs : u.step e = some u') :
    Tracks mpsIn (past ++ [e]) u' := by
  have hstream := h.stream
  have hlens := h.lens
  rw [inFlight] at hstream
  rw [Tracks, List.flatMap_append, List.flatMap_singleton, List.filterMap_append]
  obtain ⟨len, rfl, hr, rfl⟩ | ⟨r, err, hdata, hlen, _, hr, rfl⟩ | ⟨r, data, rfl, hr, rfl⟩ :=
    step_cases hs
  · rw [hr] at hstream hlens
    refine goOn_keeps h.mps hpos ?_ ?_ h.full (Nat.zero_le _) h.asked
    · exact hstream.trans (List.append_nil _).symm
    · exact congrArg (· ++ [len]) ((List.append_nil _).symm.trans hlens)
  · rw [hdata, List.filterMap_cons_none hlen, List.append_nil, List.filterMap_nil, List.append_nil]
    exact fail_keeps h hr err
  · rw [hr] at hstream hlens
    refine goOn_keeps h.mps hpos ?_ ?_ h.full (Nat.le_of_lt (h.waits r hr).1) h.asked
    · show _ ++ r.filled ++ (u.pending ++ data) = _
      rw [← List.append_assoc, ← hstream]
      rfl
    · exact hlens.trans (List.append_nil _).symm

/-- Going on returns nothing but `Ok`. -/
theorem goOn_returns {u : UsbIo} (r : Reading) (h : ∀ p ∈ u.returned, p.1 = .ok ()) :
    ∀ p ∈ (u.goOn r).returned, p.1 = .ok () := by
  unfold goOn
  split
  · exact List.forall_mem_append.mpr ⟨h, List.forall_mem_singleton.mpr rfl⟩
  · exact h

/-- Without a failed or an empty transfer every call that returns returns `Ok`. -/
theorem step_returns {u u' : UsbIo} {e : UsbEvent} (h : ∀ p ∈ u.returned, p.1 = .ok ())
    (he : e.Brings) (hs : u.step e = some u') : ∀ p ∈ u'.returned, p.1 = .ok () := by
  obtain ⟨len, rfl, _, rfl⟩ | ⟨r, err, _, _, hfail, _, rfl⟩ | ⟨r, data, rfl, _, rfl⟩ :=
    step_cases hs
  · exact goOn_returns _ h
  · exact absurd he hfail
  · exact goOn_returns _ h

/-- Every run tracks its events, whatever the transfers end in. -/
theorem run_tracks {epIn : UInt8} {mpsIn : Nat} (hpos : 0 < mpsIn) {events : List UsbEvent}
    {u : UsbIo} (hrun : run step (new epIn mpsIn) events = some u) : Tracks mpsIn events u := by
  have hstart : Tracks mpsIn [] (new epIn mpsIn) := keeps_new epIn mpsIn
  have htracks : Tracks mpsIn ([] ++ events) u :=
    run_history (fun _ _ _ _ h _ hs => step_tracks hpos h hs) hrun (meets_true _ _) hstart
  exact htracks

theorem run_returns {epIn : UInt8} {mpsIn : Nat} {events : List UsbEvent} {u : UsbIo}
    (hrun : run step (new epIn mpsIn) events = some u) (hbrings : ∀ e ∈ events, e.Brings) :
    ∀ p ∈ u.returned, p.1 = .ok () := by
  have hmeets : Meets step (fun _ e => e.Brings) (new epIn mpsIn) events :=
    meets_iff.mpr fun before e after s hevents _ => hbrings e (by simp [hevents])
  have hstart : ∀ p ∈ (new epIn mpsIn).returned, p.1 = .ok () := fun _ hp => nomatch hp
  exact run_invariant (fun _ _ _ h he hs => step_returns h he hs) hrun hmeets hstart

theorem filled_of_ok {u : UsbIo} (h : ∀ p ∈ u.returned, p.1 = .ok ()) :
    u.filled = u.returned.map fun p => p.2.filled := by
  rw [filled, ← List.filterMap_eq_map]
  refine List.filterMap_congr fun p hp => ?_
  rw [if_pos (h p hp)]
  rfl

/-- **The stream is reassembled.** While every transfer brings bytes, the buffers of the calls, in
order, followed by the bytes of the call in progress and the pending ones are the bytes received; so
between calls nothing is lost or repeated. Each call fills the buffer it came with, a call waits only
once it has taken all there is, and each transfer asked for is a positive number of packets. -/
theorem reads_reassemble {epIn : UInt8} {mpsIn : Nat} (hpos : 1 ≤ mpsIn) {events : List UsbEvent}
    {u : UsbIo} (hrun : run step (new epIn mpsIn) events = some u)
    (hbrings : ∀ e ∈ events, e.Brings) :
    (u.reading = none → u.filled.flatten ++ u.pending = events.flatMap UsbEvent.data) ∧
      (∀ r, u.reading = some r → u.pending = [] ∧ r.filled.length < r.len ∧
        u.filled.flatten ++ r.filled = events.flatMap UsbEvent.data) ∧
      u.filled.map List.length ++ (u.reading.map Reading.len).toList =
        events.filterMap UsbEvent.len ∧
      ∀ want ∈ u.asked, 0 < want ∧ mpsIn ∣ want := by
  obtain ⟨_, hstream, hlens, hfull, hwaits, hasked⟩ := run_tracks hpos hrun
  have hok := run_returns hrun hbrings
  have hbytes : u.filled.flatten = handed u.returned := by
    rw [filled_of_ok hok, handed, List.flatMap_def]
  have hbuffers : u.filled.map List.length = lens u.returned := by
    rw [filled_of_ok hok, List.map_map]
    exact List.map_congr_left fun p hp => hfull p hp (hok p hp)
  rw [inFlight] at hstream
  rw [hbytes, hbuffers]
  refine ⟨?_, ?_, hlens, hasked⟩
  · intro hr
    rw [hr] at hstream
    rw [← hstream, Option.elim_none, List.append_nil]
  · intro r hr
    obtain ⟨hlt, hpending⟩ := hwaits r hr
    rw [hr, hpending, List.append_nil] at hstream
    exact ⟨hpending, hlt, hstream⟩

/-- Two calls of two bytes each, and transfers of three bytes and of one. -/
theorem reads_reassemble_two : ∃ u, run step (new 0x81 512)
    [.readExact 2, .bulkIn (.ok [1, 2, 3]), .readExact 2, .bulkIn (.ok [4])] = some u ∧
      u.filled.flatten ++ u.pending = [1, 2, 3, 4] := by
  obtain ⟨u, hrun, hreading⟩ : ∃ u, run step (new 0x81 512)
      [.readExact 2, .bulkIn (.ok [1, 2, 3]), .readExact 2, .bulkIn (.ok [4])] = some u ∧
        u.reading = none := ⟨_, rfl, rfl⟩
  exact ⟨u, hrun, (reads_reassemble (by decide) hrun (by simp [UsbEvent.Brings])).1 hreading⟩

end UsbIo

end DroidMirror.Transport
