import DroidMirror.Lib.Run
import DroidMirror.Proto.Handshake
import DroidMirror.Server.Capture
import DroidMirror.Server.Config

/-! # The server's session

`serve_session` and `reconfigure` in `crates/server/src/android/run.rs`, with
the `poll_in` and `read_some` of `net.rs`. A step is one turn of the loop; its
label is what the system answers in it, as far as the turn asks. -/
namespace DroidMirror.Server
open DroidMirror.Proto DroidMirror.Lib.Run

/-! ## The socket -/

/-- The kinds of error the socket functions tell apart. -/
inductive ErrorKind where
  | interrupted
  | wouldBlock
  | other
  deriving DecidableEq

/-- What `poll` returned: an error, or whether the socket is readable. -/
def pollIn : Except ErrorKind Bool → Except ErrorKind Bool
  | .error .interrupted => .ok false
  | .error .wouldBlock => .error .wouldBlock
  | .error .other => .error .other
  | .ok ready => .ok ready

def readSome : Except ErrorKind (List UInt8) → Except ErrorKind (List UInt8)
  | .error .interrupted => .ok []
  | .error .wouldBlock => .ok []
  | .error .other => .error .other
  | .ok bytes => .ok bytes

/-! ## Launch -/

structure DisplayInfo where
  width : Int32
  height : Int32
  rotation : Int32
  name : String
  deriving DecidableEq

/-- Which of the ways to inject input opened. -/
inductive InjectBackend where
  | sdk
  | uinput
  | shell
  deriving DecidableEq

/-- What the system answers up to the handshake. -/
structure Launch where
  /-- `none` if the query failed. -/
  display : Option DisplayInfo
  started : Bool
  backend : InjectBackend
  /-- A client connected. -/
  accepted : Bool
  csd : List (Option Dequeued)
  written : Bool

/-- What was dispatched and written, in order. -/
inductive Event where
  | call (c : Call)
  /-- A handshake or a `Configure`, written whole; `source` is the codec it
  speaks of. -/
  | announced (source : Nat) (codec : Codec) (width height : UInt16) (csd : List UInt8)
  /-- A frame, written whole or in part. -/
  | frame (source : Nat) (au : EncodedAu)
  deriving DecidableEq

structure Serving where
  capture : Capture
  demux : ControlDemux
  rotation : Int32
  seenW : Int32
  seenH : Int32
  /-- How many codecs were started. -/
  codecs : Nat
  log : List Event
  ended : Bool
  deriving DecidableEq

/-- What the system answers in a turn of the loop. -/
structure Turn where
  poll : Except ErrorKind Bool
  read : Except ErrorKind (List UInt8)
  applied : Applied
  output : Option Dequeued
  frameWritten : Bool
  /-- The last display check is more than 500 ms ago. -/
  elapsed : Bool
  display : Option DisplayInfo
  /-- `Capture::start` succeeds. -/
  started : Bool
  csd : List (Option Dequeued)
  configureWritten : Bool

/-- A turn in which nothing happens; what it does not ask for would succeed. -/
def Turn.idle : Turn :=
  { poll := .ok false, read := .ok [], applied := .all, output := none, frameWritten := true
    elapsed := false, display := none, started := true, csd := [], configureWritten := true }

/-- A turn that reads a message. -/
def Turn.reads (m : Message) : Turn :=
  { Turn.idle with poll := .ok true, read := m.encode.mapError fun _ => .other }

/-- A turn that finds the display at a rotation. -/
def Turn.rotates (rotation : Int32) : Turn :=
  { Turn.idle with elapsed := true, display := some ⟨1080, 1920, rotation, "Android"⟩ }

/-- A turn in which the encoder gives a unit. -/
def Turn.encodes (unit : List UInt8) : Turn := { Turn.idle with output := some ⟨0, [], 0, 0, unit⟩ }

/-- A launch that succeeds; the display is not known. -/
def Launch.plain : Launch := ⟨none, true, .sdk, true, [], true⟩

/-- Why `reconfigure` fails. -/
inductive Failure where
  | start
  | encode (e : ProtoError)
  | write
  deriving DecidableEq

namespace Serving
variable (F : Type) [F32Unsigned F] (cfg : ServerConfig)

/-- `serve_session` up to its loop; `none` if it returns before. -/
def begin_ (l : Launch) : Option Serving :=
  let info := l.display.getD ⟨1080, 1920, 0, "Android"⟩
  let (w, h) := fitMaxSize F info.width.toUInt32 info.height.toUInt32 cfg.maxSize
  if !l.started || !l.accepted then none
  else
    let capture := (Capture.start 0 w.toInt32 h.toInt32 cfg.bitrate cfg.maxFps cfg.h265).waitCsd l.csd
    let handshake : Handshake :=
      { version := VERSION, codec := capture.codecKind, width := w.toUInt16, height := h.toUInt16
        csd := capture.csd, deviceName := info.name
        caps := (if cfg.h265 then CAP_H265 else 0) ||| (if l.backend = .uinput then CAP_UINPUT else 0) }
    match encodeHandshake handshake with
    | .error _ => none
    | .ok _ =>
      if l.written then some
        { capture, demux := .new
          rotation := info.rotation, seenW := info.width, seenH := info.height, codecs := 1
          log := [.announced 0 handshake.codec handshake.width handshake.height handshake.csd]
          ended := false }
      else none

/-! ## A turn -/

/-- What the first part of a turn meets on the socket. -/
inductive Arrival where
  | nothing
  | bytes (bytes : List UInt8)
  /-- The loop is left: an error, or a read of no bytes. -/
  | gone

end Serving

def Turn.arrival (t : Turn) : Serving.Arrival :=
  match pollIn t.poll with
  | .error _ => .gone
  | .ok false => .nothing
  | .ok true =>
    match readSome t.read with
    | .error _ => .gone
    | .ok [] => .gone
    | .ok (b :: rest) => .bytes (b :: rest)

namespace Serving
variable (F : Type) [F32Unsigned F] (cfg : ServerConfig)

/-- The calls of a push, the encoder's among them. -/
def dispatch (s : Serving) (calls : List Call) : Serving :=
  { s with capture := calls.foldl Capture.control s.capture, log := s.log ++ calls.map .call }

def receive (s : Serving) (t : Turn) : Serving :=
  match t.arrival with
  | .nothing => s
  | .bytes bytes =>
    let (demux, calls, _) := s.demux.push F bytes
    { s with demux }.dispatch calls
  | .gone => { s with ended := true }

def apply (s : Serving) (t : Turn) : Serving :=
  let (dirty, capture) := s.capture.takeParamsDirty
  { s with capture := if dirty then capture.applyParams t.applied else capture }

/-- The frame of a turn. One that does not fit a message is left out. -/
def sendFrame (s : Serving) (t : Turn) : Serving :=
  let (capture, au) := s.capture.poll t.output
  let s := { s with capture }
  match au with
  | none => s
  | some au =>
    match (Message.videoFrame au.ptsUs au.keyframe au.nal).encode with
    | .error _ => s
    | .ok _ => { s with log := s.log ++ [.frame capture.codec.id au], ended := !t.frameWritten }

/-- The encoder `reconfigure` starts, once it was waited for. -/
def rebuilt (s : Serving) (t : Turn) (w h : UInt32) : Capture :=
  (Capture.start s.codecs w.toInt32 h.toInt32 cfg.bitrate cfg.maxFps cfg.h265).waitCsd t.csd

def reconfigure (s : Serving) (t : Turn) (w h : UInt32) : Serving × Except Failure Unit :=
  if !t.started then ({ s with capture := s.capture.release }, .error .start)
  else
    let capture := s.rebuilt cfg t w h
    let s := { s with capture, codecs := s.codecs + 1 }
    let codec : Codec := if cfg.h265 then .h265 else .h264
    match (Message.configure codec w.toUInt16 h.toUInt16 capture.csd).encode with
    | .error e => (s, .error (.encode e))
    | .ok _ =>
      if t.configureWritten then
        ({ s with log := s.log ++ [.announced capture.codec.id codec w.toUInt16 h.toUInt16 capture.csd] },
          .ok ())
      else (s, .error .write)

/-- The display is not the one last seen. -/
def changed (s : Serving) (now : DisplayInfo) : Bool :=
  now.rotation ≠ s.rotation || now.width ≠ s.seenW || now.height ≠ s.seenH

/-- The change a turn's display check finds, if it is made. -/
def change? (s : Serving) (t : Turn) : Option DisplayInfo :=
  if t.elapsed then t.display.filter s.changed else none

/-- The size of the encoder for a display. -/
def fitted (now : DisplayInfo) : UInt32 × UInt32 :=
  fitMaxSize F now.width.toUInt32 now.height.toUInt32 cfg.maxSize

/-- The display check: the state after it and, if `reconfigure` was called,
what it returned. -/
def checkDisplay (s : Serving) (t : Turn) : Serving × Option (Except Failure Unit) :=
  match s.change? t with
  | none => (s, none)
  | some now =>
    let s := { s with rotation := now.rotation, seenW := now.width, seenH := now.height }
    let (w, h) := fitted F cfg now
    let (s, result) := s.reconfigure cfg t w h
    (s, some result)

/-- After the loop. -/
def close (s : Serving) : Serving := { s with capture := s.capture.release }

/-- A turn up to the display check. -/
def upToCheck (s : Serving) (t : Turn) : Serving :=
  let s := s.receive F t
  if s.ended then s else (s.apply t).sendFrame t

def turn (s : Serving) (t : Turn) : Serving × Option (Except Failure Unit) :=
  let s := s.upToCheck F t
  if s.ended then (s.close, none) else s.checkDisplay F cfg t

def step (s : Serving) (t : Turn) : Option Serving :=
  if s.ended then none else some (s.turn F cfg t).1

/-! ## What the parts of a turn do -/

theorem begin_eq {l : Launch} {s : Serving} (hs : begin_ F cfg l = some s) :
    ∃ w h codec width height csd,
      s.capture = (Capture.start 0 w h cfg.bitrate cfg.maxFps cfg.h265).waitCsd l.csd ∧
        s.log = [.announced 0 codec width height csd] ∧ s.codecs = 1 ∧ s.ended = false := by
  unfold begin_ at hs
  simp only at hs
  split at hs
  · cases hs
  · split at hs
    · cases hs
    · split at hs
      · cases hs
        exact ⟨_, _, _, _, _, _, rfl, rfl, rfl, rfl⟩
      · cases hs

/-- The calls a turn dispatches. -/
def dispatched (s : Serving) (t : Turn) : List Call :=
  match t.arrival with
  | .bytes bytes => (s.demux.push F bytes).2.1
  | .nothing | .gone => []

theorem receive_eq (s : Serving) (t : Turn) : ∃ demux ended, s.receive F t =
    { s with
      demux, ended, capture := (s.dispatched F t).foldl Capture.control s.capture
      log := s.log ++ (s.dispatched F t).map .call } := by
  cases ha : t.arrival with
  | nothing => exact ⟨s.demux, s.ended, by simp [receive, dispatched, ha]⟩
  | bytes bytes => exact ⟨_, s.ended, by simp only [receive, dispatched, ha]; rfl⟩
  | gone => exact ⟨s.demux, true, by simp [receive, dispatched, ha]⟩

theorem sendFrame_cases (s : Serving) (t : Turn) : ∃ capture, s.capture.Same capture ∧
    (s.sendFrame t = { s with capture } ∨ s.capture.paused = false ∧ ∃ au, s.sendFrame t =
      { s with capture, log := s.log ++ [.frame capture.codec.id au], ended := !t.frameWritten }) := by
  refine ⟨(s.capture.poll t.output).1, s.capture.poll_same t.output, ?_⟩
  unfold sendFrame
  split
  rename_i capture au hpoll
  rw [hpoll]
  simp only
  split
  · exact .inl rfl
  · rename_i au
    split
    · exact .inl rfl
    · exact .inr ⟨Capture.poll_paused (congrArg Prod.snd hpoll), au, rfl⟩

/-- What the check compares, and the codecs started, only the check changes. -/
theorem upToCheck_frame (s : Serving) (t : Turn) :
    (s.upToCheck F t).rotation = s.rotation ∧ (s.upToCheck F t).seenW = s.seenW ∧
      (s.upToCheck F t).seenH = s.seenH ∧ (s.upToCheck F t).codecs = s.codecs := by
  obtain ⟨demux, ended, hreceive⟩ := receive_eq F s t
  obtain ⟨capture, _, hsend⟩ := ((s.receive F t).apply t).sendFrame_cases t
  unfold upToCheck
  simp only
  split
  · rw [hreceive]
    exact ⟨rfl, rfl, rfl, rfl⟩
  · rcases hsend with hsend | ⟨_, au, hsend⟩
    · rw [hsend, hreceive]
      exact ⟨rfl, rfl, rfl, rfl⟩
    · rw [hsend, hreceive]
      exact ⟨rfl, rfl, rfl, rfl⟩

theorem change_upToCheck (s : Serving) (t : Turn) : (s.upToCheck F t).change? t = s.change? t := by
  obtain ⟨hrotation, hw, hh, _⟩ := upToCheck_frame F s t
  have hchanged : (s.upToCheck F t).changed = s.changed := by
    funext now
    rw [changed, changed, hrotation, hw, hh]
  rw [change?, change?, hchanged]

theorem encode_configure_iff (codec : Codec) (width height : UInt16) (csd : List UInt8) :
    (∃ b, (Message.configure codec width height csd).encode = .ok b) ↔ csd.length ≤ 65535 := by
  constructor
  · rintro ⟨b, hb⟩
    obtain ⟨p, hp, _⟩ := bind_ok hb
    simp only [Message.encodePayload, encodeConfig] at hp
    split at hp
    · cases hp
    · rename_i hle
      exact Nat.le_of_not_lt fun hlt => hle (.inr hlt)
  · intro h
    have hfits : (Message.configure codec width height csd).Fits := by
      refine ⟨?_, h⟩
      rw [max_frame_len_toNat, Message.payloadLen]
      omega
    obtain ⟨b, hb, _⟩ := encode_spells hfits
    exact ⟨b, hb⟩

/-- The three things `reconfigure` needs. -/
structure Rebuilds (s : Serving) (t : Turn) (w h : UInt32) : Prop where
  started : t.started = true
  csd : (s.rebuilt cfg t w h).csd.length ≤ 65535
  written : t.configureWritten = true

instance (s : Serving) (t : Turn) (w h : UInt32) : Decidable (s.Rebuilds cfg t w h) :=
  decidable_of_iff
    (t.started = true ∧ (s.rebuilt cfg t w h).csd.length ≤ 65535 ∧ t.configureWritten = true)
    ⟨fun h => ⟨h.1, h.2.1, h.2.2⟩, fun h => ⟨h.started, h.csd, h.written⟩⟩

theorem reconfigure_ok {s : Serving} {t : Turn} {w h : UInt32} (hr : s.Rebuilds cfg t w h) :
    s.reconfigure cfg t w h =
      ({ s with
          capture := s.rebuilt cfg t w h, codecs := s.codecs + 1
          log := s.log ++ [.announced (s.rebuilt cfg t w h).codec.id (if cfg.h265 then .h265 else .h264)
            w.toUInt16 h.toUInt16 (s.rebuilt cfg t w h).csd] },
        .ok ()) := by
  obtain ⟨hstarted, hcsd, hwritten⟩ := hr
  obtain ⟨b, hb⟩ := (encode_configure_iff (if cfg.h265 then .h265 else .h264) w.toUInt16 h.toUInt16
    (s.rebuilt cfg t w h).csd).mpr hcsd
  unfold reconfigure
  simp only [hstarted, hwritten, hb, Bool.not_true, Bool.false_eq_true, if_false, if_true]

theorem rebuilds_of_ok {s s' : Serving} {t : Turn} {w h : UInt32}
    (hr : s.reconfigure cfg t w h = (s', .ok ())) : s.Rebuilds cfg t w h := by
  unfold reconfigure at hr
  split at hr
  · cases hr
  · rename_i hstarted
    simp only at hr
    split at hr
    · cases hr
    · rename_i b hb
      split at hr
      · rename_i hwritten
        exact ⟨by simpa using hstarted, (encode_configure_iff ..).mp ⟨b, hb⟩, hwritten⟩
      · cases hr

/-- What `reconfigure` leaves alone, also when it fails. -/
theorem reconfigure_frame (s : Serving) (t : Turn) (w h : UInt32) :
    (s.reconfigure cfg t w h).1.rotation = s.rotation ∧ (s.reconfigure cfg t w h).1.seenW = s.seenW ∧
      (s.reconfigure cfg t w h).1.seenH = s.seenH ∧ (s.reconfigure cfg t w h).1.ended = s.ended := by
  unfold reconfigure
  split
  · exact ⟨rfl, rfl, rfl, rfl⟩
  · simp only
    split
    · exact ⟨rfl, rfl, rfl, rfl⟩
    · split <;> exact ⟨rfl, rfl, rfl, rfl⟩

/-- The state a display change leaves. -/
def adopt (s : Serving) (t : Turn) (now : DisplayInfo) : Serving :=
  let capture := s.rebuilt cfg t (fitted F cfg now).1 (fitted F cfg now).2
  { s with
    rotation := now.rotation, seenW := now.width, seenH := now.height
    capture, codecs := s.codecs + 1
    log := s.log ++ [.announced capture.codec.id (if cfg.h265 then .h265 else .h264)
      (fitted F cfg now).1.toUInt16 (fitted F cfg now).2.toUInt16 capture.csd] }

theorem checkDisplay_none {s : Serving} {t : Turn} (hc : s.change? t = none) :
    s.checkDisplay F cfg t = (s, none) := by
  rw [checkDisplay, hc]

theorem checkDisplay_ok {s : Serving} {t : Turn} {now : DisplayInfo} (hc : s.change? t = some now)
    (hr : s.Rebuilds cfg t (fitted F cfg now).1 (fitted F cfg now).2) :
    s.checkDisplay F cfg t = (s.adopt F cfg t now, some (.ok ())) := by
  have hr' : Rebuilds cfg { s with rotation := now.rotation, seenW := now.width, seenH := now.height }
      t (fitted F cfg now).1 (fitted F cfg now).2 := ⟨hr.started, hr.csd, hr.written⟩
  rw [checkDisplay, hc]
  simp only [reconfigure_ok cfg hr']
  rfl

/-- What a display check that finds a change leaves, also when the change fails. -/
theorem checkDisplay_frame {s : Serving} {t : Turn} {now : DisplayInfo} (hc : s.change? t = some now) :
    (s.checkDisplay F cfg t).1.changed now = false ∧ (s.checkDisplay F cfg t).1.ended = s.ended := by
  obtain ⟨hrotation, hw, hh, hended⟩ := reconfigure_frame cfg
    { s with rotation := now.rotation, seenW := now.width, seenH := now.height } t
    (fitted F cfg now).1 (fitted F cfg now).2
  have hstate : (s.checkDisplay F cfg t).1 = (reconfigure cfg
      { s with rotation := now.rotation, seenW := now.width, seenH := now.height } t
      (fitted F cfg now).1 (fitted F cfg now).2).1 := by
    rw [checkDisplay, hc]
  rw [hstate, hended, changed, hrotation, hw, hh]
  simp

theorem rebuilds_of_check {s : Serving} {t : Turn} {now : DisplayInfo} (hc : s.change? t = some now)
    (he : ∀ e, (s.checkDisplay F cfg t).2 ≠ some (.error e)) :
    s.Rebuilds cfg t (fitted F cfg now).1 (fitted F cfg now).2 := by
  have hresult : (s.checkDisplay F cfg t).2 = some (reconfigure cfg
      { s with rotation := now.rotation, seenW := now.width, seenH := now.height } t
      (fitted F cfg now).1 (fitted F cfg now).2).2 := by
    rw [checkDisplay, hc]
  rw [hresult] at he
  cases hr : reconfigure cfg
      { s with rotation := now.rotation, seenW := now.width, seenH := now.height } t
      (fitted F cfg now).1 (fitted F cfg now).2 with
  | mk s' result =>
    rw [hr] at he
    cases result with
    | error e => exact absurd rfl (he e)
    | ok =>
      obtain ⟨hstarted, hcsd, hwritten⟩ := rebuilds_of_ok cfg hr
      exact ⟨hstarted, hcsd, hwritten⟩

end Serving

end DroidMirror.Server
