import DroidMirror.Proto.AnnexB
import DroidMirror.Server.Control

/-! # The encoder

`Capture` in `crates/server/src/android/capture.rs`. The framework's codec is
what the JNI calls make of it: `Encoder` is what it was told, and the answers
of the calls are arguments. -/
namespace DroidMirror.Server
open DroidMirror.Proto

/-- A `MediaCodec` instance: what it was configured with or told since. The
parameters stand for the `int` and the `float` they are handed over as. -/
structure Encoder where
  id : Nat
  width : Int32
  height : Int32
  bitrate : UInt32
  maxFps : UInt32
  released : Bool
  deriving DecidableEq

def INFO_TRY_AGAIN : Int32 := -1
def INFO_OUTPUT_FORMAT_CHANGED : Int32 := -2
def FLAG_KEY_FRAME : Int32 := 1
def FLAG_CODEC_CONFIG : Int32 := 2

/-- What `dequeueOutputBuffer` answers, and what is then read of the format or
of the buffer. -/
structure Dequeued where
  index : Int32
  /-- Those of `csd-0`, `csd-1` and `csd-2` that the new format has. -/
  csdParts : List (List UInt8)
  flags : Int32
  presentationTimeUs : Int64
  bytes : List UInt8
  deriving DecidableEq

structure EncodedAu where
  ptsUs : UInt64
  keyframe : Bool
  nal : List UInt8
  deriving DecidableEq

/-- Which of the JNI calls of `apply_params` succeed. -/
structure Applied where
  /-- The `Bundle` is made. -/
  bundle : Bool
  bitrate : Bool
  maxFps : Bool
  setParameters : Bool
  deriving DecidableEq

def Applied.all : Applied := ⟨true, true, true, true⟩

structure Capture where
  codec : Encoder
  width : Int32
  height : Int32
  codecKind : Codec
  csd : List UInt8
  paused : Bool
  bitrate : UInt32
  maxFps : UInt32
  paramsDirty : Bool
  deriving DecidableEq

namespace Capture

/-- `Capture::start` when every JNI call succeeds. -/
def start (id : Nat) (width height : Int32) (bitrate fps : UInt32) (h265 : Bool) : Capture :=
  { codec := ⟨id, width, height, bitrate, max fps 1, false⟩
    width, height
    codecKind := if h265 then .h265 else .h264
    csd := [], paused := false, bitrate, maxFps := fps, paramsDirty := false }

def readFormatCsd (c : Capture) (parts : List (List UInt8)) : Capture :=
  if parts.isEmpty then c else { c with csd := csdAnnexB parts }

/-- `none` for a JNI call that fails. -/
def poll (c : Capture) (answer : Option Dequeued) : Capture × Option EncodedAu :=
  if c.paused then (c, none)
  else
    match answer with
    | none => (c, none)
    | some d =>
      if d.index = INFO_TRY_AGAIN then (c, none)
      else if d.index = INFO_OUTPUT_FORMAT_CHANGED then (c.readFormatCsd d.csdParts, none)
      else if d.index < 0 then (c, none)
      else if d.flags &&& FLAG_CODEC_CONFIG ≠ 0 then
        (if d.bytes.isEmpty then c else { c with csd := toAnnexB d.bytes }, none)
      else if d.bytes.isEmpty then (c, none)
      else
        (c, some
          { ptsUs := .ofNat (max d.presentationTimeUs 0).toInt.toNat
            keyframe := d.flags &&& FLAG_KEY_FRAME ≠ 0
            nal := toAnnexB d.bytes })

/-- The polls of `wait_csd`, one for each answer. -/
def waitCsdLoop : Nat → Capture → List (Option Dequeued) → Capture
  | 0, c, _ => c
  | n + 1, c, answers =>
    let c := (c.poll (answers.head?.getD none)).1
    if c.csd.isEmpty then waitCsdLoop n c answers.tail else c

/-- Block briefly until SPS/PPS (or VPS) shows up; `csd` is then what was
found. -/
def waitCsd (c : Capture) (answers : List (Option Dequeued)) : Capture := waitCsdLoop 40 c answers

def release (c : Capture) : Capture := { c with codec := { c.codec with released := true } }

def setEncoding (c : Capture) (bitrate maxFps : UInt32) (_maxSize : UInt16) : Capture :=
  { c with bitrate, maxFps := max maxFps 1, paramsDirty := true }

def pause (c : Capture) (on : Bool) : Capture := { c with paused := on }

/-- What a call of the demux does to it, as `EncoderCtrl`. -/
def control (c : Capture) : Call → Capture
  | .setEncoding bitrate maxFps maxSize => c.setEncoding bitrate maxFps maxSize
  | .pause on => c.pause on
  | .touch .. | .key .. | .text _ | .scroll .. => c

def takeParamsDirty (c : Capture) : Bool × Capture := (c.paramsDirty, { c with paramsDirty := false })

/-- What the bundle carries reaches the codec if `setParameters` does. -/
def applyParams (c : Capture) (applied : Applied) : Capture :=
  if applied.bundle && applied.setParameters then
    { c with
      codec :=
        { c.codec with
          bitrate := if applied.bitrate then c.bitrate else c.codec.bitrate
          maxFps := if applied.maxFps then c.maxFps else c.codec.maxFps } }
  else c

/-! ## What polling leaves alone -/

/-- The same but for the parameter sets. -/
def Same (c c' : Capture) : Prop := ∃ csd, c' = { c with csd }

theorem Same.refl (c : Capture) : c.Same c := ⟨c.csd, rfl⟩

theorem Same.trans {c c' c'' : Capture} : c.Same c' → c'.Same c'' → c.Same c'' := by
  rintro ⟨csd, rfl⟩ ⟨csd', rfl⟩
  exact ⟨csd', rfl⟩

theorem poll_same (c : Capture) (answer : Option Dequeued) : c.Same (c.poll answer).1 := by
  fun_cases poll c answer with
  | case4 =>
    unfold readFormatCsd
    split
    · exact .refl c
    · exact ⟨_, rfl⟩
  | case6 =>
    split
    · exact .refl c
    · exact ⟨_, rfl⟩
  | _ => exact .refl c

theorem waitCsdLoop_same (n : Nat) : ∀ (c : Capture) (answers : List (Option Dequeued)),
    c.Same (waitCsdLoop n c answers) := by
  induction n with
  | zero => exact fun c _ => .refl c
  | succ n ih =>
    intro c answers
    have hpoll := poll_same c (answers.head?.getD none)
    simp only [waitCsdLoop]
    split
    · exact hpoll.trans (ih _ _)
    · exact hpoll

theorem waitCsd_same (c : Capture) (answers : List (Option Dequeued)) : c.Same (c.waitCsd answers) :=
  waitCsdLoop_same 40 c answers

/-- A paused encoder gives nothing. -/
theorem poll_paused {c : Capture} {answer : Option Dequeued} {au : EncodedAu}
    (h : (c.poll answer).2 = some au) : c.paused = false := by
  cases hp : c.paused with
  | false => rfl
  | true =>
    unfold poll at h
    rw [if_pos hp] at h
    cases h

end Capture

end DroidMirror.Server
