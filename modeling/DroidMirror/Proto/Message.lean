import DroidMirror.Lib.LittleEndian

/-! # Wire protocol: the data

`crates/proto/src/lib.rs`. The handshake is a raw prefix; everything after it
is `[u32 LE total_len][u8 type][payload]`, where `total_len` counts the type
byte and the payload. A message's texts are UTF-8 strings, as in the source. -/
namespace DroidMirror.Proto
open DroidMirror.Lib.LittleEndian

def MAGIC : List UInt8 := [0x44, 0x4D, 0x49, 0x52]
def VERSION : UInt8 := 1

/-- Largest framed message we will accept (video access units included). -/
def MAX_FRAME_LEN : UInt32 := 8 * 1024 * 1024
def MAX_CSD_LEN : Nat := 64 * 1024
def MAX_NAME_LEN : Nat := 256
def MAX_TEXT_LEN : Nat := 4096

def FLAG_KEYFRAME : UInt8 := 0x01

/-- Capability bits of the handshake. -/
def CAP_UINPUT : UInt8 := 0x01
def CAP_H265 : UInt8 := 0x02

def TAG_VIDEO_FRAME : UInt8 := 0x01
def TAG_CONFIGURE : UInt8 := 0x02
def TAG_TOUCH : UInt8 := 0x10
def TAG_KEY : UInt8 := 0x11
def TAG_TEXT : UInt8 := 0x12
def TAG_SCROLL : UInt8 := 0x13
def TAG_SET_ENCODING : UInt8 := 0x14
def TAG_KEY_SYN : UInt8 := 0x15
def TAG_PAUSE : UInt8 := 0x7F

inductive Codec where
  | h264
  | h265
  deriving DecidableEq, Repr

namespace Codec

/-- `codec as u8`. -/
def toU8 : Codec → UInt8
  | .h264 => 1
  | .h265 => 2

def fromU8 (v : UInt8) : Option Codec :=
  if v = 1 then some .h264 else if v = 2 then some .h265 else none

@[simp] theorem fromU8_toU8 (c : Codec) : fromU8 c.toU8 = some c := by
  cases c <;> decide

theorem toU8_fromU8 {v : UInt8} {c : Codec} (h : fromU8 v = some c) : c.toU8 = v := by
  unfold fromU8 at h
  split at h
  · rename_i hv; cases h; exact hv.symm
  · split at h
    · rename_i hv; cases h; exact hv.symm
    · cases h

end Codec

structure Handshake where
  version : UInt8
  codec : Codec
  width : UInt16
  height : UInt16
  csd : List UInt8
  deviceName : String
  caps : UInt8
  deriving DecidableEq

inductive Message where
  | videoFrame (ptsUs : UInt64) (keyframe : Bool) (nal : List UInt8)
  | configure (codec : Codec) (width height : UInt16) (csd : List UInt8)
  | touch (action pointerId : UInt8) (x y : Int32) (pressure : UInt16)
  | key (action : UInt8) (keycode metaState : UInt32)
  | text (s : String)
  | scroll (x y h v : Int32)
  | setEncoding (bitrate maxFps : UInt32) (maxSize : UInt16)
  | keySyn (keycode : UInt32) (action : UInt8)
  | pauseResume (on : Bool)
  /-- Any tag this build does not interpret. The payload is kept so a peer can
  round-trip it; hosts ignore it. -/
  | reserved (tag : UInt8) (payload : List UInt8)
  deriving DecidableEq

def Message.tag : Message → UInt8
  | .videoFrame .. => TAG_VIDEO_FRAME
  | .configure .. => TAG_CONFIGURE
  | .touch .. => TAG_TOUCH
  | .key .. => TAG_KEY
  | .text _ => TAG_TEXT
  | .scroll .. => TAG_SCROLL
  | .setEncoding .. => TAG_SET_ENCODING
  | .keySyn .. => TAG_KEY_SYN
  | .pauseResume _ => TAG_PAUSE
  | .reserved tag _ => tag

inductive ProtoError where
  | badMagic
  | badVersion (v : UInt8)
  | badCodec (v : UInt8)
  | truncated (need have_ : Nat)
  | badLength (n : UInt32)
  | malformed (tag : UInt8)
  | badUtf8
  deriving DecidableEq, Repr

/-- `{:02x}`. -/
def hexByte (b : UInt8) : String :=
  String.ofList [Nat.digitChar (b.toNat / 16), Nat.digitChar (b.toNat % 16)]

/-- The `Display` texts of the errors. -/
def ProtoError.toString : ProtoError → String
  | .badMagic => "bad magic"
  | .badVersion v => "unsupported version " ++ Nat.repr v.toNat
  | .badCodec v => "unknown codec " ++ Nat.repr v.toNat
  | .truncated need have_ =>
    "truncated: need " ++ Nat.repr need ++ " bytes, have " ++ Nat.repr have_
  | .badLength n => "invalid length " ++ Nat.repr n.toNat
  | .malformed tag => "malformed payload for tag 0x" ++ hexByte tag
  | .badUtf8 => "text is not utf-8"

/-! ## Text -/

/-- `s.as_bytes()`. -/
def asBytes (s : String) : List UInt8 := s.toByteArray.data.toList

/-- `String::from_utf8`. -/
def fromUtf8 (bytes : List UInt8) : Option String := String.fromUTF8? ⟨bytes.toArray⟩

@[simp] theorem fromUtf8_asBytes (s : String) : fromUtf8 (asBytes s) = some s := by
  have hb : (⟨(asBytes s).toArray⟩ : ByteArray) = s.toByteArray := rfl
  rw [fromUtf8, hb, String.fromUTF8?, dif_pos s.isValidUTF8]
  rfl

theorem asBytes_fromUtf8 {bytes : List UInt8} {s : String} (h : fromUtf8 bytes = some s) :
    asBytes s = bytes := by
  unfold fromUtf8 String.fromUTF8? at h
  split at h
  · cases h; rfl
  · cases h

end DroidMirror.Proto
