import DroidMirror.Proto.Scalar

/-! # The server's configuration

`ServerConfig` and `fit_max_size` in `crates/server/src/control.rs`. -/
namespace DroidMirror.Server
open DroidMirror.Proto

structure ServerConfig where
  bitrate : UInt32
  maxFps : UInt32
  maxSize : UInt16
  h265 : Bool
  lib : Option String
  deriving DecidableEq

/-- `ServerConfig::default`. -/
def ServerConfig.default : ServerConfig :=
  { bitrate := 8000000, maxFps := 60, maxSize := 0, h265 := false, lib := none }

section
variable (F : Type) [F32Unsigned F]

/-- Even dimensions, longer side ≤ `maxSize` (0 = unchanged). -/
def fitMaxSize (w h : UInt32) (maxSize : UInt16) : UInt32 × UInt32 :=
  if w = 0 ∨ h = 0 then (w, h)
  else
    let maxSide := max w h
    let (nw, nh) :=
      if maxSize > 0 ∧ maxSide > maxSize.toUInt32 then
        let scale : F := F32.ofInt maxSize.toNat / F32.ofInt maxSide.toNat
        let scaled (v : UInt32) : UInt32 := F32Unsigned.toU32 (F32.round (F32.ofInt v.toNat * scale))
        (scaled w, scaled h)
      else (w, h)
    (max (nw &&& ~~~1) 2, max (nh &&& ~~~1) 2)

end

example : fitMaxSize ℚ 1080 2400 720 = (324, 720) := by decide +kernel

end DroidMirror.Server
