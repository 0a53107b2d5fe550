import DroidMirror.Client.Core
import DroidMirror.Proto.Scalar

/-! # Control calls

The client's methods that return bytes for the host to write: touch, key, nav,
text, scroll, encoding and pause. A call that names no point of the frame, or
a text too long for a frame, returns no bytes. -/
namespace DroidMirror
open DroidMirror.Proto

inductive TouchAction where
  | down
  | up
  | move
  | cancel
  deriving DecidableEq

/-- `action as u8`. -/
def TouchAction.toU8 : TouchAction → UInt8
  | .down => 0
  | .up => 1
  | .move => 2
  | .cancel => 3

inductive KeyAction where
  | down
  | up
  deriving DecidableEq

def KeyAction.toU8 : KeyAction → UInt8
  | .down => 0
  | .up => 1

def META_SHIFT : UInt32 := 0x1

def META_ALT : UInt32 := 0x2

def META_CTRL : UInt32 := 0x1000

def KEY_HOME : UInt32 := 3

def KEY_BACK : UInt32 := 4

def KEY_VOLUME_UP : UInt32 := 24

def KEY_VOLUME_DOWN : UInt32 := 25

def KEY_POWER : UInt32 := 26

def KEY_APP_SWITCH : UInt32 := 187

namespace Client
variable {F : Type} [F32 F]

def encode (msg : Message) : List UInt8 :=
  match msg.encode with
  | .ok b => b
  | .error _ => []

def applyRotation (nx ny : F) (quarters : UInt8) : F × F :=
  match quarters &&& 3 with
  | 0 => (nx, ny)
  | 1 => (ny, 1.0 - nx)
  | 2 => (1.0 - nx, 1.0 - ny)
  | _ => (1.0 - ny, nx)

/-- The frame's place in the view: width, height and offsets of the letterbox. -/
def letterbox (viewW viewH dispW dispH : F) : F × F × F × F :=
  let viewAspect := viewW / viewH
  let frameAspect := dispW / dispH
  if frameAspect < viewAspect then
    let boxH := viewH
    let boxW := viewH * frameAspect
    (boxW, boxH, (viewW - boxW) * 0.5, 0.0)
  else
    let boxW := viewW
    let boxH := viewW / frameAspect
    (boxW, boxH, 0.0, (viewH - boxH) * 0.5)

def clampI32 (v lo hi : Int32) : Int32 := if v < lo then lo else if hi < v then hi else v

/-- Letterboxed `css` point to device pixel inside the current frame. -/
def mapToDevice (cssX cssY viewW viewH : F) (frameW frameH : UInt16) (rotation : UInt8) :
    Option (Int32 × Int32) :=
  if viewW ≤ 0.0 ∨ viewH ≤ 0.0 ∨ frameW = 0 ∨ frameH = 0 then none
  else
    let fw : F := F32.ofInt frameW.toNat
    let fh : F := F32.ofInt frameH.toNat
    let disp := if rotation &&& 1 = 1 then (fh, fw) else (fw, fh)
    let (boxW, boxH, offX, offY) := letterbox viewW viewH disp.1 disp.2
    if boxW ≤ 0.0 ∨ boxH ≤ 0.0 then none
    else
      let nx := F32.clamp ((cssX - offX) / boxW) 0.0 1.0
      let ny := F32.clamp ((cssY - offY) / boxH) 0.0 1.0
      let n := applyRotation nx ny rotation
      let x := F32.toI32 (F32.round (n.1 * fw))
      let y := F32.toI32 (F32.round (n.2 * fh))
      some (clampI32 x 0 (.ofInt frameW.toNat - 1), clampI32 y 0 (.ofInt frameH.toNat - 1))

def touch (c : Client) (action : TouchAction) (id : UInt8) (cssX cssY viewW viewH pressure : F) :
    List UInt8 :=
  match mapToDevice cssX cssY viewW viewH c.width c.height c.rotation with
  | none => []
  | some (x, y) => encode (.touch action.toU8 id x y (encodePressure pressure))

def key (_ : Client) (action : KeyAction) (keycode metaState : UInt32) : List UInt8 :=
  encode (.key action.toU8 keycode metaState)

/-- BACK / HOME / RECENTS / POWER / volume. -/
def nav (_ : Client) (keycode : UInt32) (action : KeyAction) : List UInt8 :=
  encode (.keySyn keycode action.toU8)

def text (_ : Client) (s : String) : List UInt8 := encode (.text s)

def scroll (c : Client) (cssX cssY viewW viewH hscroll vscroll : F) : List UInt8 :=
  match mapToDevice cssX cssY viewW viewH c.width c.height c.rotation with
  | none => []
  | some (x, y) => encode (.scroll x y (encodeScroll hscroll) (encodeScroll vscroll))

def setEncoding (_ : Client) (bitrate maxFps : UInt32) (maxSize : UInt16) : List UInt8 :=
  encode (.setEncoding bitrate maxFps maxSize)

def pause (_ : Client) (on : Bool) : List UInt8 := encode (.pauseResume on)

end Client

/-- A call of one of the control methods. -/
inductive ControlCall (F : Type) where
  | touch (action : TouchAction) (id : UInt8) (cssX cssY viewW viewH pressure : F)
  | key (action : KeyAction) (keycode metaState : UInt32)
  | nav (keycode : UInt32) (action : KeyAction)
  | text (s : String)
  | scroll (cssX cssY viewW viewH hscroll vscroll : F)
  | setEncoding (bitrate maxFps : UInt32) (maxSize : UInt16)
  | pause (on : Bool)

/-- The bytes a control call returns. -/
def ControlCall.bytes {F : Type} [F32 F] (c : Client) : ControlCall F → List UInt8
  | .touch action id cssX cssY viewW viewH pressure =>
    c.touch action id cssX cssY viewW viewH pressure
  | .key action keycode metaState => c.key action keycode metaState
  | .nav keycode action => c.nav keycode action
  | .text s => c.text s
  | .scroll cssX cssY viewW viewH hscroll vscroll => c.scroll cssX cssY viewW viewH hscroll vscroll
  | .setEncoding bitrate maxFps maxSize => c.setEncoding bitrate maxFps maxSize
  | .pause on => c.pause on

end DroidMirror
