import DroidMirror.Lib.Effects
import DroidMirror.Lib.LittleEndian
import DroidMirror.Server.Control
import DroidMirror.Server.Touch

/-! # The input device

`crates/server/src/android/uinput.rs`. `UInput::open` announces what the device is
going to send, and the kernel hears nothing else from it. Some of the requests may
fail unnoticed: `UInput.writes_heard` says that only keys are lost to these, and
`UInput.panel_mirrors` that the panel follows the touches through any other calls. -/
namespace DroidMirror.Server
open DroidMirror.Lib.Effects DroidMirror.Lib.LittleEndian DroidMirror.Proto

def EV_REL : UInt16 := 0x02

def REL_WHEEL : UInt16 := 0x08
def REL_HWHEEL : UInt16 := 0x06

/-- `i32::clamp`. -/
def clamp (v lo hi : Int32) : Int32 := if v < lo then lo else if hi < v then hi else v

def scrollEvents (h v : Int32) : List Ev :=
  let out : List Ev := (if v ≠ 0 then [⟨EV_REL, REL_WHEEL, clamp v (-8) 8⟩] else []) ++
    (if h ≠ 0 then [⟨EV_REL, REL_HWHEEL, clamp h (-8) 8⟩] else [])
  if !out.isEmpty then out ++ [⟨EV_SYN, SYN_REPORT, 0⟩] else out

/-! ## Opening the device -/

structure UinputSetup where
  bustype : UInt16
  vendor : UInt16
  product : UInt16
  version : UInt16
  name : List UInt8
  ffEffectsMax : UInt32
  deriving DecidableEq

structure UinputAbsSetup where
  code : UInt16
  value : Int32
  minimum : Int32
  maximum : Int32
  fuzz : Int32
  flat : Int32
  resolution : Int32
  deriving DecidableEq

/-- The sizes of the two as C lays them out, the second with two bytes of padding. -/
def UinputSetup.size : UInt32 := 4 * 2 + 80 + 4
def UinputAbsSetup.size : UInt32 := 2 + 2 + 6 * 4

def ioc (dir nr size : UInt32) : UInt32 := (dir <<< 30) ||| (size <<< 16) ||| ((0x55 : UInt32) <<< 8) ||| nr

/-- An `ioctl` on the device. -/
inductive Request where
  | int (req : UInt32) (value : Int32)
  | absSetup (req : UInt32) (info : UinputAbsSetup)
  | devSetup (req : UInt32) (setup : UinputSetup)
  | bare (req : UInt32)
  deriving DecidableEq

/-- The requests that were granted, in order. -/
abbrev Ioctl := Effect String (List Request)

structure UInput where
  slots : TouchSlots

namespace UInput
section
variable (refusal : Request → Option String)

/-- A request, and what its failure is reported as; no request is made twice. -/
def ioctl (what : String) (r : Request) : Ioctl Unit := ExceptT.mk fun made =>
  match refusal r with
  | none => (.ok (), made ++ [r])
  | some e => (.error (what ++ e), made)

def ioctlInt (req : UInt32) (value : Int32) : Ioctl Unit := ioctl refusal "ioctl: " (.int req value)

def absSetup (code : UInt16) (min max : Int32) : Ioctl Unit :=
  ioctl refusal ("UI_ABS_SETUP " ++ toString code.toNat ++ ": ")
    (.absSetup (ioc 1 4 UinputAbsSetup.size) ⟨code, 0, min, Max.max max min, 0, 0, 0⟩)

/-- `let _ =` before a request. -/
def ignored (x : Ioctl Unit) : Ioctl Unit := tryCatch x fun _ => pure ()

def deviceName : List UInt8 := asBytes "droidmirror"

def setup (width height : Int32) : Ioctl Unit := do
  ioctlInt refusal (ioc 1 100 4) 1
  ioctlInt refusal (ioc 1 100 4) 3
  ioctlInt refusal (ioc 1 100 4) 2
  -- touchscreen, not a touchpad
  ignored (ioctlInt refusal (ioc 1 110 4) 1)
  ioctlInt refusal (ioc 1 101 4) (.ofNat BTN_TOUCH.toNat)
  ioctlInt refusal (ioc 1 101 4) 0x145
  [ABS_MT_SLOT, ABS_MT_TRACKING_ID, ABS_MT_POSITION_X, ABS_MT_POSITION_Y, ABS_MT_PRESSURE,
    ABS_MT_TOUCH_MAJOR].forM fun code => ioctlInt refusal (ioc 1 103 4) (.ofNat code.toNat)
  ioctlInt refusal (ioc 1 102 4) (.ofNat REL_WHEEL.toNat)
  ioctlInt refusal (ioc 1 102 4) (.ofNat REL_HWHEEL.toNat)
  (List.range' 1 255).forM fun code => ignored (ioctlInt refusal (ioc 1 101 4) (.ofNat code))
  absSetup refusal ABS_MT_SLOT 0 9
  absSetup refusal ABS_MT_TRACKING_ID 0 65535
  absSetup refusal ABS_MT_POSITION_X 0 (width - 1)
  absSetup refusal ABS_MT_POSITION_Y 0 (height - 1)
  absSetup refusal ABS_MT_PRESSURE 0 255
  absSetup refusal ABS_MT_TOUCH_MAJOR 0 255
  ioctl refusal "UI_DEV_SETUP: " (.devSetup (ioc 1 3 UinputSetup.size)
    ⟨0x06, 0, 0, 1, deviceName ++ List.replicate (80 - deviceName.length) 0, 0⟩)
  ioctl refusal "UI_DEV_CREATE: " (.bare (ioc 0 1 0))

def span (width height : Int32) : Int32 := max (max width height) 4096

/-- `libc::open`, given why `/dev/uinput` does not open, if it does not. -/
def openFile (unopened : Option String) : Ioctl Unit :=
  match unopened with
  | some e => throw ("open /dev/uinput: " ++ e)
  | none => pure ()

/-- Closing the device takes the requests back. -/
def close : Ioctl Unit := set ([] : List Request)

def open_ (unopened : Option String) (width height : Int32) : Ioctl UInput := do
  openFile unopened
  tryCatch (setup refusal (span width height) (span width height)) fun e => do
    close
    throw e
  return ⟨TouchSlots.new⟩

end

/-! ## Writing to it -/

/-- What `inject` writes of a call, and the device after it. -/
def inject (d : UInput) : Call → List Ev × UInput
  | .touch action id x y pressure =>
    let r := d.slots.apply action id x y pressure
    (r.1, ⟨r.2⟩)
  | .key action keycode metaState => (UInput.key action keycode metaState, d)
  | .text s => (UInput.text s, d)
  | .scroll _ _ h v => (scrollEvents h v, d)
  | .setEncoding .. | .pause .. => ([], d) -- these are the encoder's

def injectAll (d : UInput) : List Call → List Ev × UInput
  | [] => ([], d)
  | c :: calls =>
    let r := d.inject c
    let rest := r.2.injectAll calls
    (r.1 ++ rest.1, rest.2)

end UInput

/-- What `write_events` writes of an event: a timestamp of zeros, and the event. -/
def Ev.bytes (e : Ev) : List UInt8 := List.replicate 16 0 ++ leU16 e.type ++ leU16 e.code ++ leI32 e.value

/-- One write for each event. -/
def UInput.writes (d : UInput) (calls : List Call) : List (List UInt8) := (d.injectAll calls).1.map Ev.bytes

/-! ## What the kernel makes of it

The numbers of `linux/uinput.h`, and what a device announces by them. -/

def UI_SET_EVBIT : UInt32 := 0x40045564
def UI_SET_KEYBIT : UInt32 := 0x40045565
def UI_SET_RELBIT : UInt32 := 0x40045566
def UI_SET_ABSBIT : UInt32 := 0x40045567
def UI_SET_PROPBIT : UInt32 := 0x4004556e
def UI_ABS_SETUP : UInt32 := 0x401c5504

/-- The request that announces a code of the type. -/
def codeRequest (type : UInt16) : Option UInt32 :=
  if type = EV_KEY then some UI_SET_KEYBIT
  else if type = EV_REL then some UI_SET_RELBIT
  else if type = EV_ABS then some UI_SET_ABSBIT
  else none

/-- The kernel hears the event of a device of which these requests were granted: a report,
or an event of which the type and the code were announced. -/
def Announced (made : List Request) (e : Ev) : Prop :=
  e.type = EV_SYN ∨ Request.int UI_SET_EVBIT (.ofNat e.type.toNat) ∈ made ∧
    ∃ req ∈ codeRequest e.type, Request.int req (.ofNat e.code.toNat) ∈ made

instance (made : List Request) (e : Ev) : Decidable (Announced made e) :=
  inferInstanceAs (Decidable (_ ∨ _ ∧ ∃ req ∈ codeRequest e.type, _))

/-- The value is in the range announced for the axis. -/
def InRange (made : List Request) (code : UInt16) (value : Int32) : Prop :=
  ∃ info, Request.absSetup UI_ABS_SETUP info ∈ made ∧ info.code = code ∧
    info.minimum ≤ value ∧ value ≤ info.maximum

/-- The event of a write. -/
def readEvent (b : List UInt8) : Option Ev :=
  if b.length = 24 then
    some ⟨readU16 (slice b 16 18), readU16 (slice b 18 20), readI32 (slice b 20 24)⟩
  else none

/-- What the kernel hears of the writes. -/
def heard (made : List Request) (writes : List (List UInt8)) : List Ev :=
  (writes.filterMap readEvent).filter fun e => Announced made e

@[simp] theorem readEvent_bytes (e : Ev) : readEvent e.bytes = some e := by
  have hlen : e.bytes.length = 24 := by simp [Ev.bytes]
  have htype : slice e.bytes 16 18 = leU16 e.type := by
    rw [Ev.bytes, List.append_assoc]
    exact slice_middle (by simp) (by simp)
  have hcode : slice e.bytes 18 20 = leU16 e.code := slice_middle (by simp) (by simp)
  have hvalue : slice e.bytes 20 24 = leI32 e.value := by
    rw [← hlen, slice_to_end, Ev.bytes, List.drop_left' (by simp)]
  rw [readEvent, if_pos hlen, htype, hcode, hvalue, readU16_leU16, readU16_leU16, readI32_leI32]

theorem heard_writes (made : List Request) (d : UInput) (calls : List Call) :
    heard made (d.writes calls) = (d.injectAll calls).1.filter fun e => Announced made e := by
  unfold heard UInput.writes
  rw [List.filterMap_map]
  have hread : readEvent ∘ Ev.bytes = some := funext readEvent_bytes
  rw [hread, List.filterMap_some]

/-! ## What was announced -/

/-- The computation returns where everything in `required` is granted, having what is not refused
of `all`. -/
def Grants (refusal : Request → Option String) (x : Ioctl Unit) (required all : List Request) : Prop :=
  ∀ s t, Returns x s () t ↔
    (∀ r ∈ required, refusal r = none) ∧ t = s ++ all.filter fun r => refusal r = none

namespace UInput
variable {refusal : Request → Option String}

theorem grants_ioctl (what : String) (r : Request) : Grants refusal (ioctl refusal what r) [r] [r] := by
  intro s t
  have hrun : Returns (ioctl refusal what r) s () t ↔ (match refusal r with
      | none => (.ok (), s ++ [r])
      | some e => (.error (what ++ e), s) : Except String Unit × List Request) = (.ok (), t) := Iff.rfl
  rw [hrun]
  cases hr : refusal r with
  | none => simp [hr, eq_comm]
  | some e => simp [hr]

theorem grants_ignored (what : String) (r : Request) :
    Grants refusal (ignored (ioctl refusal what r)) [] [r] := by
  intro s t
  have hrun : (ignored (ioctl refusal what r)).run.run s =
      match refusal r with
      | none => (.ok (), s ++ [r])
      | some _ => (.ok (), s) := by
    unfold ignored
    rw [ExceptT.run_tryCatch, StateT.run_bind]
    unfold ioctl
    cases refusal r with
    | none => rfl
    | some e => rfl
  have hreturns : Returns (ignored (ioctl refusal what r)) s () t ↔ (match refusal r with
      | none => (.ok (), s ++ [r])
      | some _ => (.ok (), s) : Except String Unit × List Request) = (.ok (), t) :=
    iff_of_eq (congrArg (· = (Except.ok (), t)) hrun)
  rw [hreturns]
  cases hr : refusal r with
  | none => simp [hr, eq_comm]
  | some e => simp [hr, eq_comm]

end UInput

theorem Grants.bind {refusal : Request → Option String} {x y : Ioctl Unit}
    {required all required' all' : List Request} (hx : Grants refusal x required all)
    (hy : Grants refusal y required' all') :
    Grants refusal (x >>= fun _ => y) (required ++ required') (all ++ all') := by
  intro s t
  rw [List.forall_mem_append, List.filter_append, ← List.append_assoc]
  constructor
  · intro h
    obtain ⟨⟨⟩, u, hfirst, hrest⟩ := Returns.of_bind h
    obtain ⟨hreq, rfl⟩ := (hx s u).mp hfirst
    obtain ⟨hreq', ht⟩ := (hy _ t).mp hrest
    exact ⟨⟨hreq, hreq'⟩, ht⟩
  · rintro ⟨⟨hreq, hreq'⟩, ht⟩
    exact ((hx s _).mpr ⟨hreq, rfl⟩).bind ((hy _ t).mpr ⟨hreq', ht⟩)

theorem Grants.forM {refusal : Request → Option String} {α : Type} {f : α → Ioctl Unit}
    {required all : α → List Request} (h : ∀ a, Grants refusal (f a) (required a) (all a)) (l : List α) :
    Grants refusal (l.forM f) (l.flatMap required) (l.flatMap all) := by
  induction l with
  | nil =>
    intro s t
    have hrun : Returns (([] : List α).forM f) s () t ↔
        ((.ok (), s) : Except String Unit × List Request) = (.ok (), t) := Iff.rfl
    rw [hrun]
    simp [eq_comm]
  | cons a l ih =>
    rw [List.flatMap_cons, List.flatMap_cons]
    exact (h a).bind ih

namespace UInput
variable {refusal : Request → Option String}

def keyRequest (code : Nat) : Request := .int UI_SET_KEYBIT (.ofNat code)

def keys : List Request := (List.range' 1 255).map keyRequest

def axisCodes : List UInt16 :=
  [ABS_MT_SLOT, ABS_MT_TRACKING_ID, ABS_MT_POSITION_X, ABS_MT_POSITION_Y, ABS_MT_PRESSURE, ABS_MT_TOUCH_MAJOR]

def ranges (width height : Int32) : List UinputAbsSetup :=
  [⟨ABS_MT_SLOT, 0, 0, 9, 0, 0, 0⟩, ⟨ABS_MT_TRACKING_ID, 0, 0, 65535, 0, 0, 0⟩,
    ⟨ABS_MT_POSITION_X, 0, 0, max (width - 1) 0, 0, 0, 0⟩, ⟨ABS_MT_POSITION_Y, 0, 0, max (height - 1) 0, 0, 0, 0⟩,
    ⟨ABS_MT_PRESSURE, 0, 0, 255, 0, 0, 0⟩, ⟨ABS_MT_TOUCH_MAJOR, 0, 0, 255, 0, 0, 0⟩]

/-- The axes, and the device itself. -/
def axes (width height : Int32) : List Request :=
  (ranges width height).map (.absSetup UI_ABS_SETUP) ++
    [.devSetup (ioc 1 3 UinputSetup.size)
      ⟨0x06, 0, 0, 1, deviceName ++ List.replicate (80 - deviceName.length) 0, 0⟩, .bare (ioc 0 1 0)]

def types : List Request := [.int UI_SET_EVBIT 1, .int UI_SET_EVBIT 3, .int UI_SET_EVBIT 2]

def buttons : List Request := [keyRequest BTN_TOUCH.toNat, keyRequest 0x145]

def axisBits : List Request := axisCodes.map fun code => .int UI_SET_ABSBIT (.ofNat code.toNat)

def wheels : List Request :=
  [.int UI_SET_RELBIT (.ofNat REL_WHEEL.toNat), .int UI_SET_RELBIT (.ofNat REL_HWHEEL.toNat)]

theorem grants_keys : Grants refusal ((List.range' 1 255).forM fun code =>
    ignored (ioctlInt refusal (ioc 1 101 4) (.ofNat code))) [] keys := by
  have hkey (code : Nat) : Grants refusal (ignored (ioctlInt refusal (ioc 1 101 4) (.ofNat code))) []
      [keyRequest code] := grants_ignored _ _
  have hloop := Grants.forM hkey (List.range' 1 255)
  rw [List.flatMap_eq_nil_iff.mpr fun _ _ => rfl, ← List.map_eq_flatMap] at hloop
  exact hloop

theorem grants_axisBits : Grants refusal (axisCodes.forM fun code =>
    ioctlInt refusal (ioc 1 103 4) (.ofNat code.toNat)) axisBits axisBits := by
  have hbit (code : UInt16) : Grants refusal (ioctlInt refusal (ioc 1 103 4) (.ofNat code.toNat))
      [.int UI_SET_ABSBIT (.ofNat code.toNat)] [.int UI_SET_ABSBIT (.ofNat code.toNat)] := grants_ioctl _ _
  have hloop := Grants.forM hbit axisCodes
  rw [← List.map_eq_flatMap] at hloop
  exact hloop

def required (width height : Int32) : List Request :=
  types ++ (buttons ++ (axisBits ++ (wheels ++ axes (span width height) (span width height))))

def requests (width height : Int32) : List Request :=
  types ++ ([.int UI_SET_PROPBIT 1] ++ (buttons ++ (axisBits ++ (wheels ++ (keys ++
    axes (span width height) (span width height))))))

theorem setup_grants (width height : Int32) :
    Grants refusal (setup refusal (span width height) (span width height)) (required width height)
      (requests width height) := by
  have hbit (req : UInt32) (value : Int32) : Grants refusal (ioctlInt refusal req value)
      [.int req value] [.int req value] := grants_ioctl _ _
  refine (hbit _ _).bind ?_
  refine (hbit _ _).bind ?_
  refine (hbit _ _).bind ?_
  refine (grants_ignored _ _).bind ?_
  refine (hbit _ _).bind ?_
  refine (hbit _ _).bind ?_
  refine grants_axisBits.bind ?_
  refine (hbit _ _).bind ?_
  refine (hbit _ _).bind ?_
  refine grants_keys.bind ?_
  refine (grants_ioctl _ _).bind ?_
  refine (grants_ioctl _ _).bind ?_
  refine (grants_ioctl _ _).bind ?_
  refine (grants_ioctl _ _).bind ?_
  refine (grants_ioctl _ _).bind ?_
  refine (grants_ioctl _ _).bind ?_
  exact (grants_ioctl _ _).bind (grants_ioctl _ _)

/-- What was granted to a device that was opened. -/
structure Opened (refusal : Request → Option String) (width height : Int32) (made : List Request) : Prop where
  needed : ∀ r ∈ required width height, r ∈ made
  key : ∀ r ∈ keys, (r ∈ made ↔ refusal r = none)
  asked : ∀ r ∈ made, r ∈ requests width height

/-- What the device has when it opens. -/
def granted (refusal : Request → Option String) (width height : Int32) : List Request :=
  (requests width height).filter fun r => refusal r = none

theorem open_iff {unopened : Option String} {width height : Int32} {d : UInput} {made : List Request} :
    Returns (open_ refusal unopened width height) [] d made ↔ unopened = none ∧
      (∀ r ∈ required width height, refusal r = none) ∧ d = ⟨TouchSlots.new⟩ ∧
      made = granted refusal width height := by
  constructor
  · intro h
    obtain ⟨⟨⟩, s, hfile, hrest⟩ := Returns.of_bind h
    obtain ⟨⟨⟩, t, htry, hret⟩ := Returns.of_bind hrest
    obtain ⟨hd, rfl⟩ := Prod.mk.inj hret
    have hsetup : Returns (setup refusal (span width height) (span width height)) s () t :=
      htry.of_tryCatch fun e u hfail => nomatch hfail
    cases unopened with
    | none =>
      obtain ⟨-, rfl⟩ := Prod.mk.inj hfile
      obtain ⟨hreq, ht⟩ := (setup_grants width height _ _).mp hsetup
      exact ⟨rfl, hreq, (Except.ok.inj hd).symm, ht⟩
    | some e => cases hfile
  · rintro ⟨rfl, hreq, rfl, rfl⟩
    have hfile : Returns (openFile none) [] () [] := Returns.pure () []
    have hsetup := (setup_grants width height [] _).mpr ⟨hreq, rfl⟩
    exact hfile.bind ((hsetup.tryCatch _).bind (Returns.pure _ _))

theorem opened {width height : Int32} (hreq : ∀ r ∈ required width height, refusal r = none) :
    Opened refusal width height (granted refusal width height) := by
  have hmade (r : Request) : r ∈ granted refusal width height ↔ r ∈ requests width height ∧ refusal r = none := by
    rw [granted, List.mem_filter, decide_eq_true_eq]
  refine ⟨?_, ?_, ?_⟩
  · intro r hr
    refine (hmade r).mpr ⟨?_, hreq r hr⟩
    simp only [required, requests, List.mem_append] at hr ⊢
    tauto
  · intro r hr
    rw [hmade]
    refine and_iff_right ?_
    simp only [requests, List.mem_append, hr, true_or, or_true]
  · exact fun r hr => ((hmade r).mp hr).1

/-! ## What is sent -/

theorem key_ne_abs : EV_KEY ≠ EV_ABS := by decide

theorem rel_ne_key : EV_REL ≠ EV_KEY := by decide

theorem rel_ne_abs : EV_REL ≠ EV_ABS := by decide

/-- The events of keys and of the wheels. -/
inductive Keyed : Ev → Prop
  | report : Keyed ⟨EV_SYN, SYN_REPORT, 0⟩
  | key {code : UInt16} (down : Bool) (h : 1 ≤ code.toNat ∧ code.toNat ≤ 255) :
      Keyed ⟨EV_KEY, code, if down then 1 else 0⟩
  | wheel {code : UInt16} (h : code = REL_WHEEL ∨ code = REL_HWHEEL) {v : Int32}
      (hv : -8 ≤ v ∧ v ≤ 8 ∧ v ≠ 0) : Keyed ⟨EV_REL, code, v⟩

/-- The events of touches. -/
inductive Touched : Ev → Prop
  | report : Touched ⟨EV_SYN, SYN_REPORT, 0⟩
  | button (t : TouchSlots) : Touched ⟨EV_KEY, BTN_TOUCH, t.button⟩
  | slot (k : Fin 10) : Touched ⟨EV_ABS, ABS_MT_SLOT, .ofNat k⟩
  | tracking (k : Fin 10) : Touched ⟨EV_ABS, ABS_MT_TRACKING_ID, .ofNat k⟩
  | lift : Touched ⟨EV_ABS, ABS_MT_TRACKING_ID, -1⟩
  | position {code : UInt16} (h : code = ABS_MT_POSITION_X ∨ code = ABS_MT_POSITION_Y) (v : Int32) :
      Touched ⟨EV_ABS, code, v⟩
  | pressure (p : UInt16) : Touched ⟨EV_ABS, ABS_MT_PRESSURE, .ofNat (min p.toNat 255)⟩
  | major : Touched ⟨EV_ABS, ABS_MT_TOUCH_MAJOR, 6⟩

theorem keyed_keyEvents {code : UInt16} (h : 1 ≤ code.toNat ∧ code.toNat ≤ 255) (down : Bool) :
    ∀ e ∈ keyEvents code down, Keyed e := by
  intro e he
  rcases List.mem_pair.mp he with rfl | rfl
  · exact .key down h
  · exact .report

theorem mem_ite_some {c : Prop} [Decidable c] {a : UInt16} {rest : Option UInt16} {p : UInt16 → Prop}
    (ha : c → p a) (hrest : ∀ x ∈ rest, p x) : ∀ x ∈ (if c then some a else rest), p x := by
  intro x hx
  split at hx
  · rename_i hc
    cases hx
    exact ha hc
  · exact hrest x hx

/-- A row of keys. -/
theorem row {keycode lo hi first : UInt32} (h : lo ≤ keycode ∧ keycode ≤ hi) (hlo : lo.toNat ≤ hi.toNat)
    (hfirst : 1 ≤ first.toNat) (hlast : hi.toNat - lo.toNat + first.toNat ≤ 255) :
    1 ≤ (keycode - lo + first).toUInt16.toNat ∧ (keycode - lo + first).toUInt16.toNat ≤ 255 := by
  have hge : lo.toNat ≤ keycode.toNat := h.1
  have hle : keycode.toNat ≤ hi.toNat := h.2
  rw [UInt32.toNat_toUInt16, UInt32.toNat_add, UInt32.toNat_sub_of_le _ _ h.1]
  omega

theorem linux_of_android (keycode : UInt32) :
    ∀ code ∈ androidToLinux keycode, 1 ≤ code.toNat ∧ code.toNat ≤ 255 := by
  unfold androidToLinux
  iterate 9 refine mem_ite_some (fun _ => by decide) ?_
  refine mem_ite_some (fun h => row h (by decide) (by decide) (by decide)) ?_
  refine mem_ite_some (fun _ => by decide) ?_
  refine mem_ite_some (fun h => row h (by decide) (by decide) (by decide)) ?_
  iterate 6 refine mem_ite_some (fun _ => by decide) ?_
  exact fun code hcode => nomatch hcode

theorem linux_of_ascii {c : Char} {code : UInt16} {shift : Bool} (h : asciiToLinux c = some (code, shift)) :
    1 ≤ code.toNat ∧ code.toNat ≤ 255 := by
  have hall : ascii.all fun c => (asciiToLinux c).all fun k => 1 ≤ k.1.toNat ∧ k.1.toNat ≤ 255 := by
    decide +kernel
  have hc := List.all_eq_true.mp hall c (ascii_of_supported h)
  rw [h, Option.all_some] at hc
  exact of_decide_eq_true hc

theorem keyed_key (c : KeyCall) : ∀ e ∈ c.events, Keyed e := by
  have hmodifier : KeyCall.modifierKeys.all fun m => 1 ≤ m.2.toNat ∧ m.2.toNat ≤ 255 := by decide
  intro e he
  obtain ⟨codes, hperm, heq⟩ := c.exists_events_eq_flatMap
  rw [heq, List.mem_flatMap] at he
  obtain ⟨code, hcode, he⟩ := he
  refine keyed_keyEvents ?_ _ e he
  rcases KeyCall.mem_keys.mp (hperm.mem_iff.mp hcode) with hkey | ⟨m, hm, -, -, rfl⟩
  · exact linux_of_android c.keycode code hkey
  · exact of_decide_eq_true (List.all_eq_true.mp hmodifier m hm)

theorem keyed_text (s : String) : ∀ e ∈ UInput.text s, Keyed e := by
  have hshift : 1 ≤ KEY_LEFTSHIFT.toNat ∧ KEY_LEFTSHIFT.toNat ≤ 255 := by decide
  intro e he
  rw [text_eq_strokes, List.mem_flatMap] at he
  obtain ⟨⟨code, shift⟩, hk, he⟩ := he
  obtain ⟨c, -, hc⟩ := List.mem_filterMap.mp hk
  have hcode := linux_of_ascii hc
  cases shift with
  | true =>
    simp only [strokeEvents, if_true, List.mem_append, or_assoc] at he
    rcases he with he | he | he | he
    · exact keyed_keyEvents hshift true e he
    · exact keyed_keyEvents hcode true e he
    · exact keyed_keyEvents hcode false e he
    · exact keyed_keyEvents hshift false e he
  | false =>
    simp only [strokeEvents, Bool.false_eq_true, if_false, List.nil_append, List.append_nil,
      List.mem_append] at he
    rcases he with he | he
    · exact keyed_keyEvents hcode true e he
    · exact keyed_keyEvents hcode false e he

/-- A wheel turns by a notch at least. -/
theorem clamp_notches {n : Int32} (h : n ≠ 0) : -8 ≤ clamp n (-8) 8 ∧ clamp n (-8) 8 ≤ 8 ∧ clamp n (-8) 8 ≠ 0 := by
  unfold clamp
  split
  · decide
  · rename_i hlo
    split
    · decide
    · rename_i hhi
      exact ⟨Int32.not_lt.mp hlo, Int32.not_lt.mp hhi, h⟩

theorem keyed_scroll (h v : Int32) : ∀ e ∈ scrollEvents h v, Keyed e := by
  have hwheel (n : Int32) {code : UInt16} (hcode : code = REL_WHEEL ∨ code = REL_HWHEEL) :
      ∀ e ∈ (if n ≠ 0 then [⟨EV_REL, code, clamp n (-8) 8⟩] else [] : List Ev), Keyed e := by
    split
    · rename_i hn
      intro e he
      rw [List.mem_singleton.mp he]
      exact .wheel hcode (clamp_notches hn)
    · exact fun e he => nomatch he
  have hreport (out : List Ev) (hout : ∀ e ∈ out, Keyed e) :
      ∀ e ∈ (if !out.isEmpty then out ++ [⟨EV_SYN, SYN_REPORT, 0⟩] else out), Keyed e := by
    intro e he
    split at he
    · rcases List.mem_append.mp he with he | he
      · exact hout e he
      · rw [List.mem_singleton.mp he]
        exact .report
    · exact hout e he
  refine hreport _ ?_
  intro e he
  rcases List.mem_append.mp he with he | he
  · exact hwheel v (.inl rfl) e he
  · exact hwheel h (.inr rfl) e he

theorem touched_closing (t : TouchSlots) : ∀ e ∈ t.closing, Touched e := by
  intro e he
  rcases List.mem_pair.mp he with rfl | rfl
  · exact .button t
  · exact .report

theorem touched_touch (c : TouchCall) (t : TouchSlots) : ∀ e ∈ (c.apply t).1, Touched e := by
  intro e he
  by_cases hl : c.Lifts
  · rw [TouchCall.apply_lifts hl] at he
    rcases List.mem_cons.mp he with rfl | he
    · exact .slot c.slot
    · rcases List.mem_cons.mp he with rfl | he
      · exact .lift
      · exact touched_closing _ e he
  · by_cases hp : c.Presses
    · rw [TouchCall.apply_presses hp] at he
      rcases List.mem_cons.mp he with rfl | he
      · exact .slot c.slot
      · rcases List.mem_append.mp he with he | he
        · unfold TouchCall.tracks at he
          split at he
          · rw [List.mem_singleton.mp he]
            exact .tracking c.slot
          · cases he
        · rcases List.mem_append.mp he with he | he
          · simp only [TouchCall.places, List.mem_cons, List.not_mem_nil, or_false] at he
            rcases he with rfl | rfl | rfl | rfl
            · exact .position (.inl rfl) _
            · exact .position (.inr rfl) _
            · exact .pressure c.pressure
            · exact .major
          · exact touched_closing _ e he
    · rw [TouchCall.apply_unknown hp hl] at he
      cases he

def touchOf : Call → Option TouchCall
  | .touch action id x y pressure => some ⟨action, id, x, y, pressure⟩
  | _ => none

/-- Only touches change the slots. -/
theorem inject_touch {c : Call} {touch : TouchCall} (h : touchOf c = some touch) (d : UInput) :
    d.inject c = ((touch.apply d.slots).1, ⟨(touch.apply d.slots).2⟩) := by
  cases c with
  | touch action id x y pressure =>
    cases h
    rfl
  | _ => cases h

theorem inject_other {c : Call} (h : touchOf c = none) (d : UInput) :
    (d.inject c).2 = d ∧ ∀ e ∈ (d.inject c).1, Keyed e := by
  cases c with
  | touch action id x y pressure => cases h
  | key action keycode metaState => exact ⟨rfl, keyed_key ⟨action, keycode, metaState⟩⟩
  | text s => exact ⟨rfl, keyed_text s⟩
  | scroll x y dx dy => exact ⟨rfl, keyed_scroll dx dy⟩
  | setEncoding bitrate maxFps maxSize => exact ⟨rfl, fun e he => nomatch he⟩
  | pause on => exact ⟨rfl, fun e he => nomatch he⟩

theorem sent_inject (d : UInput) (c : Call) : ∀ e ∈ (d.inject c).1, Keyed e ∨ Touched e := by
  intro e he
  cases hc : touchOf c with
  | none => exact .inl ((inject_other hc d).2 e he)
  | some touch =>
    rw [inject_touch hc] at he
    exact .inr (touched_touch touch d.slots e he)

theorem sent_injectAll (d : UInput) (calls : List Call) :
    ∀ e ∈ (d.injectAll calls).1, Keyed e ∨ Touched e := by
  induction calls generalizing d with
  | nil => exact fun e he => nomatch he
  | cons c calls ih =>
    intro e he
    rcases List.mem_append.mp he with he | he
    · exact d.sent_inject c e he
    · exact ih _ e he

/-! ## What is heard -/

theorem mem_keys {code : UInt16} (h : 1 ≤ code.toNat ∧ code.toNat ≤ 255) : keyRequest code.toNat ∈ keys :=
  List.mem_map_of_mem (List.mem_range'_1.mpr ⟨h.1, by omega⟩)

theorem absSetup_mem {width height : Int32} {made : List Request} (h : Opened refusal width height made)
    {info : UinputAbsSetup} : Request.absSetup UI_ABS_SETUP info ∈ made ↔
      info ∈ ranges (span width height) (span width height) := by
  constructor
  · intro hmem
    have hall := h.asked _ hmem
    simpa [requests, types, buttons, axisBits, wheels, keys, keyRequest, axes] using hall
  · intro hmem
    refine h.needed _ ?_
    simp only [required, axes, List.mem_append]
    exact .inr (.inr (.inr (.inr (.inl (List.mem_map_of_mem hmem)))))

/-- An axis has one range. -/
theorem inRange_iff {width height : Int32} {made : List Request} (h : Opened refusal width height made)
    {info : UinputAbsSetup} (hinfo : info ∈ ranges (span width height) (span width height)) (value : Int32) :
    InRange made info.code value ↔ info.minimum ≤ value ∧ value ≤ info.maximum := by
  have hnodup : ((ranges (span width height) (span width height)).map UinputAbsSetup.code).Nodup := by
    show axisCodes.Nodup
    decide
  constructor
  · rintro ⟨info', hmem, hcode, hvalue⟩
    cases List.inj_on_of_nodup_map hnodup ((absSetup_mem h).mp hmem) hinfo hcode
    exact hvalue
  · intro hvalue
    exact ⟨info, (absSetup_mem h).mpr hinfo, rfl, hvalue⟩

theorem type_announced {width height : Int32} {made : List Request} (h : Opened refusal width height made)
    {type : UInt16} (ht : type = EV_KEY ∨ type = EV_REL ∨ type = EV_ABS) :
    Request.int UI_SET_EVBIT (.ofNat type.toNat) ∈ made := by
  refine h.needed _ (List.mem_append_left _ ?_)
  rcases ht with rfl | rfl | rfl <;> decide

/-- A key that the kernel did not take. -/
def KeyRefused (refusal : Request → Option String) (e : Ev) : Prop :=
  e.type = EV_KEY ∧ e.code ≠ BTN_TOUCH ∧ refusal (keyRequest e.code.toNat) ≠ none

theorem button_not_key {code : UInt16} (h : 1 ≤ code.toNat ∧ code.toNat ≤ 255) : code ≠ BTN_TOUCH := by
  rintro rfl
  exact absurd h.2 (by decide)

theorem announced_key {width height : Int32} {made : List Request} (h : Opened refusal width height made)
    {code : UInt16} (hcode : 1 ≤ code.toNat ∧ code.toNat ≤ 255) (value : Int32) :
    Announced made ⟨EV_KEY, code, value⟩ ↔ ¬ KeyRefused refusal ⟨EV_KEY, code, value⟩ := by
  have hne : code ≠ BTN_TOUCH := button_not_key hcode
  have hkey := h.key _ (mem_keys hcode)
  constructor
  · rintro (hsyn | ⟨-, req, hreq, hmem⟩) ⟨-, -, hrefused⟩
    · cases hsyn
    · cases hreq
      exact hrefused (hkey.mp hmem)
  · intro hgranted
    refine .inr ⟨type_announced h (.inl rfl), UI_SET_KEYBIT, rfl, hkey.mpr ?_⟩
    by_contra hrefused
    exact hgranted ⟨rfl, hne, hrefused⟩

theorem announced_of_needed {width height : Int32} {made : List Request} (h : Opened refusal width height made)
    {e : Ev} {req : UInt32} (ht : e.type = EV_KEY ∨ e.type = EV_REL ∨ e.type = EV_ABS)
    (hreq : codeRequest e.type = some req)
    (hcode : Request.int req (.ofNat e.code.toNat) ∈ buttons ++ (axisBits ++ wheels)) : Announced made e := by
  refine .inr ⟨type_announced h ht, req, hreq, h.needed _ ?_⟩
  simp only [required, List.mem_append] at hcode ⊢
  tauto

/-- No touch is lost. -/
theorem not_refused {e : Ev} (he : Touched e) : ¬ KeyRefused refusal e := by
  rintro ⟨hkey, hcode, -⟩
  cases he with
  | report => cases hkey
  | button t => exact hcode rfl
  | _ => exact key_ne_abs hkey.symm

theorem announced_touched {width height : Int32} {made : List Request} (h : Opened refusal width height made)
    {e : Ev} (he : Touched e) : Announced made e := by
  have haxis {code : UInt16} (hcode : code ∈ axisCodes) (v : Int32) : Announced made ⟨EV_ABS, code, v⟩ := by
    refine announced_of_needed h (.inr (.inr rfl)) rfl ?_
    exact List.mem_append_right _ (List.mem_append_left _ (List.mem_map_of_mem hcode))
  cases he with
  | report => exact .inl rfl
  | button t =>
    exact announced_of_needed h (.inl rfl) rfl (List.mem_append_left _ List.mem_cons_self)
  | slot k => exact haxis (by simp [axisCodes]) _
  | tracking k => exact haxis (by simp [axisCodes]) _
  | lift => exact haxis (by simp [axisCodes]) _
  | position hcode v =>
    rcases hcode with rfl | rfl
    · exact haxis (by simp [axisCodes]) v
    · exact haxis (by simp [axisCodes]) v
  | pressure p => exact haxis (by simp [axisCodes]) _
  | major => exact haxis (by simp [axisCodes]) _

theorem announced_iff {width height : Int32} {made : List Request} (h : Opened refusal width height made)
    {e : Ev} (he : Keyed e ∨ Touched e) : Announced made e ↔ ¬ KeyRefused refusal e := by
  rcases he with hkeyed | htouched
  · cases hkeyed with
    | report => exact iff_of_true (.inl rfl) fun hr => nomatch hr.1
    | key down hcode => exact announced_key h hcode _
    | wheel hcode hv =>
      refine iff_of_true (announced_of_needed h (.inr (.inl rfl)) rfl ?_) fun hr => rel_ne_key hr.1
      rcases hcode with rfl | rfl
      · simp [wheels]
      · simp [wheels]
  · exact iff_of_true (announced_touched h htouched) (not_refused htouched)

theorem le_span_sub_one (width height v : Int32) :
    v ≤ max (span width height - 1) 0 ↔ v < span width height := by
  have hmax (a b : Int32) : (max a b).toInt = max a.toInt b.toInt := by
    show (if a ≤ b then b else a).toInt = _
    split
    · rename_i hle
      exact (max_eq_right (Int32.le_iff_toInt_le.mp hle)).symm
    · rename_i hle
      exact (max_eq_left (Int.le_of_not_le fun hlt => hle (Int32.le_iff_toInt_le.mpr hlt))).symm
  have hfloor : (4096 : Int) ≤ (span width height).toInt := by
    rw [span, hmax]
    exact le_max_right _ _
  have hlt : (span width height).toInt < 2 ^ 31 := (span width height).toInt_lt
  have hsub : (span width height - 1).toInt = (span width height).toInt - 1 := by
    have hone : (1 : Int32).toInt = 1 := rfl
    rw [Int32.toInt_sub, hone]
    exact Int.bmod_eq_of_le (by omega) (by omega)
  have hzero : (0 : Int32).toInt = 0 := rfl
  rw [Int32.le_iff_toInt_le, Int32.lt_iff_toInt_lt, hmax, hsub, hzero]
  omega

theorem ofNat_between {n : Nat} {hi : Int32} (h : (n : Int) ≤ hi.toInt) :
    0 ≤ Int32.ofNat n ∧ Int32.ofNat n ≤ hi := by
  have hlt := hi.toInt_lt
  have hn : (Int32.ofNat n).toInt = n := Int32.toInt_ofNat_of_lt (by omega)
  rw [Int32.le_iff_toInt_le, Int32.le_iff_toInt_le, hn]
  exact ⟨Int.natCast_nonneg n, h⟩

/-- The value of an axis is in the range announced for it, but for the end of a contact and
positions outside the display. -/
def Fits (made : List Request) (width height : Int32) (e : Ev) : Prop :=
  InRange made e.code e.value ↔ e ≠ ⟨EV_ABS, ABS_MT_TRACKING_ID, -1⟩ ∧
    (e.code = ABS_MT_POSITION_X ∨ e.code = ABS_MT_POSITION_Y → 0 ≤ e.value ∧ e.value < span width height)

theorem fits_of_le {width height : Int32} {made : List Request} (h : Opened refusal width height made)
    (info : UinputAbsSetup) (hinfo : info ∈ ranges (span width height) (span width height))
    (hmin : info.minimum = 0) (hcode : info.code ≠ ABS_MT_POSITION_X ∧ info.code ≠ ABS_MT_POSITION_Y)
    {n : Nat} (hn : (n : Int) ≤ info.maximum.toInt) :
    Fits made width height ⟨EV_ABS, info.code, .ofNat n⟩ := by
  obtain ⟨hlo, hhi⟩ := ofNat_between hn
  refine iff_of_true ((inRange_iff h hinfo _).mpr ⟨hmin ▸ hlo, hhi⟩) ⟨?_, ?_⟩
  · intro heq
    have hneg : Int32.ofNat n = -1 := (Ev.mk.inj heq).2.2
    rw [hneg] at hlo
    exact absurd hlo (by decide)
  · intro hpos
    exact absurd hpos (not_or.mpr hcode)

theorem fits {width height : Int32} {made : List Request} (h : Opened refusal width height made)
    {e : Ev} (he : Touched e) (habs : e.type = EV_ABS) : Fits made width height e := by
  cases he with
  | report => cases habs
  | button t => cases habs
  | slot k =>
    exact fits_of_le h ⟨ABS_MT_SLOT, 0, 0, 9, 0, 0, 0⟩ (by simp [ranges]) rfl (by decide)
      (Int.ofNat_le.mpr (Nat.le_of_lt_succ k.isLt))
  | tracking k =>
    exact fits_of_le h ⟨ABS_MT_TRACKING_ID, 0, 0, 65535, 0, 0, 0⟩ (by simp [ranges]) rfl (by decide)
      (Int.ofNat_le.mpr (Nat.le_trans (Nat.le_of_lt_succ k.isLt) (by decide)))
  | lift =>
    refine iff_of_false ?_ fun hne => hne.1 rfl
    intro hin
    have hmem : (⟨ABS_MT_TRACKING_ID, 0, 0, 65535, 0, 0, 0⟩ : UinputAbsSetup) ∈
        ranges (span width height) (span width height) := by simp [ranges]
    exact absurd ((inRange_iff h hmem _).mp hin).1 (by decide)
  | position hcode v =>
    have hne (code : UInt16) (hcode : code = ABS_MT_POSITION_X ∨ code = ABS_MT_POSITION_Y) :
        (⟨EV_ABS, code, v⟩ : Ev) ≠ ⟨EV_ABS, ABS_MT_TRACKING_ID, -1⟩ := by
      rcases hcode with rfl | rfl
      · exact fun heq => absurd (Ev.mk.inj heq).2.1 (by decide)
      · exact fun heq => absurd (Ev.mk.inj heq).2.1 (by decide)
    have hmem (code : UInt16) (hcode : code = ABS_MT_POSITION_X ∨ code = ABS_MT_POSITION_Y) :
        (⟨code, 0, 0, max (span width height - 1) 0, 0, 0, 0⟩ : UinputAbsSetup) ∈
          ranges (span width height) (span width height) := by
      rcases hcode with rfl | rfl
      · simp [ranges]
      · simp [ranges]
    have hin := inRange_iff h (hmem _ hcode) v
    unfold Fits
    rw [hin, le_span_sub_one]
    exact ⟨fun hv => ⟨hne _ hcode, fun _ => hv⟩, fun hv => hv.2 hcode⟩
  | pressure p =>
    exact fits_of_le h ⟨ABS_MT_PRESSURE, 0, 0, 255, 0, 0, 0⟩ (by simp [ranges]) rfl (by decide)
      (Int.ofNat_le.mpr (Nat.min_le_right _ _))
  | major =>
    exact fits_of_le h ⟨ABS_MT_TOUCH_MAJOR, 0, 0, 255, 0, 0, 0⟩ (by simp [ranges]) rfl (by decide)
      (n := 6) (by decide)

/-- Whatever is called, every write is an event, the kernel hears it unless it is of a key that
was refused, and its value is one the device announced. -/
theorem writes_heard {unopened : Option String} {width height : Int32} {d : UInput} {made : List Request}
    (h : Returns (open_ refusal unopened width height) [] d made) (calls : List Call) :
    ∀ b ∈ d.writes calls, ∃ e, readEvent b = some e ∧ (Announced made e ↔ ¬ KeyRefused refusal e) ∧
      (e.type = EV_ABS → Fits made width height e) ∧
      (e.type = EV_REL → -8 ≤ e.value ∧ e.value ≤ 8 ∧ e.value ≠ 0) := by
  obtain ⟨-, hreq, -, rfl⟩ := open_iff.mp h
  intro b hb
  obtain ⟨e, he, rfl⟩ := List.mem_map.mp hb
  have hsent := d.sent_injectAll calls e he
  have hopened := opened hreq
  refine ⟨e, readEvent_bytes e, announced_iff hopened hsent, ?_, ?_⟩
  · intro habs
    rcases hsent with hkeyed | htouched
    · cases hkeyed <;> cases habs
    · exact fits hopened htouched habs
  · intro hrel
    rcases hsent with hkeyed | htouched
    · cases hkeyed with
      | wheel hcode hv => exact hv
      | _ => cases hrel
    · cases htouched <;> cases hrel

/-- A kernel that takes no property and no key 30. -/
def choosy (r : Request) : Option String :=
  if r = .int UI_SET_PROPBIT 1 ∨ r = keyRequest 30 then some "EINVAL" else none

theorem opens_choosy : Returns (open_ choosy none 1080 1920) [] ⟨TouchSlots.new⟩ (granted choosy 1080 1920) :=
  open_iff.mpr ⟨rfl, by decide +kernel, rfl, rfl⟩

theorem writes_heard_choosy : (granted choosy 1080 1920).length = 275 ∧
    ∀ b ∈ UInput.writes ⟨TouchSlots.new⟩
      [.text "ab", .touch ACTION_DOWN 0 540 5000 700, .scroll 0 0 1 (-20)],
    ∃ e, readEvent b = some e ∧
      (Announced (granted choosy 1080 1920) e ↔ ¬ KeyRefused choosy e) ∧
      (e.type = EV_ABS → Fits (granted choosy 1080 1920) 1080 1920 e) ∧
      (e.type = EV_REL → -8 ≤ e.value ∧ e.value ≤ 8 ∧ e.value ≠ 0) :=
  ⟨by decide +kernel, writes_heard opens_choosy _⟩

/-! ## The panel -/

/-- The touches among the calls. -/
def touches (calls : List Call) : List TouchCall := calls.filterMap touchOf

theorem event_keyed {e : Ev} (h : Keyed e) (p : Panel) : p.event e = p := by
  have hquiet : e.type ≠ EV_ABS ∧ ¬ (e.type = EV_KEY ∧ e.code = BTN_TOUCH) := by
    cases h with
    | report => decide
    | key down hcode => exact ⟨key_ne_abs, fun hkey => button_not_key hcode hkey.2⟩
    | wheel hcode hv => exact ⟨rel_ne_abs, fun hkey => rel_ne_key hkey.1⟩
  unfold Panel.event
  rw [if_neg hquiet.2, if_pos hquiet.1]

theorem replay_keyed {events : List Ev} (h : ∀ e ∈ events, Keyed e) (p : Panel) : p.replay events = p := by
  induction events with
  | nil => rfl
  | cons e events ih =>
    rw [Panel.replay_cons, event_keyed (h e List.mem_cons_self)]
    exact ih fun e' he' => h e' (List.mem_cons_of_mem e he')

theorem replay_append (p : Panel) (events later : List Ev) :
    p.replay (events ++ later) = (p.replay events).replay later := List.foldl_append

theorem panel_injectAll {width height : Int32} {made : List Request} (h : Opened refusal width height made)
    (calls : List Call) (d : UInput) (p : Panel) :
    ((d.injectAll calls).2.slots, p.replay ((d.injectAll calls).1.filter fun e => Announced made e)) =
      (touches calls).foldl TouchCall.step (d.slots, p) := by
  induction calls generalizing d p with
  | nil => rfl
  | cons c calls ih =>
    rw [injectAll, List.filter_append, replay_append, ih]
    cases hc : touchOf c with
    | none =>
      obtain ⟨hsame, hkeyed⟩ := inject_other hc d
      have hquiet : ∀ e ∈ (d.inject c).1.filter (fun e => Announced made e), Keyed e :=
        fun e he => hkeyed e (List.mem_of_mem_filter he)
      rw [hsame, replay_keyed hquiet, touches, touches, List.filterMap_cons_none hc]
    | some touch =>
      have hall : (touch.apply d.slots).1.filter (fun e => Announced made e) = (touch.apply d.slots).1 := by
        rw [List.filter_eq_self]
        intro e he
        exact decide_eq_true (announced_touched h (touched_touch touch d.slots e he))
      rw [inject_touch hc, hall, touches, touches, List.filterMap_cons_some hc, List.foldl_cons]
      rfl

/-- The panel that the kernel makes of the writes mirrors the slots, whatever is called. -/
theorem panel_mirrors {unopened : Option String} {width height : Int32} {d : UInput} {made : List Request}
    (h : Returns (open_ refusal unopened width height) [] d made) (calls : List Call) :
    TouchCall.Mirrors ((d.injectAll calls).2.slots, Panel.new.replay (heard made (d.writes calls))) := by
  obtain ⟨-, hreq, rfl, rfl⟩ := open_iff.mp h
  rw [heard_writes, panel_injectAll (opened hreq)]
  exact (TouchCall.shows_after (touches calls)).mirrors

theorem panel_mirrors_choosy : TouchCall.Mirrors
    ((injectAll ⟨TouchSlots.new⟩ [.touch ACTION_DOWN 3 1 2 900, .text "a", .touch ACTION_MOVE 4 5 6 0]).2.slots,
      Panel.new.replay (heard (granted choosy 1080 1920) (UInput.writes ⟨TouchSlots.new⟩
        [.touch ACTION_DOWN 3 1 2 900, .text "a", .touch ACTION_MOVE 4 5 6 0]))) :=
  panel_mirrors opens_choosy _

end UInput
end DroidMirror.Server
