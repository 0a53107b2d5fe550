import DroidMirror.Server.Keys
import DroidMirror.Server.Reconfigure

/-! # Injection through the system

`SdkInject` of `crates/server/src/android/inject_sdk.rs` in the server's session.
The scale from the capture to the display is that of the launch; a display change
replaces both sizes and leaves the injector alone. `touches_land_iff` says of which
touches this makes no difference. -/
namespace DroidMirror.Server
open DroidMirror.Proto DroidMirror.Lib.Run

structure SdkInject where
  captureW : Int32
  captureH : Int32
  displayW : Int32
  displayH : Int32
  downTime : Int64
  deriving DecidableEq

/-- What `inject_motion` is given. -/
structure Motion (F : Type) where
  down : Int64
  now : Int64
  action : Int32
  x : F
  y : F
  pressure : F

namespace SdkInject
variable (F : Type) [F32 F]

def open_ (captureW captureH displayW displayH : Int32) : SdkInject :=
  { captureW := max captureW 1, captureH := max captureH 1
    displayW := max displayW 1, displayH := max displayH 1, downTime := 0 }

def toDisplay (s : SdkInject) (x y : Int32) : F × F :=
  let sx : F := F32.ofInt s.displayW.toInt / F32.ofInt s.captureW.toInt
  let sy : F := F32.ofInt s.displayH.toInt / F32.ofInt s.captureH.toInt
  (F32.ofInt x.toInt * sx, F32.ofInt y.toInt * sy)

/-- `now` is the answer of `uptime_millis`. Without one nothing is injected. -/
def touch (s : SdkInject) (now : Option Int64) (action : UInt8) (x y : Int32) (pressure : UInt16) :
    SdkInject × Option (Motion F) :=
  let p := s.toDisplay F x y
  let pressure : F := if action = ACTION_UP ∨ action = ACTION_CANCEL then 0.0
    else F32.clamp (F32.ofInt pressure.toNat / 65535.0) 0.05 1.0
  match now with
  | none => (s, none)
  | some now =>
    let down := if action = ACTION_DOWN ∨ s.downTime = 0 then now else s.downTime
    let kept := if action = ACTION_UP ∨ action = ACTION_CANCEL then 0 else down
    ({ s with downTime := kept }, some ⟨down, now, .ofNat action.toNat, p.1, p.2, pressure⟩)

/-- Only touches have a motion. -/
def control (s : SdkInject) (now : Option Int64) : Call → SdkInject × Option (Motion F)
  | .touch action _ x y pressure => s.touch F now action x y pressure
  | .key .. | .text .. | .scroll .. | .setEncoding .. | .pause .. => (s, none)

/-- The calls with their motions; `uptime` has the answers, by place in the log. -/
def controls (uptime : Nat → Option Int64) : Nat → SdkInject → List Call →
    SdkInject × List (Call × Option (Motion F))
  | _, s, [] => (s, [])
  | n, s, c :: calls =>
    let r := controls uptime (n + 1) (s.control F (uptime n) c).1 calls
    (r.1, (c, (s.control F (uptime n) c).2) :: r.2)

/-- The sizes are those of the other injector. -/
def SameSizes (s s' : SdkInject) : Prop := ∃ downTime, s' = { s with downTime }

variable {F}

theorem touch_sameSizes (s : SdkInject) (now : Option Int64) (action : UInt8) (x y : Int32)
    (pressure : UInt16) : s.SameSizes (s.touch F now action x y pressure).1 := by
  cases now with
  | none => exact ⟨s.downTime, rfl⟩
  | some now => exact ⟨_, rfl⟩

theorem control_sameSizes (s : SdkInject) (now : Option Int64) (c : Call) :
    s.SameSizes (s.control F now c).1 := by
  cases c with
  | touch action id x y pressure => exact s.touch_sameSizes now action x y pressure
  | _ => exact ⟨s.downTime, rfl⟩

theorem SameSizes.trans {s t u : SdkInject} (h : s.SameSizes t) (h' : t.SameSizes u) : s.SameSizes u := by
  obtain ⟨d, rfl⟩ := h
  obtain ⟨d', rfl⟩ := h'
  exact ⟨d', rfl⟩

theorem controls_sameSizes (uptime : Nat → Option Int64) (calls : List Call) : ∀ (n : Nat) (s : SdkInject),
    s.SameSizes (s.controls F uptime n calls).1 := by
  induction calls with
  | nil => exact fun n s => ⟨s.downTime, rfl⟩
  | cons c calls ih => exact fun n s => (s.control_sameSizes (uptime n) c).trans (ih (n + 1) _)

theorem toDisplay_eq (s : SdkInject) (x y : Int32) : s.toDisplay ℚ x y =
    ((x.toInt * (s.displayW.toInt / s.captureW.toInt) : ℚ),
      (y.toInt * (s.displayH.toInt / s.captureH.toInt) : ℚ)) := rfl

theorem touch_point {s : SdkInject} {now : Option Int64} {action : UInt8} {x y : Int32} {pressure : UInt16}
    {m : Motion F} (h : (s.touch F now action x y pressure).2 = some m) : (m.x, m.y) = s.toDisplay F x y := by
  cases now with
  | none => cases h
  | some now =>
    cases h
    rfl

theorem controls_mem {uptime : Nat → Option Int64} {calls : List Call} :
    ∀ {n : Nat} {s : SdkInject} {r : Call × Option (Motion F)}, r ∈ (s.controls F uptime n calls).2 →
      ∃ s' now, s.SameSizes s' ∧ r.2 = (s'.control F now r.1).2 := by
  induction calls with
  | nil => exact fun h => nomatch h
  | cons c calls ih =>
    intro n s r h
    rcases List.mem_cons.mp h with rfl | h
    · exact ⟨s, uptime n, ⟨s.downTime, rfl⟩, rfl⟩
    · obtain ⟨s', now, hsame, hr⟩ := ih h
      exact ⟨s', now, (s.control_sameSizes (uptime n) c).trans hsame, hr⟩

end SdkInject

/-- The injector of a launch whose input manager opens. -/
def Launch.injector (F : Type) [F32Unsigned F] (cfg : ServerConfig) (l : Launch) : Option SdkInject :=
  let info := l.display.getD ⟨1080, 1920, 0, "Android"⟩
  let (w, h) := fitMaxSize F info.width.toUInt32 info.height.toUInt32 cfg.maxSize
  if l.backend = .sdk then some (SdkInject.open_ w.toInt32 h.toInt32 info.width info.height) else none

/-- The capture size last announced. -/
def announcedSize (log : List Event) : Option (UInt16 × UInt16) :=
  (announcement log).map fun a => (a.2.1, a.2.2.1)

namespace Serving

/-! ## The size announced -/

section
variable {F : Type} [F32Unsigned F] {cfg : ServerConfig}

/-- The size announced is the one for the display seen. -/
def Derived (F : Type) [F32Unsigned F] (cfg : ServerConfig) (s : Serving) : Prop :=
  announcedSize s.log = some ((fitMaxSize F s.seenW.toUInt32 s.seenH.toUInt32 cfg.maxSize).1.toUInt16,
    (fitMaxSize F s.seenW.toUInt32 s.seenH.toUInt32 cfg.maxSize).2.toUInt16)

theorem announcement_upToCheck (s : Serving) (t : Turn) :
    announcement (s.upToCheck F t).log = announcement s.log := by
  obtain ⟨demux, ended, hreceive⟩ := receive_eq F s t
  have hlog : announcement (s.receive F t).log = announcement s.log := by
    rw [hreceive]
    exact announcement_calls _ _
  obtain ⟨c, _, hsend⟩ := ((s.receive F t).apply t).sendFrame_cases t
  unfold upToCheck
  simp only
  split
  · exact hlog
  · rcases hsend with hsend | ⟨_, au, hsend⟩
    · rw [hsend]
      exact hlog
    · rw [hsend]
      exact (announcement_snoc _ _).trans hlog

theorem derived_begin {l : Launch} {s : Serving} (hs : begin_ F cfg l = some s) : Derived F cfg s := by
  unfold begin_ at hs
  simp only at hs
  split at hs
  · cases hs
  · split at hs
    · cases hs
    · split at hs
      · cases hs
        rfl
      · cases hs

theorem derived_step {s s' : Serving} {t : Turn} (hi : Derived F cfg s) (hok : Reconfigures F cfg s t)
    (h : step F cfg s t = some s') : Derived F cfg s' := by
  have hup : Derived F cfg (s.upToCheck F t) := by
    obtain ⟨_, hw, hh, _⟩ := upToCheck_frame F s t
    unfold Derived announcedSize at hi ⊢
    rw [announcement_upToCheck, hw, hh]
    exact hi
  unfold step at h
  split at h
  · cases h
  · cases h
    unfold turn
    simp only
    split
    · exact hup
    · rename_i he
      rw [Bool.not_eq_true] at he
      cases hc : s.change? t with
      | none =>
        rw [checkDisplay_none F cfg (by rw [change_upToCheck, hc])]
        exact hup
      | some now =>
        rw [checkDisplay_ok F cfg (by rw [change_upToCheck, hc]) (hok he now hc)]
        simp only [Derived, announcedSize, adopt, announcement_snoc]
        rfl

end

/-! ## Where touches land -/

section
variable (uptime : Nat → Option Int64)

/-- The injector after the calls of a turn. -/
def inject (inj : SdkInject) (s : Serving) (t : Turn) (_ : Serving) : SdkInject :=
  (inj.controls ℚ uptime s.log.length (s.dispatched ℚ t)).1

/-- The calls of a turn, with the motions injected. -/
def injected (p : SdkInject × Serving) (t : Turn) : List (Call × Option (Motion ℚ)) :=
  (p.1.controls ℚ uptime p.2.log.length (p.2.dispatched ℚ t)).2

/-- A touch is injected where the display seen shows its point of the capture
announced. -/
def LandsAt (s : Serving) : Call × Option (Motion ℚ) → Prop
  | (.touch _ _ x y _, some m) => ∀ size ∈ announcedSize s.log,
    (m.x, m.y) = ((x.toInt * s.seenW.toInt / size.1.toNat : ℚ), (y.toInt * s.seenH.toInt / size.2.toNat : ℚ))
  | _ => True

/-- The display is to the capture announced as it was at the launch, along each
axis on which the touch is not at zero. -/
def ScaledAt (launch : SdkInject) (s : Serving) : Call × Option (Motion ℚ) → Prop
  | (.touch _ _ x y _, some _) => ∀ size ∈ announcedSize s.log,
    (x = 0 ∨ (launch.displayW.toInt / launch.captureW.toInt : ℚ) = s.seenW.toInt / size.1.toNat) ∧
      (y = 0 ∨ (launch.displayH.toInt / launch.captureH.toInt : ℚ) = s.seenH.toInt / size.2.toNat)
  | _ => True

def Lands (p : SdkInject × Serving) (t : Turn) : Prop := ∀ r ∈ injected uptime p t, LandsAt p.2 r

def Scaled (launch : SdkInject) (p : SdkInject × Serving) (t : Turn) : Prop :=
  ∀ r ∈ injected uptime p t, ScaledAt launch p.2 r

instance (s : Serving) : DecidablePred (LandsAt s)
  | (.touch _ _ _ _ _, some _) => Option.decidableForallMem _
  | (.touch _ _ _ _ _, none) => isTrue trivial
  | (.key .., _) => isTrue trivial
  | (.text .., _) => isTrue trivial
  | (.scroll .., _) => isTrue trivial
  | (.setEncoding .., _) => isTrue trivial
  | (.pause .., _) => isTrue trivial

instance (launch : SdkInject) (s : Serving) : DecidablePred (ScaledAt launch s)
  | (.touch _ _ _ _ _, some _) => Option.decidableForallMem _
  | (.touch _ _ _ _ _, none) => isTrue trivial
  | (.key .., _) => isTrue trivial
  | (.text .., _) => isTrue trivial
  | (.scroll .., _) => isTrue trivial
  | (.setEncoding .., _) => isTrue trivial
  | (.pause .., _) => isTrue trivial

instance (uptime : Nat → Option Int64) (p : SdkInject × Serving) (t : Turn) : Decidable (Lands uptime p t) :=
  List.decidableBAll _ (injected uptime p t)

instance (uptime : Nat → Option Int64) (launch : SdkInject) (p : SdkInject × Serving) (t : Turn) :
    Decidable (Scaled uptime launch p t) :=
  List.decidableBAll _ (injected uptime p t)

theorem scaled_iff (v d c d' c' : ℚ) : v * (d / c) = v * d' / c' ↔ v = 0 ∨ d / c = d' / c' := by
  rw [mul_div_assoc, mul_eq_mul_left_iff, or_comm]

theorem toInt_eq_zero {v : Int32} : (v.toInt : ℚ) = 0 ↔ v = 0 := by
  rw [Int.cast_eq_zero, ← Int32.toInt_inj]
  rfl

theorem landsAt_iff {launch inj : SdkInject} (h : launch.SameSizes inj) (now : Option Int64) (s : Serving)
    {r : Call × Option (Motion ℚ)} (hr : r.2 = (inj.control ℚ now r.1).2) :
    LandsAt s r ↔ ScaledAt launch s r := by
  obtain ⟨c, m⟩ := r
  obtain ⟨downTime, rfl⟩ := h
  cases c with
  | touch action id x y pressure =>
    cases m with
    | none => exact Iff.rfl
    | some m =>
      refine forall_congr' fun size => forall_congr' fun _ => ?_
      rw [SdkInject.touch_point hr.symm, SdkInject.toDisplay_eq, Prod.mk.injEq, scaled_iff, scaled_iff,
        toInt_eq_zero, toInt_eq_zero]
  | _ => exact Iff.rfl

end

variable {cfg : ServerConfig} {uptime : Nat → Option Int64}

theorem sameSizes_step {launch : SdkInject} {p p' : SdkInject × Serving} {t : Turn}
    (h : launch.SameSizes p.1) (hs : observed (inject uptime) (step ℚ cfg) p t = some p') :
    launch.SameSizes p'.1 := by
  rw [(observed_eq_some.mp hs).2]
  exact h.trans (p.1.controls_sameSizes uptime _ _)

/-- `begin_` with the injector of the launch. -/
def beginSdk (cfg : ServerConfig) (l : Launch) : Option (SdkInject × Serving) :=
  (l.injector ℚ cfg).bind fun launch => (begin_ ℚ cfg l).map fun s => (launch, s)

/-- In a run in which every display change is made, the size announced is always
that for the display seen; and the touches land where they are seen exactly if the
display is to the capture as it was at the launch. -/
theorem touches_land_iff {l : Launch} {launch : SdkInject} {s : Serving} {turns : List Turn}
    (hs : beginSdk cfg l = some (launch, s)) (hok : Meets (step ℚ cfg) (Reconfigures ℚ cfg) s turns) :
    Meets (step ℚ cfg) (fun s _ => Derived ℚ cfg s) s turns ∧
      (Meets (observed (inject uptime) (step ℚ cfg)) (Lands uptime) (launch, s) turns ↔
        Meets (observed (inject uptime) (step ℚ cfg)) (Scaled uptime launch) (launch, s) turns) := by
  obtain ⟨launch', _, hs⟩ := Option.bind_eq_some_iff.mp hs
  obtain ⟨s', hs, heq⟩ := Option.map_eq_some_iff.mp hs
  cases heq
  constructor
  · exact meets_invariant (fun s a s' hi hok hs => derived_step hi hok hs) hok (derived_begin hs)
  · refine meets_congr ?_
    intro before t after p _ hrun
    have hsame : launch.SameSizes p.1 :=
      run_preserves (fun p a p' h hs => sameSizes_step h hs) hrun ⟨launch.downTime, rfl⟩
    refine forall_congr' fun r => forall_congr' fun hr => ?_
    obtain ⟨inj, now, hinj, hmotion⟩ := SdkInject.controls_mem hr
    exact landsAt_iff (hsame.trans hinj) now p.2 hmotion

/-- A touch at every place of the log can be timed. -/
def clock (n : Nat) : Option Int64 := some (.ofNat n)

/-- At full size the display may turn. -/
theorem touches_land_rotated : ∃ p, beginSdk .default .plain = some p ∧
    Meets (observed (inject clock) (step ℚ .default)) (Lands clock) p
      [.rotates 1, .reads (.touch 0 0 100 200 65535)] := by
  have hbegin : (beginSdk .default .plain).isSome = true := by decide +kernel
  obtain ⟨p, hp⟩ := Option.isSome_iff_exists.mp hbegin
  have hrun : ∀ p ∈ beginSdk .default .plain,
      Meets (step ℚ .default) (Reconfigures ℚ .default) p.2 [.rotates 1, .reads (.touch 0 0 100 200 65535)] ∧
        Meets (observed (inject clock) (step ℚ .default)) (Scaled clock p.1) p
          [.rotates 1, .reads (.touch 0 0 100 200 65535)] := by decide +kernel
  obtain ⟨hok, hscaled⟩ := hrun p hp
  exact ⟨p, hp, (touches_land_iff hp hok).2.mpr hscaled⟩

/-- Half the size of a display of 1080 by 1920, about. -/
def small : ServerConfig := { ServerConfig.default with maxSize := 720 }

/-- The display grows and is touched in the middle. -/
def grows : List Turn :=
  [{ Turn.idle with elapsed := true, display := some ⟨2160, 3840, 0, "Android"⟩ },
    .reads (.touch 0 0 202 360 65535)]

/-- The touch of the middle lands at a quarter. -/
theorem touch_misses : ¬ ∀ (cfg : ServerConfig) (l : Launch) (p : SdkInject × Serving) (turns : List Turn),
    beginSdk cfg l = some p → Meets (step ℚ cfg) (Reconfigures ℚ cfg) p.2 turns →
    Meets (observed (inject clock) (step ℚ cfg)) (Lands clock) p turns := by
  intro h
  have hbegin : (beginSdk small .plain).isSome = true := by decide +kernel
  obtain ⟨p, hp⟩ := Option.isSome_iff_exists.mp hbegin
  have hrun : ∀ p ∈ beginSdk small .plain, Meets (step ℚ small) (Reconfigures ℚ small) p.2 grows ∧
      ¬ Meets (observed (inject clock) (step ℚ small)) (Lands clock) p grows := by decide +kernel
  obtain ⟨hok, hmisses⟩ := hrun p hp
  exact hmisses (h small .plain p grows hp hok)

end Serving
end DroidMirror.Server
