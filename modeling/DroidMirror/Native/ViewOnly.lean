import DroidMirror.Native.App

/-! # View only

With `--no-control` the handlers test the flag one by one. Two do not: a key's
release is sent in any case (`view_only_release`), and so is a click in the
navigation row. Nothing else gets through (`view_only_iff`). -/
namespace DroidMirror.Native
open DroidMirror.Proto DroidMirror.Lib.Run

namespace App
variable {F : Type} [F32Unsigned F]

/-- The event is neither the release of a key the device knows nor a click in
the navigation row. -/
def inert (a : App F) : WindowEvent F → Bool
  | .keyboardInput event => event.state = .pressed || (androidKey event.physicalKey).isNone
  | .mouseInput state button => !(state = .pressed && button = .left && a.inToolbar && a.navRow)
  | .closeRequested | .resized _ _ | .redrawRequested _ | .occluded _ | .modifiersChanged _
  | .cursorMoved _ _ | .mouseWheel _ | .other => true

omit [F32Unsigned F] in
theorem injects_tap (code : UInt32) : ¬ ∀ c ∈ tap (F := F) code, ¬ Injects c :=
  fun h => h _ List.mem_cons_self trivial

/-- In view-only mode an event sends nothing to the device exactly if it is
inert. -/
theorem windowEvent_inert {a : App F} (ha : a.noControl = true) (clipboard : Option String)
    (e : WindowEvent F) : (∀ c ∈ (a.windowEvent clipboard e).2, ¬ Injects c) ↔ a.inert e = true := by
  cases e with
  | mouseInput state button =>
    simp only [windowEvent]
    cases a.mouseInput_spec state button with
    | none hk hq hl =>
      refine iff_of_true hq ?_
      by_cases hb : button = .left
      · obtain ⟨_, _, hn⟩ := hl hb
        simp [inert, hn]
      · simp [inert, hb]
    | back hn hb hr => exact absurd (ha.symm.trans hn) (by simp)
    | nav code hs hb ht hn hk hc =>
      rw [hc]
      exact iff_of_false (injects_tap code) (by simp [inert, hs, hb, ht, hn])
    | mirror hb ht hk hc =>
      rw [hc, ha]
      refine iff_of_true injects_nothing ?_
      by_cases hs : state = .pressed
      · simp [inert, ht hs]
      · simp [inert, hs]
  | keyboardInput event =>
    simp only [windowEvent]
    cases a.keyboardInput_spec clipboard event with
    | none hk hq hr =>
      refine iff_of_true hq ?_
      cases hs : event.state with
      | pressed => simp [inert, hs]
      | released => simp [inert, hr hs]
    | release code hs hc hr =>
      rw [hr]
      refine iff_of_false (fun h => h _ List.mem_cons_self trivial) ?_
      simp [inert, hs, hc]
    | press hs hn hf hr => exact absurd (ha.symm.trans hn) (by simp)
  | cursorMoved x y => exact iff_of_true (by simp [windowEvent, ha]) rfl
  | mouseWheel delta => exact iff_of_true (by simp [windowEvent, ha]) rfl
  | closeRequested => exact iff_of_true (by simp [windowEvent, Injects]) rfl
  | occluded on => exact iff_of_true (by simp [windowEvent, Injects]) rfl
  | _ => exact iff_of_true injects_nothing rfl

end App

namespace Host
variable {F : Type} [F32Unsigned F]

/-- The condition: every event is inert. -/
def Inert (h : Host F) : Input F → Prop
  | .event e _ => h.app.inert e = true
  | .resumed _ _ | .sized _ => True

instance (h : Host F) : (i : Input F) → Decidable (Inert h i)
  | .event e _ => inferInstanceAs (Decidable (h.app.inert e = true))
  | .resumed _ _ | .sized _ => inferInstanceAs (Decidable True)

/-- Nothing was sent to the device. -/
def Silent (h : Host F) : Prop := h.app.noControl = true ∧ ∀ c ∈ h.sent, ¬ App.Injects c

theorem silent_step {h h' : Host F} {i : Input F} (hs : step h i = some h') :
    Silent h' ↔ Silent h ∧ Inert h i := by
  have hcontrol := step_noControl hs
  unfold Silent
  rw [hcontrol]
  cases i with
  | resumed size scale =>
    cases hs
    exact (and_iff_left trivial).symm
  | sized size =>
    cases hs
    exact (and_iff_left trivial).symm
  | event e clipboard =>
    cases hs
    rw [and_assoc]
    refine and_congr_right fun ha => ?_
    rw [List.forall_mem_append, App.windowEvent_inert ha]
    rfl

/-- **View only.** In view-only mode a run sends nothing to the device exactly
if no event releases a key the device knows or clicks in the navigation row. -/
theorem view_only_iff {is : List (Input F)} {t : Host F} (h : run step (start true) is = some t) :
    (∀ c ∈ t.sent, ¬ App.Injects c) ↔ Meets step Inert (start (F := F) true) is := by
  have hstart : Silent (start true : Host F) := ⟨rfl, App.injects_nothing⟩
  have hiff := run_iff_meets (fun _ _ _ hs => silent_step hs) h
  rw [and_iff_right hstart] at hiff
  rw [← hiff]
  exact (and_iff_right (run_noControl h)).symm

/-- A letter pressed. -/
def pressA : KeyEvent := ⟨.code .keyA, .character "a", some "a", .pressed, false⟩

/-- A click on the mirror, and a letter pressed. -/
def clickAndPress : List (Input ℚ) :=
  [.resumed (420, 900) 1, .event (.cursorMoved 10 10) none,
    .event (.mouseInput .pressed .left) none, .event (.cursorMoved 20 10) none,
    .event (.mouseInput .released .left) none, .event (.keyboardInput pressA) none]

theorem view_only_click : ∃ t, run step (start true) clickAndPress = some t ∧
    ∀ c ∈ t.sent, ¬ App.Injects c := by
  have hsome : (run step (start true) clickAndPress).isSome = true := by decide +kernel
  obtain ⟨t, ht⟩ := Option.isSome_iff_exists.mp hsome
  exact ⟨t, ht, (view_only_iff ht).mpr (by decide +kernel)⟩

/-- The release of a letter is sent. -/
theorem view_only_release :
    ¬ ∀ (is : List (Input Float32)) (t : Host Float32), run step (start true) is = some t →
      ∀ c ∈ t.sent, ¬ App.Injects c :=
  fun h => h [.event (.keyboardInput { pressA with state := .released }) none] _ rfl _
    List.mem_cons_self trivial

end Host

end DroidMirror.Native
