import DroidMirror.Native.App

/-! # Keys

What a press sends depends on the modifiers, the text and the shortcuts, what a
release sends on the physical key alone. Three of the shortcuts send the press
of a navigation key and leave its release to nobody (`home_stuck`); without
them no key of the device stays down when none of the keyboard is held
(`no_key_stuck`). -/
namespace DroidMirror.Native
open DroidMirror.Proto DroidMirror.Lib.Run

namespace App
variable {F : Type} [F32Unsigned F]

/-- The command presses the key on the device. -/
def Downs (code : UInt32) : HostCmd F → Prop
  | .key .down keycode _ | .nav keycode .down => keycode = code
  | _ => False

def Ups (code : UInt32) : HostCmd F → Prop
  | .key .up keycode _ | .nav keycode .up => keycode = code
  | _ => False

/-- The device was told of a press of the key, and not of its release. -/
def Stuck (code : UInt32) (sent : List (HostCmd F)) : Prop := Since (Ups code) (Downs code) sent

/-- The commands leave no key pressed that was not before. -/
def Settled (cmds : List (HostCmd F)) : Prop :=
  ∀ sent code, Stuck code (sent ++ cmds) → Stuck code sent

omit [F32Unsigned F] in
theorem settled_of_no_downs {cmds : List (HostCmd F)} (h : ∀ c ∈ cmds, ∀ code, ¬ Downs code c) :
    Settled cmds :=
  fun _ code hstuck => Since.of_append hstuck fun c hc => h c hc code

omit [F32Unsigned F] in
theorem settled_nil : Settled ([] : List (HostCmd F)) :=
  settled_of_no_downs fun _ hc => absurd hc List.not_mem_nil

omit [F32Unsigned F] in
theorem settled_quiet {cmds : List (HostCmd F)} (h : ∀ c ∈ cmds, ¬ Injects c) : Settled cmds := by
  refine settled_of_no_downs fun c hc code hdown => h c hc ?_
  cases c with
  | key action keycode metaState => trivial
  | nav keycode action => trivial
  | _ => exact False.elim hdown

omit [F32Unsigned F] in
theorem settled_single {c : HostCmd F} (h : ∀ code, ¬ Downs code c) : Settled [c] :=
  settled_of_no_downs fun _ hc => List.mem_singleton.mp hc ▸ h

omit [F32Unsigned F] in
theorem settled_tap (keycode : UInt32) : Settled (tap (F := F) keycode) := by
  intro sent code hstuck
  change Stuck code (sent ++ ([_] ++ [_])) at hstuck
  rw [← List.append_assoc] at hstuck
  rcases since_snoc.mp hstuck with hup | ⟨hup, hdown⟩
  · exact absurd hup not_false
  · rcases since_snoc.mp hdown with hdown | ⟨_, hsent⟩
    · exact absurd hdown hup
    · exact hsent

/-- The press is taken for a navigation key, of which only the press is sent. -/
def lone (a : App F) (event : KeyEvent) : Bool :=
  event.physicalKey ≠ .code .escape &&
    (a.mods.control && (event.logicalKey = .character "h" || event.logicalKey = .character "s") ||
      event.logicalKey = .audioVolumeUp)

/-- No press that comes to the mirror is taken for a navigation key. -/
def paired (a : App F) : WindowEvent F → Bool
  | .keyboardInput event =>
    !(event.state = .pressed && (event.autoRepeat || (a.captureShortcut event).isNone) &&
      a.lone event)
  | .closeRequested | .resized _ _ | .redrawRequested _ | .occluded _ | .modifiersChanged _
  | .cursorMoved _ _ | .mouseInput _ _ | .mouseWheel _ | .other => true

theorem mouseInput_settled (a : App F) (state : ElementState) (button : MouseButton) :
    Settled (a.mouseInput state button).2 := by
  cases a.mouseInput_spec state button with
  | none hk hq hl => exact settled_quiet hq
  | back hn hb hr =>
    rw [hr]
    exact settled_tap KEY_BACK
  | nav code hs hb ht hn hk hc =>
    rw [hc]
    exact settled_tap code
  | mirror hb ht hk hc =>
    rw [hc]
    split
    · exact settled_nil
    · exact settled_single fun _ => not_false

omit [F32Unsigned F] in
/-- A press on the mirror has the key itself down, or nothing new. -/
theorem onKey_stuck {a : App F} {event : KeyEvent} (hlone : a.lone event = false)
    (clipboard : Option String) {sent : List (HostCmd F)} {code : UInt32}
    (h : Stuck code (sent ++ a.onKey clipboard event)) :
    Stuck code sent ∨ androidKey event.physicalKey = some code := by
  have hpress := a.onKey_spec clipboard event
  generalize a.onKey clipboard event = cmds at h hpress
  cases hpress with
  | text text => exact .inl (settled_single (c := .text text) (fun _ => not_false) sent code h)
  | back hescape => exact .inl (settled_tap KEY_BACK sent code h)
  | nav keycode hescape hnav =>
    have htrue : a.lone event = true := by simpa [lone, hescape] using hnav
    cases hlone.symm.trans htrue
  | key keycode hkey =>
    rcases since_snoc.mp h with hdown | ⟨_, hsent⟩
    · exact .inr (hkey.trans (congrArg some hdown))
    · exact .inl hsent
  | none => exact .inl (settled_nil sent code h)

omit [F32Unsigned F] in
/-- What is down after a key was: its own key when it was pressed, else what
was before, without its own when it was released. -/
theorem keyboardInput_stuck {a : App F} {event : KeyEvent}
    (hp : a.paired (.keyboardInput event) = true) (clipboard : Option String)
    {sent : List (HostCmd F)} {code : UInt32}
    (h : Stuck code (sent ++ (a.keyboardInput clipboard event).2)) :
    (Stuck code sent ∧ (event.state = .released → androidKey event.physicalKey ≠ some code)) ∨
      (event.state = .pressed ∧ androidKey event.physicalKey = some code) := by
  cases a.keyboardInput_spec clipboard event with
  | none hk hq hr =>
    refine .inl ⟨settled_quiet hq sent code h, ?_⟩
    intro hreleased hcode
    cases (hr hreleased).symm.trans hcode
  | release keycode hreleased hkey hr =>
    rw [hr] at h
    rcases since_snoc.mp h with hdown | ⟨hup, hsent⟩
    · exact absurd hdown not_false
    · refine .inl ⟨hsent, ?_⟩
      intro _ hcode
      exact hup (Option.some.inj (hkey.symm.trans hcode))
  | press hpressed hn hf hr =>
    have hlone : a.lone event = false := by
      have hcomes : (event.autoRepeat || (a.captureShortcut event).isNone) = true := by
        rcases hf with hrepeat | hnone
        · simp [hrepeat]
        · simp [hnone]
      simpa [paired, hpressed, hcomes] using hp
    rw [hr] at h
    rcases onKey_stuck hlone clipboard h with hsent | hcode
    · exact .inl ⟨hsent, fun hreleased => nomatch hpressed.symm.trans hreleased⟩
    · exact .inr ⟨hpressed, hcode⟩

/-- The other events have nothing new down. -/
theorem windowEvent_settled (a : App F) (clipboard : Option String) {e : WindowEvent F}
    (he : ∀ event, e ≠ .keyboardInput event) : Settled (a.windowEvent clipboard e).2 := by
  cases e with
  | mouseInput state button => exact a.mouseInput_settled state button
  | keyboardInput event => exact absurd rfl (he event)
  | cursorMoved x y =>
    simp only [windowEvent]
    split
    · exact settled_single fun _ => not_false
    · exact settled_nil
  | mouseWheel delta =>
    simp only [windowEvent]
    split
    · exact settled_nil
    · exact settled_single fun _ => not_false
  | closeRequested =>
    refine settled_quiet ?_
    simp [windowEvent, Injects]
  | occluded on => exact settled_single fun _ => not_false
  | _ => exact settled_nil

end App

namespace Host
variable {F : Type} [F32Unsigned F]

def Presses (key : PhysicalKey) : Input F → Prop
  | .event (.keyboardInput event) _ => event.physicalKey = key ∧ event.state = .pressed
  | _ => False

def Releases (key : PhysicalKey) : Input F → Prop
  | .event (.keyboardInput event) _ => event.physicalKey = key ∧ event.state = .released
  | _ => False

/-- The key was pressed, and not released. -/
def Held (key : PhysicalKey) (inputs : List (Input F)) : Prop :=
  Since (Releases key) (Presses key) inputs

/-- The condition: no press is sent as that of a navigation key alone. -/
def Paired (h : Host F) : Input F → Prop
  | .event e _ => h.app.paired e = true
  | .resumed _ _ | .sized _ => True

instance (h : Host F) : (i : Input F) → Decidable (Paired h i)
  | .event e _ => inferInstanceAs (Decidable (h.app.paired e = true))
  | .resumed _ _ | .sized _ => inferInstanceAs (Decidable True)

/-- A key the device has down is held on the keyboard. -/
def Tracked (inputs : List (Input F)) (h : Host F) : Prop :=
  h.app.noControl = false ∧
    ∀ code, App.Stuck code h.sent → ∃ key, androidKey key = some code ∧ Held key inputs

theorem tracked_step {past : List (Input F)} {h h' : Host F} {i : Input F} (ht : Tracked past h)
    (hok : Paired h i) (hs : step h i = some h') : Tracked (past ++ [i]) h' := by
  refine ⟨(step_noControl hs).trans ht.1, ?_⟩
  intro code hstuck
  -- nothing new, and no key released
  have hquiet : App.Stuck code h.sent → (∀ key, ¬ Releases key i) →
      ∃ key, androidKey key = some code ∧ Held key (past ++ [i]) := by
    intro hsent hnone
    obtain ⟨key, hkey, hheld⟩ := ht.2 code hsent
    exact ⟨key, hkey, since_snoc.mpr (.inr ⟨hnone key, hheld⟩)⟩
  cases i with
  | resumed size scale =>
    cases hs
    exact hquiet hstuck fun _ h => h
  | sized size =>
    cases hs
    exact hquiet hstuck fun _ h => h
  | event e clipboard =>
    cases hs
    cases e with
    | keyboardInput event =>
      rcases App.keyboardInput_stuck hok clipboard hstuck with ⟨hsent, hother⟩ | ⟨hpressed, hcode⟩
      · obtain ⟨key, hkey, hheld⟩ := ht.2 code hsent
        refine ⟨key, hkey, since_snoc.mpr (.inr ⟨?_, hheld⟩)⟩
        intro hreleased
        exact hother hreleased.2 (hreleased.1 ▸ hkey)
      · exact ⟨event.physicalKey, hcode, since_snoc.mpr (.inl ⟨rfl, hpressed⟩)⟩
    | _ =>
      refine hquiet (App.windowEvent_settled h.app clipboard ?_ h.sent code hstuck) fun _ h => h
      intro event he
      cases he

/-- **Keys come up.** In a run in which no press is taken for a navigation key,
no key of the device is down when none is held. -/
theorem no_key_stuck {is : List (Input F)} {t : Host F} (h : run step (start false) is = some t)
    (hok : Meets step Paired (start (F := F) false) is) (hfree : ∀ key, ¬ Held key is)
    (code : UInt32) : ¬ App.Stuck code t.sent := by
  have hstart : Tracked [] (start false : Host F) :=
    ⟨rfl, fun code hstuck => absurd hstuck (not_since_nil _ _)⟩
  have htracked := run_history (fun _ _ _ _ ht hok hs => tracked_step ht hok hs) h hok hstart
  intro hstuck
  obtain ⟨key, _, hheld⟩ := htracked.2 code hstuck
  exact hfree key hheld

/-- A letter held while the modifiers change, and Escape. -/
def typeA : List (Input ℚ) :=
  [.event (.modifiersChanged { Modifiers.empty with control := true }) none,
    .event (.keyboardInput ⟨.code .keyA, .character "a", none, .pressed, false⟩) none,
    .event (.keyboardInput ⟨.code .escape, .other, none, .pressed, false⟩) none,
    .event (.modifiersChanged .empty) none,
    .event (.keyboardInput ⟨.code .escape, .other, none, .released, false⟩) none,
    .event (.keyboardInput ⟨.code .keyA, .character "a", some "a", .released, false⟩) none]

theorem no_key_stuck_typeA : ∃ t, run step (start false) typeA = some t ∧
    ∀ code, ¬ App.Stuck code t.sent := by
  have hsome : (run step (start false) typeA).isSome = true := by decide +kernel
  obtain ⟨t, ht⟩ := Option.isSome_iff_exists.mp hsome
  refine ⟨t, ht, no_key_stuck ht (by decide +kernel) ?_⟩
  intro key
  simp [typeA, Held, since_cons, not_since_nil, Presses, Releases]
  exact ⟨fun h _ => h, fun h hne => absurd h hne⟩

/-- Ctrl+H presses the home key, and its release is that of H. -/
theorem home_stuck : ¬ ∀ (is : List (Input Float32)) (t : Host Float32),
    run step (start false) is = some t → (∀ key, ¬ Held key is) →
      ∀ code, ¬ App.Stuck code t.sent := by
  intro h
  refine h [.event (.modifiersChanged { Modifiers.empty with control := true }) none,
    .event (.keyboardInput ⟨.code .keyH, .character "h", none, .pressed, false⟩) none,
    .event (.keyboardInput ⟨.code .keyH, .character "h", none, .released, false⟩) none] _ rfl ?_
    KEY_HOME ?_
  · simp [Held, since_cons, not_since_nil, Presses, Releases]
  · refine since_cons.mpr (.inl ⟨rfl, ?_⟩)
    have hother : (36 : UInt32) ≠ KEY_HOME := by decide
    intro c hc hup
    cases List.mem_singleton.mp hc
    exact hother hup

end Host
end DroidMirror.Native
