import DroidMirror.Native.App
import Mathlib.Data.List.Chain

/-! # Gestures

A press on the mirror opens a gesture, the release closes it. A press in the
toolbar opens none, and its release is sent all the same (`toolbar_release`):
when presses and releases alternate, the touches sent are bracketed exactly if
no release ends a click in the toolbar (`touches_bracketed`). -/
namespace DroidMirror.Native
open DroidMirror.Proto DroidMirror.Lib.Run

/-! ## Bracketed touches -/

/-- One gesture after another, the last of them maybe unfinished. -/
inductive Gestures : List TouchAction → Prop
  | nil : Gestures []
  | unfinished (moves : ℕ) : Gestures (.down :: List.replicate moves .move)
  | cons (moves : ℕ) {rest : List TouchAction} (h : Gestures rest) :
      Gestures (.down :: (List.replicate moves .move ++ .up :: rest))

/-- The next touch, inside a gesture or outside. -/
def gesture : Bool → TouchAction → Option Bool
  | false, .down => some true
  | true, .move => some true
  | true, .up => some false
  | _, _ => none

theorem run_moves (moves : ℕ) : run gesture true (List.replicate moves .move) = some true := by
  induction moves with
  | zero => rfl
  | succ moves ih => exact run_cons.mpr ⟨true, rfl, ih⟩

theorem Gestures.runs {touches : List TouchAction} (h : Gestures touches) :
    ∃ inside, run gesture false touches = some inside := by
  induction h with
  | nil => exact ⟨false, rfl⟩
  | unfinished moves => exact ⟨true, run_cons.mpr ⟨true, rfl, run_moves moves⟩⟩
  | cons moves h ih =>
    obtain ⟨inside, hrest⟩ := ih
    exact ⟨inside, run_cons.mpr ⟨true, rfl, run_append.mpr
      ⟨true, run_moves moves, run_cons.mpr ⟨false, rfl, hrest⟩⟩⟩⟩

theorem Gestures.move {rest : List TouchAction} (h : Gestures (.down :: rest)) :
    Gestures (.down :: .move :: rest) := by
  cases h with
  | unfinished moves => exact .unfinished (moves + 1)
  | cons moves h => exact .cons (moves + 1) h

/-- From inside a gesture, as if its press were still to come. -/
theorem gestures_of_run {touches : List TouchAction} : ∀ {inside last : Bool},
    run gesture inside touches = some last →
      Gestures (if inside then .down :: touches else touches) := by
  induction touches with
  | nil =>
    intro inside last _
    cases inside with
    | false => exact .nil
    | true => exact .unfinished 0
  | cons touch touches ih =>
    intro inside last h
    obtain ⟨next, hnext, hrest⟩ := run_cons.mp h
    have hgestures := ih hrest
    cases inside <;> cases touch <;> cases hnext
    · exact hgestures
    · exact .cons 0 hgestures
    · exact hgestures.move

theorem gestures_iff {touches : List TouchAction} :
    Gestures touches ↔ ∃ inside, run gesture false touches = some inside :=
  ⟨Gestures.runs, fun ⟨_, h⟩ => gestures_of_run h⟩

/-! ## What an event sends -/

/-- The touch the command sends. -/
def touch {F : Type} : HostCmd F → Option TouchAction
  | .touch action .. => some action
  | .key .. | .nav .. | .text _ | .scroll .. | .pause _ | .recordMp4 _ | .quit => none

namespace App
variable {F : Type} [F32Unsigned F]

/-- A touch is sent, the buttons are as the event leaves them. -/
inductive Touched (a : App F) : WindowEvent F → App F × List (HostCmd F) → Prop
  | none {e r} (hc : r.2.filterMap touch = []) (hb : r.1.buttons = a.buttons)
      (he : ∀ state, e = .mouseInput state .left → state = .pressed ∧ a.inToolbar = true) :
      Touched a e r
  | move {x y r} (hc : r.2.filterMap touch = [.move]) (hb : r.1.buttons = a.buttons)
      (ha : a.buttons ≠ 0) : Touched a (.cursorMoved x y) r
  | press {r} (hc : r.2.filterMap touch = [.down]) (hb : r.1.buttons = 1)
      (ht : a.inToolbar = false) : Touched a (.mouseInput .pressed .left) r
  | release {r} (hc : r.2.filterMap touch = [.up]) (hb : r.1.buttons = 0) :
      Touched a (.mouseInput .released .left) r

omit [F32Unsigned F] in
theorem touch_quiet {cmds : List (HostCmd F)} (h : ∀ c ∈ cmds, ¬ Injects c) :
    cmds.filterMap touch = [] := by
  refine List.filterMap_eq_nil_iff.mpr fun c hc => ?_
  cases c with
  | touch action x y viewW viewH => exact absurd trivial (h _ hc)
  | _ => rfl

theorem mouseInput_touched {a : App F} (ha : a.noControl = false) (state : ElementState)
    (button : MouseButton) :
    Touched a (.mouseInput state button) (a.mouseInput state button) := by
  cases a.mouseInput_spec state button with
  | none hk hq hl =>
    refine .none (touch_quiet hq) hk.buttons ?_
    intro state' he
    cases he
    exact ⟨(hl rfl).1, (hl rfl).2.1⟩
  | back hn hb hr =>
    refine .none (by rw [hr]; rfl) (by rw [hr]) ?_
    intro state' he
    cases he
    cases hb
  | nav code hs hb ht hn hk hc =>
    refine .none (by rw [hc]; rfl) hk.buttons ?_
    intro state' he
    cases he
    exact ⟨hs, ht⟩
  | mirror hb ht hk hc =>
    rw [ha] at hc
    subst hb
    cases state with
    | pressed => exact .press (by rw [hc]; rfl) (by rw [hk]; rfl) (ht rfl)
    | released => exact .release (by rw [hc]; rfl) (by rw [hk]; rfl)

theorem keyboardInput_touched (a : App F) (clipboard : Option String) (event : KeyEvent) :
    Touched a (.keyboardInput event) (a.keyboardInput clipboard event) := by
  cases a.keyboardInput_spec clipboard event with
  | none hk hq hr => exact .none (touch_quiet hq) hk.buttons (by simp)
  | release code hs hc hr =>
    rw [hr]
    exact .none rfl rfl (by simp)
  | press hs hn hf hr =>
    rw [hr]
    refine .none ?_ rfl (by simp)
    exact onKey_filterMap (fun _ => rfl) (fun _ _ => rfl) (fun _ _ _ => rfl) a clipboard event

theorem windowEvent_touched {a : App F} (ha : a.noControl = false) (clipboard : Option String)
    (e : WindowEvent F) : Touched a e (a.windowEvent clipboard e) := by
  cases e with
  | mouseInput state button => exact mouseInput_touched ha state button
  | cursorMoved x y =>
    by_cases hb : a.buttons = 0
    · refine .none ?_ rfl (by simp)
      simp [windowEvent, hb]
    · refine .move ?_ rfl hb
      simp [windowEvent, hb, ha, touch, sendTouch]
  | keyboardInput event => exact keyboardInput_touched a clipboard event
  | redrawRequested msgs =>
    exact .none rfl (kept_receives a msgs).buttons (by simp)
  | mouseWheel delta =>
    refine .none ?_ ?_ (by simp)
    · simp [windowEvent, ha, touch]
    · simp [windowEvent, ha]
  | _ => exact .none rfl rfl (by simp)

/-- A press of the left button on the mirror comes between gestures, a release
inside one. -/
def bracketed (a : App F) : WindowEvent F → Prop
  | .mouseInput state button => button = .left →
    match state with
    | .pressed => a.inToolbar = false → a.buttons = 0
    | .released => a.buttons ≠ 0
  | .closeRequested | .resized _ _ | .redrawRequested _ | .occluded _ | .modifiersChanged _
  | .cursorMoved _ _ | .mouseWheel _ | .keyboardInput _ | .other => True

/-- A release of the left button ends a gesture. -/
def closing (a : App F) : WindowEvent F → Bool
  | .mouseInput state button => !(state = .released && button = .left) || a.buttons ≠ 0
  | .closeRequested | .resized _ _ | .redrawRequested _ | .occluded _ | .modifiersChanged _
  | .cursorMoved _ _ | .mouseWheel _ | .keyboardInput _ | .other => true

theorem bracketed_of_toolbar {a : App F} {e : WindowEvent F}
    (h : ∀ state, e = .mouseInput state .left → state = .pressed ∧ a.inToolbar = true) :
    a.bracketed e := by
  cases e with
  | mouseInput state button =>
    intro hb
    obtain ⟨rfl, ht⟩ := h state (congrArg _ hb)
    exact fun hf => nomatch ht.symm.trans hf
  | _ => trivial

end App

/-! ## Runs -/

namespace Host
variable {F : Type} [F32Unsigned F]

def touches (h : Host F) : List TouchAction := h.sent.filterMap touch

/-- The gestures sent so far leave off where the button says. -/
def Open (h : Host F) : Prop :=
  h.app.noControl = false ∧
    ∀ inside, run gesture false h.touches = some inside → inside = decide (h.app.buttons ≠ 0)

def Bracketed (h : Host F) : Input F → Prop
  | .event e _ => h.app.bracketed e
  | .resumed _ _ | .sized _ => True

omit [F32Unsigned F] in
theorem gestures_of_open {h : Host F} (ho : Open h) :
    Gestures h.touches ↔ run gesture false h.touches = some (decide (h.app.buttons ≠ 0)) := by
  rw [gestures_iff]
  constructor
  · intro ⟨inside, hrun⟩
    rw [← ho.2 inside hrun]
    exact hrun
  · exact fun hrun => ⟨_, hrun⟩

omit [F32Unsigned F] in
/-- What a step sends goes on from where the button says. -/
theorem touches_step {h h' : Host F} {new : List TouchAction} {ok : Prop} (ho : Open h)
    (hc : h'.app.noControl = h.app.noControl) (ht : h'.touches = h.touches ++ new)
    (hnew : ∀ last, run gesture (decide (h.app.buttons ≠ 0)) new = some last ↔
      ok ∧ last = decide (h'.app.buttons ≠ 0)) :
    Open h' ∧ (Gestures h'.touches ↔ Gestures h.touches ∧ ok) := by
  have hrun : ∀ last, run gesture false h'.touches = some last ↔
      Gestures h.touches ∧ ok ∧ last = decide (h'.app.buttons ≠ 0) := by
    intro last
    rw [ht, run_append, gestures_of_open ho, ← hnew]
    constructor
    · intro ⟨inside, hpast, hlast⟩
      rw [ho.2 inside hpast] at hlast hpast
      exact ⟨hpast, hlast⟩
    · exact fun ⟨hpast, hlast⟩ => ⟨_, hpast, hlast⟩
  refine ⟨⟨hc.trans ho.1, fun inside h => ((hrun inside).mp h).2.2⟩, ?_⟩
  rw [gestures_iff]
  constructor
  · intro ⟨last, hlast⟩
    have hparts := (hrun last).mp hlast
    exact ⟨hparts.1, hparts.2.1⟩
  · exact fun ⟨hpast, hok⟩ => ⟨_, (hrun _).mpr ⟨hpast, hok, rfl⟩⟩

theorem step_bracketed {h h' : Host F} {i : Input F} (ho : Open h) (hs : step h i = some h') :
    Open h' ∧ (Gestures h'.touches ↔ Gestures h.touches ∧ Bracketed h i) := by
  have hcontrol := step_noControl hs
  have hquiet : h'.touches = h.touches ++ [] → h'.app.buttons = h.app.buttons →
      Bracketed h i → Open h' ∧ (Gestures h'.touches ↔ Gestures h.touches ∧ Bracketed h i) := by
    intro ht hb hok
    refine touches_step ho hcontrol ht fun last => ?_
    rw [hb, and_iff_right hok]
    exact Option.some_inj.trans eq_comm
  cases i with
  | resumed size scale =>
    cases hs
    exact hquiet (List.append_nil _).symm (App.kept_resumed h.app size scale).buttons trivial
  | sized size =>
    cases hs
    exact hquiet (List.append_nil _).symm rfl trivial
  | event e clipboard =>
    cases hs
    have ht : touches ⟨(h.app.windowEvent clipboard e).1,
        h.sent ++ (h.app.windowEvent clipboard e).2⟩ =
          h.touches ++ (h.app.windowEvent clipboard e).2.filterMap touch :=
      List.filterMap_append
    cases App.windowEvent_touched ho.1 clipboard e with
    | none hc hb he =>
      rw [hc] at ht
      exact hquiet ht hb (App.bracketed_of_toolbar he)
    | move hc hb ha =>
      rw [hc] at ht
      refine touches_step ho hcontrol ht fun last => ?_
      rw [hb, decide_eq_true ha]
      exact (Option.some_inj.trans eq_comm).trans (and_iff_right trivial).symm
    | press hc hb hin =>
      rw [hc] at ht
      refine touches_step ho hcontrol ht fun last => ?_
      have hok : Bracketed h (.event (.mouseInput .pressed .left) clipboard) ↔
          h.app.buttons = 0 :=
        ⟨fun hok => hok rfl hin, fun hzero _ _ => hzero⟩
      rw [hok, hb]
      by_cases hbuttons : h.app.buttons = 0
      · simp [hbuttons, run, gesture, eq_comm]
      · simp [hbuttons, run, gesture]
    | release hc hb =>
      rw [hc] at ht
      refine touches_step ho hcontrol ht fun last => ?_
      have hok : Bracketed h (.event (.mouseInput .released .left) clipboard) ↔
          h.app.buttons ≠ 0 :=
        ⟨fun hok => hok rfl, fun hopen _ => hopen⟩
      rw [hok, hb]
      by_cases hbuttons : h.app.buttons = 0
      · simp [hbuttons, run, gesture]
      · simp [hbuttons, run, gesture, eq_comm]

/-! ## Alternating buttons -/

/-- The left button is pressed or released. -/
def left : Input F → Option ElementState
  | .event (.mouseInput state button) _ => if button = .left then some state else none
  | _ => none

/-- The left button's presses and releases alternate. -/
def Alternates (inputs : List (Input F)) : Prop := (inputs.filterMap left).IsChain (· ≠ ·)

instance (inputs : List (Input F)) : Decidable (Alternates inputs) :=
  inferInstanceAs (Decidable ((inputs.filterMap left).IsChain (· ≠ ·)))

/-- The condition: a release of the left button ends a gesture. -/
def Closing (h : Host F) : Input F → Prop
  | .event e _ => h.app.closing e = true
  | .resumed _ _ | .sized _ => True

instance (h : Host F) : (i : Input F) → Decidable (Closing h i)
  | .event e _ => inferInstanceAs (Decidable (h.app.closing e = true))
  | .resumed _ _ | .sized _ => inferInstanceAs (Decidable True)

omit [F32Unsigned F] in
theorem left_eq_some {i : Input F} {state : ElementState} (h : left i = some state) :
    ∃ clipboard, i = .event (.mouseInput state .left) clipboard := by
  revert h
  fun_cases left i with
  | case1 state' clipboard =>
    intro h
    cases h
    exact ⟨clipboard, rfl⟩
  | _ =>
    intro h
    cases h

/-- A button that is down was pressed last. -/
def LastPressed (past : List (Input F)) (h : Host F) : Prop :=
  h.app.noControl = false ∧
    (h.app.buttons ≠ 0 → (past.filterMap left).getLast? = some .pressed)

theorem lastPressed_step {past : List (Input F)} {h h' : Host F} {i : Input F}
    (hl : LastPressed past h) (hs : step h i = some h') : LastPressed (past ++ [i]) h' := by
  obtain ⟨hc, hl⟩ := hl
  refine ⟨(step_noControl hs).trans hc, ?_⟩
  rw [List.filterMap_append]
  have hquiet : left i = none → h'.app.buttons = h.app.buttons → h'.app.buttons ≠ 0 →
      (past.filterMap left ++ [i].filterMap left).getLast? = some .pressed := by
    intro hi hb hdown
    rw [List.filterMap_cons_none hi, List.filterMap_nil, List.append_nil]
    exact hl (hb ▸ hdown)
  cases i with
  | resumed size scale =>
    cases hs
    exact hquiet rfl (App.kept_resumed h.app size scale).buttons
  | sized size =>
    cases hs
    exact hquiet rfl rfl
  | event e clipboard =>
    cases hs
    cases App.windowEvent_touched hc clipboard e with
    | none hq hb he =>
      cases hleft : left (.event e clipboard) with
      | none => exact hquiet hleft hb
      | some state =>
        -- a press in the toolbar
        obtain ⟨_, heq⟩ := left_eq_some hleft
        cases heq
        rw [(he state rfl).1]
        exact fun _ => List.getLast?_concat
    | move hq hb ha => exact hquiet rfl hb
    | press hq hb hin => exact fun _ => List.getLast?_concat
    | release hq hb => exact fun hdown => absurd hb hdown

theorem bracketed_iff_closing {h : Host F} {i : Input F}
    (hp : left i = some .pressed → h.app.buttons = 0) : Bracketed h i ↔ Closing h i := by
  cases i with
  | resumed size scale => exact Iff.rfl
  | sized size => exact Iff.rfl
  | event e clipboard =>
    cases e with
    | mouseInput state button =>
      by_cases hb : button = .left
      · subst hb
        cases state with
        | pressed => exact iff_of_true (fun _ _ => hp rfl) rfl
        | released => simp [Bracketed, App.bracketed, Closing, App.closing]
      · exact iff_of_true (fun h => absurd h hb) (by simp [Closing, App.closing, hb])
    | _ => exact iff_of_true trivial rfl

/-- A press comes with no button down. -/
theorem buttons_of_press {before after : List (Input F)} {i : Input F} {s : Host F}
    (ha : Alternates (before ++ i :: after)) (hrun : run step (start false) before = some s)
    (hi : left i = some .pressed) : s.app.buttons = 0 := by
  have hstart : LastPressed [] (start false : Host F) := ⟨rfl, fun hdown => absurd rfl hdown⟩
  have hlast : LastPressed ([] ++ before) s :=
    run_history (fun _ _ _ _ hl _ hs => lastPressed_step hl hs) hrun (meets_true _ _) hstart
  by_contra hdown
  rw [Alternates, List.filterMap_append, List.filterMap_cons_some hi] at ha
  exact (List.isChain_append.mp ha).2.2 _ (hlast.2 hdown) _ rfl rfl

/-- **Brackets.** When the left button is pressed and released in turn, the
touches sent are gestures exactly if no release comes outside a gesture. -/
theorem touches_bracketed {is : List (Input F)} {t : Host F}
    (h : run step (start false) is = some t) (ha : Alternates is) :
    Gestures t.touches ↔ Meets step Closing (start (F := F) false) is := by
  have hstart : Open (start false : Host F) := by
    refine ⟨rfl, fun inside h => ?_⟩
    cases h
    rfl
  have hiff := run_iff_meets_of (fun _ _ _ ho hs => (step_bracketed ho hs).1)
    (fun _ _ _ ho hs => (step_bracketed ho hs).2) hstart h
  rw [and_iff_right .nil] at hiff
  refine hiff.trans (meets_congr ?_)
  intro before i after s his hrun
  exact bracketed_iff_closing (buttons_of_press (his ▸ ha) hrun)

/-- A swipe on the mirror. -/
def swipe : List (Input ℚ) :=
  [.resumed (420, 900) 1, .event (.cursorMoved 10 10) none,
    .event (.mouseInput .pressed .left) none, .event (.cursorMoved 20 10) none,
    .event (.mouseInput .pressed .right) none, .event (.cursorMoved 20 880) none,
    .event (.mouseInput .released .left) none]

theorem touches_bracketed_swipe :
    ∃ t, run step (start false) swipe = some t ∧ Gestures t.touches := by
  have hsome : (run step (start false) swipe).isSome = true := by decide +kernel
  obtain ⟨t, ht⟩ := Option.isSome_iff_exists.mp hsome
  exact ⟨t, ht, (touches_bracketed ht (by decide)).mpr (by decide +kernel)⟩

/-- A click in the toolbar. -/
def toolbarClick : List (Input ℚ) :=
  [.resumed (420, 900) 1, .event (.cursorMoved 10 830) none,
    .event (.mouseInput .pressed .left) none, .event (.mouseInput .released .left) none]

/-- The release of a click in the toolbar is sent. -/
theorem toolbar_release : ¬ ∀ (is : List (Input ℚ)) (t : Host ℚ),
    run step (start false) is = some t → Alternates is → Gestures t.touches := by
  intro h
  have htouches : (run step (start false) toolbarClick).map touches = some [.up] := by
    decide +kernel
  obtain ⟨t, ht, hup⟩ := Option.map_eq_some_iff.mp htouches
  have hgestures := h toolbarClick t ht (by decide)
  rw [hup] at hgestures
  cases hgestures

end Host
end DroidMirror.Native
