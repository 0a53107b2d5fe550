import DroidMirror.Native.Session

/-! # The window

`App` in `crates/native/src/main.rs`: what the host does with the events of its
window. A handler returns the state it leaves and the commands it sends to the
session. What the toolbar and the title show, the screenshot and the GIF
themselves are left out. -/
namespace DroidMirror.Native
open DroidMirror.Proto DroidMirror.Lib.Run

/-! ## Keys -/

inductive KeyCode where
  | keyA | keyB | keyC | keyD | keyE | keyF | keyG | keyH | keyI | keyJ | keyK | keyL | keyM
  | keyN | keyO | keyP | keyQ | keyR | keyS | keyT | keyU | keyV | keyW | keyX | keyY | keyZ
  | digit0 | digit1 | digit2 | digit3 | digit4 | digit5 | digit6 | digit7 | digit8 | digit9
  | enter | backspace | tab | space | arrowUp | arrowDown | arrowLeft | arrowRight | escape
  /-- One of the other keys. -/
  | other (n : Nat)
  deriving DecidableEq

inductive PhysicalKey where
  | code (code : KeyCode)
  | unidentified (native : UInt32)
  deriving DecidableEq

inductive LogicalKey where
  | character (text : String)
  | audioVolumeUp
  | other
  deriving DecidableEq

inductive ElementState where
  | pressed
  | released
  deriving DecidableEq

structure KeyEvent where
  physicalKey : PhysicalKey
  logicalKey : LogicalKey
  text : Option String
  state : ElementState
  autoRepeat : Bool
  deriving DecidableEq

structure Modifiers where
  shift : Bool
  control : Bool
  alt : Bool
  super : Bool
  deriving DecidableEq

def Modifiers.empty : Modifiers := ⟨false, false, false, false⟩

def metaBits (m : Modifiers) : UInt32 :=
  (if m.shift then META_SHIFT else 0) ||| (if m.alt then META_ALT else 0) |||
    (if m.control then META_CTRL else 0)

def androidKey : PhysicalKey → Option UInt32
  | .unidentified _ => none
  | .code code =>
    match code with
    | .keyA => some 29
    | .keyB => some 30
    | .keyC => some 31
    | .keyD => some 32
    | .keyE => some 33
    | .keyF => some 34
    | .keyG => some 35
    | .keyH => some 36
    | .keyI => some 37
    | .keyJ => some 38
    | .keyK => some 39
    | .keyL => some 40
    | .keyM => some 41
    | .keyN => some 42
    | .keyO => some 43
    | .keyP => some 44
    | .keyQ => some 45
    | .keyR => some 46
    | .keyS => some 47
    | .keyT => some 48
    | .keyU => some 49
    | .keyV => some 50
    | .keyW => some 51
    | .keyX => some 52
    | .keyY => some 53
    | .keyZ => some 54
    | .digit0 => some 7
    | .digit1 => some 8
    | .digit2 => some 9
    | .digit3 => some 10
    | .digit4 => some 11
    | .digit5 => some 12
    | .digit6 => some 13
    | .digit7 => some 14
    | .digit8 => some 15
    | .digit9 => some 16
    | .enter => some 66
    | .backspace => some 67
    | .tab => some 61
    | .space => some 62
    | .arrowUp => some 19
    | .arrowDown => some 20
    | .arrowLeft => some 21
    | .arrowRight => some 22
    | .escape => some 111
    | .other _ => none

/-- `char::is_control`. -/
def isControl (c : Char) : Bool := c.val < 0x20 || (0x7f ≤ c.val && c.val ≤ 0x9f)

/-! ## Events -/

inductive MouseButton where
  | left
  | right
  | middle
  | back
  | forward
  | other (n : UInt16)
  deriving DecidableEq

inductive MouseScrollDelta (F : Type) where
  | line (x y : F)
  | pixel (x y : F)

/-- What the session and the decode thread tell the window. -/
inductive DecodedMsg where
  | frame
  | size (width height : UInt16)
  | status (text : String)
  deriving DecidableEq

inductive WindowEvent (F : Type) where
  | closeRequested
  | resized (width height : UInt32)
  /-- The messages are those found waiting. -/
  | redrawRequested (msgs : List DecodedMsg)
  | occluded (on : Bool)
  | modifiersChanged (m : Modifiers)
  | cursorMoved (x y : F)
  | mouseInput (state : ElementState) (button : MouseButton)
  | mouseWheel (delta : MouseScrollDelta F)
  | keyboardInput (event : KeyEvent)
  | other

/-! ## The window's state -/

structure App (F : Type) where
  /-- The inner size of the window, once there is one. -/
  window : Option (UInt32 × UInt32)
  cursor : F × F
  buttons : UInt8
  mods : Modifiers
  noControl : Bool
  toolbarPx : F
  /-- Whether a frame was shown. -/
  latest : Bool
  gif : Bool
  mp4On : Bool

def TOOLBAR_DP {F : Type} [F32 F] : F := 80.0

namespace App
variable {F : Type} [F32Unsigned F]

def start (noControl : Bool) : App F :=
  { window := none, cursor := (0.0, 0.0), buttons := 0, mods := .empty, noControl,
    toolbarPx := TOOLBAR_DP, latest := false, gif := false, mp4On := false }

/-- `resumed`: the window is made once. -/
def resumed (a : App F) (size : UInt32 × UInt32) (scale : F) : App F :=
  match a.window with
  | some _ => a
  | none => { a with window := some size, toolbarPx := TOOLBAR_DP * scale }

def view (a : App F) : F × F :=
  match a.window with
  | none => (1.0, 1.0)
  | some (width, height) =>
    let h : F := F32.ofInt height.toNat - a.toolbarPx
    (F32.ofInt width.toNat, if 1.0 ≤ h then h else 1.0)

def inToolbar (a : App F) : Bool :=
  match a.window with
  | none => false
  | some (_, height) => F32.ofInt height.toNat - a.toolbarPx ≤ a.cursor.2

def stopGif (a : App F) : App F := { a with gif := false }

def toggleGif (a : App F) : App F :=
  if a.gif then a.stopGif
  else if a.latest then { a with gif := true }
  else a

def toggleMp4 (a : App F) : App F × List (HostCmd F) :=
  ({ a with mp4On := !a.mp4On }, [.recordMp4 !a.mp4On])

/-- A key of the navigation row. -/
def navKey (slot : UInt32) : UInt32 :=
  if slot = 0 then KEY_BACK
  else if slot = 1 then KEY_HOME
  else if slot = 2 then KEY_APP_SWITCH
  else if slot = 3 then KEY_POWER
  else if slot = 4 then KEY_VOLUME_DOWN
  else KEY_VOLUME_UP

/-- A key's press and release. -/
def tap (keycode : UInt32) : List (HostCmd F) := [.nav keycode .down, .nav keycode .up]

/-- The capture row is above the navigation row. -/
def toolbarClick (a : App F) : App F × List (HostCmd F) :=
  match a.window with
  | none => (a, [])
  | some (width, height) =>
    let w : F := F32.ofInt width.toNat
    let top : F := F32.ofInt height.toNat - a.toolbarPx
    if a.cursor.2 < top + a.toolbarPx / 2.0 then
      let slot := F32Unsigned.toU32 (F32.clamp ((a.cursor.1 / w) * 3.0) 0.0 2.99)
      if slot = 0 then (a, [])
      else if slot = 1 then (a.toggleGif, [])
      else a.toggleMp4
    else
      let slot := F32Unsigned.toU32 (F32.clamp ((a.cursor.1 / w) * 6.0) 0.0 5.0)
      (a, tap (navKey slot))

/-- What a press does as a capture shortcut, if it is one. -/
def captureShortcut (a : App F) (event : KeyEvent) : Option (App F × List (HostCmd F)) :=
  if !(a.mods.super || a.mods.control) || !a.mods.shift then none
  else
    match event.logicalKey with
    | .character text =>
      match text.toList.head?.map Char.toLower with
      | some 's' => some (a, [])
      | some 'g' => some (a.toggleGif, [])
      | some 'm' => some a.toggleMp4
      | _ => none
    | .audioVolumeUp | .other => none

def sendTouch (a : App F) (action : TouchAction) : HostCmd F :=
  .touch action a.cursor.1 a.cursor.2 a.view.1 a.view.2

/-- The text of the key event, if it is typed text. -/
def typed (a : App F) (event : KeyEvent) : Option String :=
  if !a.mods.control && !a.mods.alt then
    event.text.filter fun text => text.toList.all fun c => !isControl c
  else none

def onKey (a : App F) (clipboard : Option String) (event : KeyEvent) : List (HostCmd F) :=
  let ctrl := a.mods.control
  let paste := if ctrl && event.logicalKey = .character "v" then clipboard else none
  match paste with
  | some text => [.text text]
  | none =>
    if event.physicalKey = .code .escape then tap KEY_BACK
    else if ctrl && event.logicalKey = .character "h" then [.nav KEY_HOME .down]
    else if ctrl && event.logicalKey = .character "s" then [.nav KEY_APP_SWITCH .down]
    else if event.logicalKey = .audioVolumeUp then [.nav KEY_VOLUME_UP .down]
    else
      match a.typed event with
      | some text => [.text text]
      | none =>
        match androidKey event.physicalKey with
        | some code => [.key .down code (metaBits a.mods)]
        | none => []

/-- A status text that starts with `mp4:` reports a recording that failed. -/
def receive (a : App F) : DecodedMsg → App F
  | .frame => { a with latest := true }
  | .size _ _ => a
  | .status text =>
    if "mp4:".toList.isPrefixOf text.toList then { a with mp4On := false } else a

def mouseInput (a : App F) (state : ElementState) (button : MouseButton) : App F × List (HostCmd F) :=
  if button ≠ .left then
    if state = .pressed && button = .right && !a.noControl then (a, tap KEY_BACK) else (a, [])
  else
    let down := decide (state = .pressed)
    if down && a.inToolbar then a.toolbarClick
    else
      let a := { a with buttons := if down then 1 else 0 }
      (a, if a.noControl then [] else [a.sendTouch (if down then .down else .up)])

def keyboardInput (a : App F) (clipboard : Option String) (event : KeyEvent) :
    App F × List (HostCmd F) :=
  let shortcut := if event.state = .pressed && !event.autoRepeat then a.captureShortcut event else none
  match shortcut with
  | some r => r
  | none =>
    if event.state ≠ .pressed || a.noControl then
      if event.state = .released then
        match androidKey event.physicalKey with
        | some code => (a, [.key .up code (metaBits a.mods)])
        | none => (a, [])
      else (a, [])
    else (a, a.onKey clipboard event)

/-- `clipboard` is what the clipboard answers while the event is handled. -/
def windowEvent (a : App F) (clipboard : Option String) : WindowEvent F → App F × List (HostCmd F)
  | .closeRequested => (a.stopGif, [.recordMp4 false, .quit])
  | .resized _ _ => (a, [])
  | .redrawRequested msgs => (msgs.foldl receive a, [])
  | .occluded on => (a, [.pause on])
  | .modifiersChanged m => ({ a with mods := m }, [])
  | .cursorMoved x y =>
    let a := { a with cursor := (x, y) }
    (a, if a.buttons ≠ 0 && !a.noControl then [a.sendTouch .move] else [])
  | .mouseInput state button => a.mouseInput state button
  | .mouseWheel delta =>
    if a.noControl then (a, [])
    else
      let (h, v) := match delta with
        | .line x y => (x, y)
        | .pixel x y => (x / 40.0, y / 40.0)
      (a, [.scroll a.cursor.1 a.cursor.2 a.view.1 a.view.2 h v])
  | .keyboardInput event => a.keyboardInput clipboard event
  | .other => (a, [])

/-! ## What an event leaves alone -/

/-- What decides on the commands sent. -/
structure Kept (a a' : App F) : Prop where
  buttons : a'.buttons = a.buttons
  mods : a'.mods = a.mods
  noControl : a'.noControl = a.noControl

omit [F32Unsigned F] in
theorem Kept.refl (a : App F) : Kept a a := ⟨rfl, rfl, rfl⟩

omit [F32Unsigned F] in
theorem Kept.trans {a b c : App F} (h : Kept a b) (h' : Kept b c) : Kept a c :=
  ⟨h'.buttons.trans h.buttons, h'.mods.trans h.mods, h'.noControl.trans h.noControl⟩

omit [F32Unsigned F] in
theorem kept_toggleGif (a : App F) : Kept a a.toggleGif := by
  unfold toggleGif
  split
  · exact ⟨rfl, rfl, rfl⟩
  · split <;> exact ⟨rfl, rfl, rfl⟩

omit [F32Unsigned F] in
theorem kept_receive (a : App F) (msg : DecodedMsg) : Kept a (a.receive msg) := by
  cases msg with
  | frame => exact ⟨rfl, rfl, rfl⟩
  | size width height => exact .refl a
  | status text =>
    rw [receive]
    split
    · exact ⟨rfl, rfl, rfl⟩
    · exact .refl a

omit [F32Unsigned F] in
theorem kept_receives (a : App F) (msgs : List DecodedMsg) : Kept a (msgs.foldl receive a) := by
  induction msgs generalizing a with
  | nil => exact .refl a
  | cons msg msgs ih => exact (kept_receive a msg).trans (ih _)

theorem kept_resumed (a : App F) (size : UInt32 × UInt32) (scale : F) :
    Kept a (a.resumed size scale) := by
  unfold resumed
  split
  · exact .refl a
  · exact ⟨rfl, rfl, rfl⟩

/-! ## What is sent to the device -/

/-- A click in the toolbar is in its lower row. -/
def navRow (a : App F) : Bool :=
  match a.window with
  | none => false
  | some (_, height) =>
    !decide (a.cursor.2 < F32.ofInt height.toNat - a.toolbarPx + a.toolbarPx / 2.0)

/-- The command puts input into the device. -/
def Injects : HostCmd F → Prop
  | .touch .. | .key .. | .nav .. | .text _ | .scroll .. => True
  | .pause _ | .recordMp4 _ | .quit => False

omit [F32Unsigned F] in
theorem injects_nothing : ∀ c ∈ ([] : List (HostCmd F)), ¬ Injects c :=
  fun _ hc => absurd hc List.not_mem_nil

/-- A click in the navigation row taps a key; one in the capture row sends
nothing to the device. -/
theorem toolbarClick_spec (a : App F) : Kept a a.toolbarClick.1 ∧
    ((a.navRow = true ∧ ∃ code, a.toolbarClick.2 = tap code) ∨
      a.navRow = false ∧ ∀ c ∈ a.toolbarClick.2, ¬ Injects c) := by
  unfold toolbarClick navRow
  split
  · exact ⟨.refl a, .inr ⟨rfl, injects_nothing⟩⟩
  · simp only
    split
    · rename_i hrow
      rw [decide_eq_true hrow]
      split
      · exact ⟨.refl a, .inr ⟨rfl, injects_nothing⟩⟩
      · split
        · exact ⟨kept_toggleGif a, .inr ⟨rfl, injects_nothing⟩⟩
        · refine ⟨⟨rfl, rfl, rfl⟩, .inr ⟨rfl, ?_⟩⟩
          intro c hc
          rw [List.mem_singleton.mp hc]
          exact not_false
    · rename_i hrow
      rw [decide_eq_false hrow]
      exact ⟨.refl a, .inl ⟨rfl, _, rfl⟩⟩

omit [F32Unsigned F] in
theorem captureShortcut_spec {a : App F} {event : KeyEvent} {r : App F × List (HostCmd F)}
    (h : a.captureShortcut event = some r) : Kept a r.1 ∧ ∀ c ∈ r.2, ¬ Injects c := by
  revert h
  fun_cases captureShortcut a event with
  | case2 =>
    intro h
    cases h
    exact ⟨.refl a, injects_nothing⟩
  | case3 =>
    intro h
    cases h
    exact ⟨kept_toggleGif a, injects_nothing⟩
  | case4 =>
    intro h
    cases h
    refine ⟨⟨rfl, rfl, rfl⟩, ?_⟩
    intro c hc
    rw [List.mem_singleton.mp hc]
    exact not_false
  | _ =>
    intro h
    cases h

/-- What a mouse button does. -/
inductive Click (a : App F) (state : ElementState) (button : MouseButton) (r : App F × List (HostCmd F)) :
    Prop
  | none (hk : Kept a r.1) (hq : ∀ c ∈ r.2, ¬ Injects c)
      (hl : button = .left → state = .pressed ∧ a.inToolbar = true ∧ a.navRow = false) :
      Click a state button r
  | back (hn : a.noControl = false) (hb : button = .right) (hr : r = (a, tap KEY_BACK)) :
      Click a state button r
  | nav (code : UInt32) (hs : state = .pressed) (hb : button = .left) (ht : a.inToolbar = true)
      (hn : a.navRow = true) (hk : Kept a r.1) (hc : r.2 = tap code) : Click a state button r
  | mirror (hb : button = .left) (ht : state = .pressed → a.inToolbar = false)
      (hk : r.1 = { a with buttons := if state = .pressed then 1 else 0 })
      (hc : r.2 = if a.noControl then []
        else [r.1.sendTouch (if state = .pressed then .down else .up)]) : Click a state button r

theorem mouseInput_spec (a : App F) (state : ElementState) (button : MouseButton) :
    Click a state button (a.mouseInput state button) := by
  unfold mouseInput
  by_cases hb : button = .left
  · rw [if_neg (not_not_intro hb)]
    cases state with
    | pressed =>
      cases ht : a.inToolbar with
      | true =>
        obtain ⟨hk, ⟨hn, code, hc⟩ | ⟨hn, hq⟩⟩ := a.toolbarClick_spec
        · exact .nav code rfl hb ht hn hk hc
        · exact .none hk hq fun _ => ⟨rfl, ht, hn⟩
      | false => exact .mirror hb (fun _ => ht) rfl rfl
    | released => exact .mirror hb (fun h => nomatch h) rfl rfl
  · rw [if_pos hb]
    split
    · rename_i hright
      simp only [Bool.and_eq_true, decide_eq_true_eq, Bool.not_eq_true'] at hright
      exact .back hright.2 hright.1.2 rfl
    · exact .none (.refl a) injects_nothing fun h => absurd h hb

/-- What a key press on the mirror sends. -/
inductive Press (a : App F) (event : KeyEvent) : List (HostCmd F) → Prop
  | text (text : String) : Press a event [.text text]
  | back (h : event.physicalKey = .code .escape) : Press a event (tap KEY_BACK)
  | nav (code : UInt32) (he : event.physicalKey ≠ .code .escape)
      (h : a.mods.control = true ∧
          (event.logicalKey = .character "h" ∨ event.logicalKey = .character "s") ∨
        event.logicalKey = .audioVolumeUp) : Press a event [.nav code .down]
  | key (code : UInt32) (h : androidKey event.physicalKey = some code) :
      Press a event [.key .down code (metaBits a.mods)]
  | none : Press a event []

omit [F32Unsigned F] in
theorem onKey_spec (a : App F) (clipboard : Option String) (event : KeyEvent) :
    Press a event (a.onKey clipboard event) := by
  unfold onKey
  simp only
  split
  · exact .text _
  · split
    · rename_i he
      exact .back he
    · rename_i he
      split
      · rename_i hh
        rw [Bool.and_eq_true, decide_eq_true_eq] at hh
        exact .nav _ he (.inl ⟨hh.1, .inl hh.2⟩)
      · split
        · rename_i hs
          rw [Bool.and_eq_true, decide_eq_true_eq] at hs
          exact .nav _ he (.inl ⟨hs.1, .inr hs.2⟩)
        · split
          · rename_i hv
            exact .nav _ he (.inr hv)
          · split
            · exact .text _
            · split
              · rename_i hcode
                exact .key _ hcode
              · exact .none

omit [F32Unsigned F] in
/-- A press on the mirror is sent as text or as keys. -/
theorem onKey_filterMap {β : Type} {f : HostCmd F → Option β} (htext : ∀ text, f (.text text) = none)
    (hnav : ∀ code action, f (.nav code action) = none)
    (hkey : ∀ action code metaState, f (.key action code metaState) = none) (a : App F)
    (clipboard : Option String) (event : KeyEvent) : (a.onKey clipboard event).filterMap f = [] := by
  have hpress := a.onKey_spec clipboard event
  generalize a.onKey clipboard event = cmds at hpress
  cases hpress with
  | text text => exact List.filterMap_cons_none (htext text)
  | back he => simp [tap, hnav]
  | nav code he h => exact List.filterMap_cons_none (hnav code .down)
  | key code h => exact List.filterMap_cons_none (hkey .down code (metaBits a.mods))
  | none => rfl

/-- What a key does. -/
inductive Stroke (a : App F) (clipboard : Option String) (event : KeyEvent)
    (r : App F × List (HostCmd F)) : Prop
  | none (hk : Kept a r.1) (hq : ∀ c ∈ r.2, ¬ Injects c)
      (hr : event.state = .released → androidKey event.physicalKey = none) :
      Stroke a clipboard event r
  | release (code : UInt32) (hs : event.state = .released)
      (hc : androidKey event.physicalKey = some code)
      (hr : r = (a, [.key .up code (metaBits a.mods)])) : Stroke a clipboard event r
  | press (hs : event.state = .pressed) (hn : a.noControl = false)
      (hf : event.autoRepeat = true ∨ a.captureShortcut event = none)
      (hr : r = (a, a.onKey clipboard event)) : Stroke a clipboard event r

omit [F32Unsigned F] in
theorem keyboardInput_spec (a : App F) (clipboard : Option String) (event : KeyEvent) :
    Stroke a clipboard event (a.keyboardInput clipboard event) := by
  unfold keyboardInput
  simp only
  split
  · rename_i r hshortcut
    split at hshortcut
    · rename_i hpressed
      obtain ⟨hk, hq⟩ := captureShortcut_spec hshortcut
      rw [Bool.and_eq_true, decide_eq_true_eq] at hpressed
      exact .none hk hq fun hr => nomatch hpressed.1.symm.trans hr
    · cases hshortcut
  · rename_i hshortcut
    split
    · rename_i hquiet
      split
      · rename_i hreleased
        split
        · rename_i code hcode
          exact .release code hreleased hcode rfl
        · rename_i hcode
          exact .none (.refl a) injects_nothing fun _ => hcode
      · rename_i hreleased
        exact .none (.refl a) injects_nothing fun hr => absurd hr hreleased
    · rename_i hloud
      simp only [ne_eq, Bool.or_eq_true, decide_eq_true_eq, not_or, Decidable.not_not,
        Bool.not_eq_true] at hloud
      refine .press hloud.1 hloud.2 ?_ rfl
      split at hshortcut
      · exact .inr hshortcut
      · rename_i hrepeat
        left
        simpa [hloud.1] using hrepeat

theorem windowEvent_noControl (a : App F) (clipboard : Option String) (e : WindowEvent F) :
    (a.windowEvent clipboard e).1.noControl = a.noControl := by
  cases e with
  | redrawRequested msgs => exact (kept_receives a msgs).noControl
  | mouseInput state button =>
    cases a.mouseInput_spec state button with
    | none hk hq hl => exact hk.noControl
    | back hn hb hr => exact congrArg (fun r => r.1.noControl) hr
    | nav code hs hb ht hn hk hc => exact hk.noControl
    | mirror hb ht hk hc => rw [windowEvent, hk]
  | mouseWheel delta =>
    simp only [windowEvent]
    split <;> rfl
  | keyboardInput event =>
    cases a.keyboardInput_spec clipboard event with
    | none hk hq hr => exact hk.noControl
    | release code hs hc hr => exact congrArg (fun r => r.1.noControl) hr
    | press hs hn hf hr => exact congrArg (fun r => r.1.noControl) hr
  | _ => rfl

end App

/-! ## Runs -/

/-- What happens to the window: it is made, its size changes, or it gets an
event. -/
inductive Input (F : Type) where
  | resumed (size : UInt32 × UInt32) (scale : F)
  | sized (size : UInt32 × UInt32)
  | event (event : WindowEvent F) (clipboard : Option String)

/-- The window, and all it has sent. -/
structure Host (F : Type) where
  app : App F
  sent : List (HostCmd F)

namespace Host
variable {F : Type} [F32Unsigned F]

def start (noControl : Bool) : Host F := ⟨.start noControl, []⟩

def step (h : Host F) : Input F → Option (Host F)
  | .resumed size scale => some { h with app := h.app.resumed size scale }
  | .sized size => some { h with app := { h.app with window := h.app.window.map fun _ => size } }
  | .event event clipboard =>
    let r := h.app.windowEvent clipboard event
    some ⟨r.1, h.sent ++ r.2⟩

theorem step_noControl {h h' : Host F} {i : Input F} (hs : step h i = some h') :
    h'.app.noControl = h.app.noControl := by
  cases i with
  | resumed size scale =>
    cases hs
    exact (App.kept_resumed h.app size scale).noControl
  | sized size =>
    cases hs
    rfl
  | event e clipboard =>
    cases hs
    exact h.app.windowEvent_noControl clipboard e

theorem run_noControl {b : Bool} {is : List (Input F)} {t : Host F}
    (h : run step (start b) is = some t) : t.app.noControl = b :=
  run_preserves (fun _ _ _ hi hs => (step_noControl hs).trans hi) h rfl

end Host

end DroidMirror.Native
