import DroidMirror.Native.App

/-! # The recording indicator

The window turns its `mp4_on` over when it asks for a recording or for its end,
and no input of the window does anything else to it (`step_asks`). The session
has one of its own, which it drops when no file can be begun. It tells the
window so in a status text, if there is room for one, and a failure to finish a
file is told in the same words. Here the two run side by side, with the
commands under way to the session and the messages under way to the window
(`indicator_agrees`, `unseen_recording`). -/
namespace DroidMirror.Native
open DroidMirror.Proto DroidMirror.Lib.Run

/-! ## What the session says -/

/-- `text.starts_with("mp4:")`. -/
def reports (text : String) : Bool := "mp4:".toList.isPrefixOf text.toList

theorem reports_append (text : String) : reports ("mp4: " ++ text) = true := by
  rw [reports, String.toList_append]
  rfl

namespace Recording
variable (env : Env)

/-- What `finish_mp4` tells the window; `saved` is the path of the file or why
it could not be finished. -/
def finishStatus (r : Recording) (saved : Except String String) : Option String :=
  r.mp4.map fun _ =>
    match saved with
    | .ok path => path
    | .error e => "mp4: " ++ e

/-- What `open_mp4` tells the window; `error` is why a file could not be begun. -/
def openStatus (r : Recording) (cfg : VideoCfg) (error : String) : Option String :=
  if cfg.codec ≠ .h264 then some "mp4: capture needs H.264"
  else if spsPps cfg.csd = none then some "mp4: MP4 capture needs H.264 SPS and PPS"
  else if cfg.width = 0 ∨ cfg.height = 0 then some "mp4: video size is not known yet"
  else if env.canStart r.begun then none
  else some ("mp4: " ++ error)

/-- What `HostCmd::RecordMp4` tells the window. -/
def recordStatus (r : Recording) (on : Bool) (saved : Except String String) (error : String) :
    Option String :=
  if on then
    match r.mp4, r.videoCfg with
    | none, some cfg => r.openStatus env cfg error
    | _, _ => none
  else r.finishStatus saved

/-- A `Configure` that ends the recording. -/
def changes (r : Recording) (cfg : VideoCfg) : Bool :=
  r.videoCfg.any fun c =>
    decide (c.width ≠ cfg.width ∨ c.height ≠ cfg.height ∨ c.codec ≠ cfg.codec)

/-- The first half of a `Configure`. -/
def reconfigure (r : Recording) (cfg : VideoCfg) : Recording :=
  { if r.changes cfg then r.finishMp4 else r with videoCfg := some cfg }

/-- The second half. -/
def reopen (r : Recording) (cfg : VideoCfg) : Recording :=
  if r.mp4On && r.mp4.isNone then r.openMp4 env cfg else r

/-- What the two tell the window. -/
def reconfigureStatus (r : Recording) (cfg : VideoCfg) (saved : Except String String) :
    Option String :=
  if r.changes cfg then r.finishStatus saved else none

def reopenStatus (r : Recording) (cfg : VideoCfg) (error : String) : Option String :=
  if r.mp4On && r.mp4.isNone then r.openStatus env cfg error else none

theorem finishMp4_spec (r : Recording) :
    r.finishMp4.mp4On = r.mp4On ∧ r.finishMp4.mp4 = none := by
  unfold finishMp4
  split
  · exact ⟨rfl, ‹_›⟩
  · exact ⟨rfl, rfl⟩

/-- A file is begun, or the window is told and `mp4_on` dropped. -/
theorem openMp4_spec (r : Recording) (cfg : VideoCfg) (error : String) :
    (r.openStatus env cfg error = none ∧ (r.openMp4 env cfg).mp4On = r.mp4On) ∨
      ∃ text, r.openStatus env cfg error = some text ∧ reports text = true ∧
        (r.openMp4 env cfg).mp4On = false ∧ (r.openMp4 env cfg).mp4 = r.mp4 := by
  unfold openStatus openMp4
  by_cases hcodec : cfg.codec ≠ .h264
  · rw [if_pos hcodec, if_pos (.inl hcodec)]
    exact .inr ⟨_, rfl, rfl, rfl, rfl⟩
  · by_cases hcsd : spsPps cfg.csd = none
    · rw [if_neg hcodec, if_pos hcsd, if_pos (.inr (.inl hcsd))]
      exact .inr ⟨_, rfl, rfl, rfl, rfl⟩
    · by_cases hsize : cfg.width = 0 ∨ cfg.height = 0
      · rw [if_neg hcodec, if_neg hcsd, if_pos hsize, if_pos (.inr (.inr hsize))]
        exact .inr ⟨_, rfl, rfl, rfl, rfl⟩
      · have hno : ¬ (cfg.codec ≠ .h264 ∨ spsPps cfg.csd = none ∨ cfg.width = 0 ∨ cfg.height = 0) :=
          fun h => h.elim hcodec fun h => h.elim hcsd hsize
        rw [if_neg hcodec, if_neg hcsd, if_neg hsize, if_neg hno]
        by_cases hstart : env.canStart r.begun = true
        · rw [if_pos hstart, if_pos hstart]
          exact .inl ⟨rfl, rfl⟩
        · rw [if_neg hstart, if_neg hstart]
          exact .inr ⟨_, rfl, reports_append error, rfl, rfl⟩

/-- A file is open only while `mp4_on` is set. -/
def Held (r : Recording) : Prop := r.mp4.isSome = true → r.mp4On = true

theorem openMp4_on {r : Recording} (hr : r.mp4On = true) (hn : r.mp4 = none) (cfg : VideoCfg)
    (error : String) : (r.openMp4 env cfg).Held ∧
      (r.openMp4 env cfg).mp4On = !(r.openStatus env cfg error).any reports := by
  rcases r.openMp4_spec env cfg error with ⟨hstatus, hon⟩ | ⟨text, hstatus, hreports, hon, hmp4⟩
  · rw [hstatus, hon, hr]
    exact ⟨fun _ => hon.trans hr, rfl⟩
  · refine ⟨fun hopen => ?_, ?_⟩
    · rw [hmp4, hn] at hopen
      cases hopen
    · rw [hstatus, hon, Option.any_some, hreports]
      rfl

/-- `mp4_on` is as asked for, unless the window is told of a failure. -/
theorem recordMp4_spec (r : Recording) (on : Bool) (saved : Except String String) (error : String) :
    (r.recordMp4 env on).Held ∧
      (r.recordMp4 env on).mp4On = (on && !(r.recordStatus env on saved error).any reports) := by
  cases on with
  | false =>
    obtain ⟨hon, hmp4⟩ := finishMp4_spec { r with mp4On := false }
    refine ⟨fun hopen => ?_, hon⟩
    change (finishMp4 { r with mp4On := false }).mp4.isSome = true at hopen
    rw [hmp4] at hopen
    cases hopen
  | true =>
    rw [Bool.true_and]
    obtain ⟨record, videoCfg, mp4, mp4On, begun, finished⟩ := r
    cases mp4 with
    | some m => exact ⟨fun _ => rfl, rfl⟩
    | none =>
      cases videoCfg with
      | none => exact ⟨fun _ => rfl, rfl⟩
      | some cfg =>
        exact openMp4_on env (r := ⟨record, some cfg, none, true, begun, finished⟩) rfl rfl cfg error

theorem reconfigure_spec {r : Recording} (hr : r.Held) (cfg : VideoCfg) :
    (r.reconfigure cfg).Held ∧ (r.reconfigure cfg).mp4On = r.mp4On := by
  unfold reconfigure
  split
  · refine ⟨fun hopen => ?_, r.finishMp4_spec.1⟩
    change r.finishMp4.mp4.isSome = true at hopen
    rw [r.finishMp4_spec.2] at hopen
    cases hopen
  · exact ⟨hr, rfl⟩

theorem reopen_spec {r : Recording} (hr : r.Held) (cfg : VideoCfg) (error : String) :
    (r.reopen env cfg).Held ∧
      (r.reopen env cfg).mp4On = (r.mp4On && !(r.reopenStatus env cfg error).any reports) := by
  unfold reopen reopenStatus
  split
  · rename_i hopens
    rw [Bool.and_eq_true, Option.isNone_iff_eq_none] at hopens
    rw [hopens.1, Bool.true_and]
    exact openMp4_on env hopens.1 hopens.2 cfg error
  · exact ⟨hr, (Bool.and_true _).symm⟩

end Recording

/-! ## Window and session -/

/-- `sync_channel(8)`. -/
def FRAME_DEPTH : Nat := 8

/-- `try_send`. -/
def offer (msgs : List DecodedMsg) (msg : DecodedMsg) : List DecodedMsg :=
  if msgs.length < FRAME_DEPTH then msgs ++ [msg] else msgs

/-- What is left of a `Configure`. -/
inductive Todo where
  | nothing
  | reopen (cfg : VideoCfg)
  | size (width height : UInt16)

/-- A `RecordMp4`. -/
def asked {F : Type} : HostCmd F → Option Bool
  | .recordMp4 on => some on
  | .touch .. | .key .. | .nav .. | .text _ | .scroll .. | .pause _ | .quit => none

/-- The window neither ends nor reads its messages. -/
def Input.goesOn {F : Type} : Input F → Bool
  | .event .closeRequested _ | .event (.redrawRequested _) _ => false
  | .resumed _ _ | .sized _ | .event _ _ => true

namespace App
variable {F : Type} [F32Unsigned F]

/-- The recording is left alone, or toggled. -/
def Asks (a : App F) (r : App F × List (HostCmd F)) : Prop :=
  (r.1.mp4On = a.mp4On ∧ r.2.filterMap asked = []) ∨
    (r.1.mp4On = !a.mp4On) ∧ r.2.filterMap asked = [!a.mp4On]

omit [F32Unsigned F] in
theorem toggleGif_mp4On (a : App F) : a.toggleGif.mp4On = a.mp4On := by
  unfold toggleGif
  split
  · rfl
  · split <;> rfl

theorem toolbarClick_asks (a : App F) : a.Asks a.toolbarClick := by
  unfold toolbarClick
  split
  · exact .inl ⟨rfl, rfl⟩
  · simp only
    split
    · split
      · exact .inl ⟨rfl, rfl⟩
      · split
        · exact .inl ⟨a.toggleGif_mp4On, rfl⟩
        · exact .inr ⟨rfl, rfl⟩
    · exact .inl ⟨rfl, rfl⟩

omit [F32Unsigned F] in
theorem captureShortcut_asks {a : App F} {event : KeyEvent} {r : App F × List (HostCmd F)}
    (h : a.captureShortcut event = some r) : a.Asks r := by
  revert h
  fun_cases captureShortcut a event with
  | case2 =>
    intro h
    cases h
    exact .inl ⟨rfl, rfl⟩
  | case3 =>
    intro h
    cases h
    exact .inl ⟨a.toggleGif_mp4On, rfl⟩
  | case4 =>
    intro h
    cases h
    exact .inr ⟨rfl, rfl⟩
  | _ =>
    intro h
    cases h

theorem mouseInput_asks (a : App F) (state : ElementState) (button : MouseButton) :
    a.Asks (a.mouseInput state button) := by
  unfold mouseInput
  split
  · split <;> exact .inl ⟨rfl, rfl⟩
  · simp only
    split
    · exact a.toolbarClick_asks
    · refine .inl ⟨rfl, ?_⟩
      cases a.noControl <;> rfl

omit [F32Unsigned F] in
theorem keyboardInput_asks (a : App F) (clipboard : Option String) (event : KeyEvent) :
    a.Asks (a.keyboardInput clipboard event) := by
  unfold keyboardInput
  simp only
  split
  · rename_i r hshortcut
    split at hshortcut
    · exact captureShortcut_asks hshortcut
    · cases hshortcut
  · split
    · split
      · split <;> exact .inl ⟨rfl, rfl⟩
      · exact .inl ⟨rfl, rfl⟩
    · refine .inl ⟨rfl, ?_⟩
      exact onKey_filterMap (fun _ => rfl) (fun _ _ => rfl) (fun _ _ _ => rfl) a clipboard event

theorem windowEvent_asks (a : App F) (clipboard : Option String) {e : WindowEvent F}
    (hclose : e ≠ .closeRequested) (hredraw : ∀ msgs, e ≠ .redrawRequested msgs) :
    a.Asks (a.windowEvent clipboard e) := by
  cases e with
  | closeRequested => exact absurd rfl hclose
  | redrawRequested msgs => exact absurd rfl (hredraw msgs)
  | mouseInput state button => exact a.mouseInput_asks state button
  | keyboardInput event => exact a.keyboardInput_asks clipboard event
  | cursorMoved x y =>
    refine .inl ⟨rfl, ?_⟩
    simp only [windowEvent]
    split <;> rfl
  | mouseWheel delta =>
    simp only [windowEvent]
    split <;> exact .inl ⟨rfl, rfl⟩
  | _ => exact .inl ⟨rfl, rfl⟩

/-- Short of its end the window asks for recordings by toggling alone. -/
theorem step_asks {a : App F} {i : Input F} {h : Host F} (hi : i.goesOn = true)
    (hs : Host.step ⟨a, []⟩ i = some h) : a.Asks (h.app, h.sent) := by
  cases i with
  | resumed size scale =>
    cases hs
    refine .inl ⟨?_, rfl⟩
    change (a.resumed size scale).mp4On = a.mp4On
    unfold resumed
    split <;> rfl
  | sized size =>
    cases hs
    exact .inl ⟨rfl, rfl⟩
  | event e clipboard =>
    cases hs
    rw [List.nil_append]
    refine a.windowEvent_asks clipboard ?_ ?_
    · rintro rfl
      cases hi
    · rintro msgs rfl
      cases hi

end App

/-- The window and the recorder of the session, the `RecordMp4` commands on their
way to the one and the messages on their way to the other. -/
structure Indicator (F : Type) where
  app : App F
  cmds : List Bool
  recording : Recording
  todo : Todo
  msgs : List DecodedMsg

/-- A turn of the user, the window, the session or the decode thread. `saved` and
`error` are what a file that is finished or cannot be begun says. -/
inductive Turn (F : Type) where
  /-- The window is made, its size changes, or it gets an event. -/
  | window (i : Input F)
  /-- It takes a message. -/
  | take
  | command (saved : Except String String) (error : String)
  | configure (cfg : VideoCfg) (saved : Except String String)
  | reopen (error : String)
  | size
  | frame (frame : Frame)
  /-- The decode thread sends a picture; without room it waits. -/
  | decoded

namespace Indicator
variable {F : Type} (env : Env)

/-- A status text, if there is one. -/
def tell (s : Indicator F) (status : Option String) : Indicator F :=
  { s with msgs := status.elim s.msgs fun text => offer s.msgs (.status text) }

def step [F32Unsigned F] (s : Indicator F) : Turn F → Option (Indicator F)
  | .window i =>
    if i.goesOn then
      (Host.step ⟨s.app, []⟩ i).map fun h =>
        { s with app := h.app, cmds := s.cmds ++ h.sent.filterMap asked }
    else none
  | .take =>
    match s.msgs with
    | [] => none
    | msg :: msgs => some { s with app := s.app.receive msg, msgs }
  | .command saved error =>
    match s.todo with
    | .nothing =>
      match s.cmds with
      | [] => none
      | on :: cmds => some
        { s.tell (s.recording.recordStatus env on saved error) with
          cmds, recording := s.recording.recordMp4 env on }
    | .reopen _ | .size _ _ => none
  | .configure cfg saved =>
    match s.todo with
    | .nothing => some
      { s.tell (s.recording.reconfigureStatus cfg saved) with
        recording := s.recording.reconfigure cfg, todo := .reopen cfg }
    | .reopen _ | .size _ _ => none
  | .reopen error =>
    match s.todo with
    | .reopen cfg => some
      { s.tell (s.recording.reopenStatus env cfg error) with
        recording := s.recording.reopen env cfg, todo := .size cfg.width cfg.height }
    | .nothing | .size _ _ => none
  | .size =>
    match s.todo with
    | .size width height => some
      { s with msgs := offer s.msgs (.size width height), todo := .nothing }
    | .nothing | .reopen _ => none
  | .frame frame =>
    match s.todo with
    | .nothing => some { s with recording := s.recording.event env frame.out }
    | .reopen _ | .size _ _ => none
  | .decoded =>
    if s.msgs.length < FRAME_DEPTH then some { s with msgs := s.msgs ++ [.frame] } else none

/-! ## What each will have come to -/

/-- The message puts the indicator out. -/
def fails : DecodedMsg → Bool
  | .status text => reports text
  | .frame | .size _ _ => false

/-- What the window shows when it has read its messages. -/
def shown (s : Indicator F) : Bool := (s.msgs.foldl App.receive s.app).mp4On

/-- What the session has when it has done as asked. -/
def wanted (s : Indicator F) : Bool := s.cmds.getLastD s.recording.mp4On

theorem receive_mp4On (a : App F) (msg : DecodedMsg) :
    (a.receive msg).mp4On = (a.mp4On && !fails msg) := by
  cases msg with
  | frame => exact (Bool.and_true _).symm
  | size width height => exact (Bool.and_true _).symm
  | status text =>
    simp only [App.receive, fails, reports]
    split
    · rename_i h
      rw [h]
      exact (Bool.and_false _).symm
    · rename_i h
      rw [Bool.not_eq_true] at h
      rw [h]
      exact (Bool.and_true _).symm

theorem receives_mp4On (a : App F) (msgs : List DecodedMsg) :
    (msgs.foldl App.receive a).mp4On = (a.mp4On && !msgs.any fails) := by
  induction msgs generalizing a with
  | nil => exact (Bool.and_true _).symm
  | cons msg msgs ih =>
    rw [List.foldl_cons, ih, receive_mp4On, List.any_cons, Bool.not_or, Bool.and_assoc]

/-- The status text is one that puts the indicator out, and there is room for it. -/
def told (s : Indicator F) (status : Option String) : Bool :=
  decide (s.msgs.length < FRAME_DEPTH) && status.any reports

/-- The same, without room. -/
def lost (s : Indicator F) (status : Option String) : Bool :=
  !decide (s.msgs.length < FRAME_DEPTH) && status.any reports

theorem shown_tell (s : Indicator F) (status : Option String) :
    (s.tell status).shown = (s.shown && !s.told status) := by
  cases status with
  | none => simp [shown, tell, told]
  | some text =>
    by_cases hroom : s.msgs.length < FRAME_DEPTH
    · have hmsgs : (s.tell (some text)).msgs = s.msgs ++ [.status text] := if_pos hroom
      rw [shown, hmsgs, List.foldl_append]
      simp only [told, hroom, decide_true, Bool.true_and, Option.any_some]
      exact receive_mp4On (s.msgs.foldl App.receive s.app) (.status text)
    · have hmsgs : (s.tell (some text)).msgs = s.msgs := if_neg hroom
      rw [shown, hmsgs]
      simp only [told, hroom, decide_false, Bool.false_and, Bool.not_false, Bool.and_true]
      rfl

/-- A failure that is told is not followed by a wish to record, and one that is
lost is. -/
def settles (s : Indicator F) (cmds : List Bool) (on : Bool) (status : Option String) : Bool :=
  !(s.told status && cmds.getLastD false) && !(s.lost status && on && cmds.isEmpty)

/-- The condition. The user does not ask for a recording while a failure is on
its way; a failure that is told leaves nobody wanting to record; and one to open
a file that is lost leaves another command. -/
def heard [F32Unsigned F] (s : Indicator F) : Turn F → Bool
  | .window i => (Host.step ⟨s.app, []⟩ i).all fun h =>
    !(h.sent.filterMap asked).contains true || !s.msgs.any fails
  | .command saved error =>
    match s.cmds with
    | [] => true
    | on :: cmds => s.settles cmds on (s.recording.recordStatus env on saved error)
  | .configure cfg saved => !(s.told (s.recording.reconfigureStatus cfg saved) && s.wanted)
  | .reopen error =>
    match s.todo with
    | .reopen cfg =>
      s.settles s.cmds s.recording.mp4On (s.recording.reopenStatus env cfg error)
    | .nothing | .size _ _ => true
  | .take | .size | .frame _ | .decoded => true

/-! ## Steps -/

/-- Window and session will come to the same. -/
structure Agrees (s : Indicator F) : Prop where
  shown : s.shown = s.wanted
  held : s.recording.Held

theorem agrees_tell {s s' : Indicator F} {status : Option String} (ha : Agrees s)
    (happ : s'.app = s.app) (hm : s'.msgs = (s.tell status).msgs) (hh : s'.recording.Held)
    (hw : s'.wanted = (s.wanted && !s.told status)) : Agrees s' := by
  refine ⟨?_, hh⟩
  have hshown : s'.shown = (s.tell status).shown := by
    unfold shown
    rw [happ, hm]
    rfl
  rw [hshown, shown_tell, ha.shown, hw]

theorem agrees_quiet {s s' : Indicator F} (ha : Agrees s) (happ : s'.app.mp4On = s.app.mp4On)
    (hm : s'.msgs.any fails = s.msgs.any fails) (hh : s'.recording.Held)
    (hw : s'.wanted = s.wanted) : Agrees s' := by
  refine ⟨?_, hh⟩
  have hshown := ha.shown
  unfold shown at hshown ⊢
  rw [receives_mp4On] at hshown ⊢
  rw [happ, hm, hshown, hw]

theorem wanted_of_settles {s : Indicator F} {cmds : List Bool} {on : Bool} {status : Option String}
    (h : s.settles cmds on status = true) :
    cmds.getLastD (on && !status.any reports) = (cmds.getLastD on && !s.told status) := by
  unfold settles lost at h
  unfold told at h ⊢
  generalize decide (s.msgs.length < FRAME_DEPTH) = room at h ⊢
  generalize status.any reports = failed at h ⊢
  cases cmds with
  | nil => cases on <;> cases failed <;> cases room <;> simp_all
  | cons c cmds =>
    simp only [List.getLastD_cons] at h ⊢
    generalize cmds.getLastD c = last at h ⊢
    cases last <;> cases failed <;> cases room <;> simp_all

/-- The user toggles when no failure is on its way, or ends the recording. -/
theorem agrees_window [F32Unsigned F] {s s' : Indicator F} {i : Input F} (ha : Agrees s)
    (hok : s.heard env (.window i) = true) (hs : step env s (.window i) = some s') : Agrees s' := by
  simp only [step] at hs
  split at hs
  · rename_i hi
    obtain ⟨h, hh, rfl⟩ := Option.map_eq_some_iff.mp hs
    simp only [heard, hh, Option.all_some] at hok
    rcases App.step_asks hi hh with ⟨hon, hcmds⟩ | ⟨hon, hcmds⟩
    · simp only at hon hcmds
      refine agrees_quiet ha hon rfl ha.held ?_
      simp only [wanted, hcmds, List.append_nil]
    · simp only at hon hcmds
      refine ⟨?_, ha.held⟩
      have hwanted : (s.cmds ++ [!s.app.mp4On]).getLastD s.recording.mp4On = !s.app.mp4On :=
        List.getLastD_concat
      rw [shown, wanted, receives_mp4On, hcmds, hon, hwanted]
      rw [hcmds] at hok
      cases hold : s.app.mp4On with
      | true => rfl
      | false => simpa [hold] using hok
  · cases hs

/-- The session does as asked, or says that it could not. -/
theorem agrees_command {s : Indicator F} (ha : Agrees s) {on : Bool} {cmds : List Bool}
    (hcmds : s.cmds = on :: cmds) (saved : Except String String) (error : String)
    (hok : s.settles cmds on (s.recording.recordStatus env on saved error) = true) :
    Agrees { s.tell (s.recording.recordStatus env on saved error) with
      cmds, recording := s.recording.recordMp4 env on } := by
  obtain ⟨hheld, hon⟩ := s.recording.recordMp4_spec env on saved error
  refine agrees_tell ha rfl rfl hheld ?_
  have hwanted : s.wanted = cmds.getLastD on := by rw [wanted, hcmds, List.getLastD_cons]
  rw [hwanted, ← wanted_of_settles hok, ← hon]
  rfl

theorem agrees_configure {s : Indicator F} (ha : Agrees s) (cfg : VideoCfg)
    (saved : Except String String)
    (hok : (!(s.told (s.recording.reconfigureStatus cfg saved) && s.wanted)) = true) :
    Agrees { s.tell (s.recording.reconfigureStatus cfg saved) with
      recording := s.recording.reconfigure cfg, todo := .reopen cfg } := by
  obtain ⟨hheld, hon⟩ := Recording.reconfigure_spec ha.held cfg
  refine agrees_tell ha rfl rfl hheld ?_
  change s.cmds.getLastD (s.recording.reconfigure cfg).mp4On = _
  rw [hon]
  change s.wanted = _
  cases hwanted : s.wanted with
  | false => rfl
  | true => simpa [hwanted] using hok

theorem agrees_reopen {s : Indicator F} (ha : Agrees s) (cfg : VideoCfg) (error : String)
    (hok : s.settles s.cmds s.recording.mp4On (s.recording.reopenStatus env cfg error) = true) :
    Agrees { s.tell (s.recording.reopenStatus env cfg error) with
      recording := s.recording.reopen env cfg, todo := .size cfg.width cfg.height } := by
  obtain ⟨hheld, hon⟩ := Recording.reopen_spec env ha.held cfg error
  refine agrees_tell ha rfl rfl hheld ?_
  have hwanted : s.wanted = s.cmds.getLastD s.recording.mp4On := rfl
  rw [hwanted, ← wanted_of_settles hok, ← hon]
  rfl

theorem agrees_step [F32Unsigned F] {s s' : Indicator F} {turn : Turn F} (ha : Agrees s)
    (hok : s.heard env turn = true) (hs : step env s turn = some s') : Agrees s' := by
  cases turn with
  | window i => exact agrees_window env ha hok hs
  | take =>
    simp only [step] at hs
    split at hs
    · cases hs
    · rename_i msg msgs hmsgs
      cases hs
      refine ⟨?_, ha.held⟩
      have hshown := ha.shown
      rw [shown, hmsgs] at hshown
      exact hshown
  | command saved error =>
    simp only [step] at hs
    split at hs
    · split at hs
      · cases hs
      · rename_i on cmds hcmds
        cases hs
        simp only [heard, hcmds] at hok
        exact agrees_command env ha hcmds saved error hok
    · cases hs
    · cases hs
  | configure cfg saved =>
    simp only [step] at hs
    split at hs
    · cases hs
      exact agrees_configure ha cfg saved hok
    · cases hs
    · cases hs
  | reopen error =>
    simp only [step] at hs
    split at hs
    · rename_i cfg htodo
      cases hs
      simp only [heard, htodo] at hok
      exact agrees_reopen env ha cfg error hok
    · cases hs
    · cases hs
  | size =>
    simp only [step] at hs
    split at hs
    · cases hs
      refine agrees_quiet ha rfl ?_ ha.held rfl
      simp only [offer]
      split
      · simp [fails]
      · rfl
    · cases hs
    · cases hs
  | frame frame =>
    simp only [step] at hs
    split at hs
    · cases hs
      refine agrees_quiet ha rfl rfl ?_ rfl
      intro hopen
      refine ha.held ?_
      simpa [Recording.event, Frame.out] using hopen
    · cases hs
    · cases hs
  | decoded =>
    simp only [step] at hs
    split at hs
    · cases hs
      refine agrees_quiet ha rfl ?_ ha.held rfl
      simp [fails]
    · cases hs

/-! ## Runs -/

variable [F32Unsigned F]

def start (noControl : Bool) : Indicator F :=
  { app := .start noControl, cmds := [], recording := .start env, todo := .nothing, msgs := [] }

/-- **The indicator.** Once both queues are empty the window shows what the
session has, and no file is open unseen, in every run in which what fails is
heard of in time. -/
theorem indicator_agrees {noControl : Bool} {turns : List (Turn F)} {t : Indicator F}
    (h : run (step env) (start env noControl) turns = some t)
    (hok : Meets (step env) (fun s turn => s.heard env turn = true)
      (start (F := F) env noControl) turns) (hc : t.cmds = []) (hm : t.msgs = []) :
    t.app.mp4On = t.recording.mp4On ∧ (t.recording.mp4.isSome = true → t.app.mp4On = true) := by
  have hstart : Agrees (start env noControl : Indicator F) := ⟨rfl, fun hopen => nomatch hopen⟩
  have hagrees := run_invariant (fun _ _ _ ha hok hs => agrees_step env ha hok hs) h hok hstart
  have hsame := hagrees.shown
  rw [shown, hm, wanted, hc] at hsame
  have heq : t.app.mp4On = t.recording.mp4On := hsame
  exact ⟨heq, fun hopen => heq.trans (hagrees.held hopen)⟩

/-- Every file can be begun. -/
def anyFile : Env := ⟨false, false, fun _ => true⟩

/-- A configuration with both parameter sets. -/
def sized (width height : UInt16) : VideoCfg :=
  ⟨.h264, [0, 0, 0, 1, 0x67, 1, 0, 0, 0, 1, 0x68, 1], width, height⟩

/-- Ctrl, Shift and M. -/
def toggles : List (Turn Float32) :=
  [.window (.event (.modifiersChanged ⟨true, true, false, false⟩) none),
    .window (.event (.keyboardInput ⟨.code .keyM, .character "M", some "M", .pressed, false⟩) none)]

/-- The video is announced, and a recording asked for. -/
def begins : List (Turn Float32) :=
  [.configure (sized 2 4) (.ok ""), .reopen "", .size] ++ toggles ++ [.command (.ok "") "", .take]

/-- A recording of one frame. -/
def recorded : List (Turn Float32) :=
  begins ++ [.frame ⟨0, true, [0, 0, 0, 1, 0x65]⟩, .decoded] ++ toggles ++
    [.command (.ok "/tmp/droidmirror.mp4") "", .take, .take]

theorem indicator_agrees_recorded : ∃ t : Indicator Float32,
    run (step anyFile) (start anyFile false) recorded = some t ∧
      t.app.mp4On = t.recording.mp4On ∧ (t.recording.mp4.isSome = true → t.app.mp4On = true) := by
  have hend : (run (step anyFile) (start (F := Float32) anyFile false) recorded).map
      (fun t => (t.cmds, t.msgs)) = some ([], []) := by decide +kernel
  obtain ⟨t, ht, hempty⟩ := Option.map_eq_some_iff.mp hend
  exact ⟨t, ht, indicator_agrees anyFile ht (by decide +kernel) (congrArg Prod.fst hempty)
    (congrArg Prod.snd hempty)⟩

/-- The size changes, and the file of the old one cannot be finished. -/
def rotated : List (Turn Float32) :=
  begins ++ [.configure (sized 4 2) (.error "no frames were recorded"), .reopen "", .size,
    .take, .take]

/-- The session records and the window does not show it. -/
theorem unseen_recording : ¬ ∀ (env : Env) (turns : List (Turn Float32)) (t : Indicator Float32),
    run (step env) (start env false) turns = some t → t.cmds = [] → t.msgs = [] →
      t.app.mp4On = t.recording.mp4On ∧ (t.recording.mp4.isSome = true → t.app.mp4On = true) := by
  intro h
  have hend : (run (step anyFile) (start (F := Float32) anyFile false) rotated).map
      (fun t => (t.cmds, t.msgs, t.app.mp4On, t.recording.mp4On)) =
        some ([], [], false, true) := by decide +kernel
  obtain ⟨t, ht, heq⟩ := Option.map_eq_some_iff.mp hend
  simp only [Prod.mk.injEq] at heq
  obtain ⟨hc, hm, hwindow, hsession⟩ := heq
  have hagree := (h anyFile rotated t ht hc hm).1
  rw [hwindow, hsession] at hagree
  cases hagree

end Indicator
end DroidMirror.Native
