import DroidMirror.Server.Session

/-! # Display changes

A display change rebuilds the encoder from the launch configuration. What the
client asked for lives in the encoder, so it is lost (`paused_frame`); it
survives in the runs in which every change finds the encoder as it was launched
(`control_survives`). The change is marked as seen and the old encoder released
before anything that can fail, so a change that fails is never recovered from
(`recoverable_iff`). -/
namespace DroidMirror.Server
open DroidMirror.Proto DroidMirror.Lib.Run

/-! ## What the client asked for -/

/-- The control state a client sets. -/
structure Control where
  paused : Bool
  bitrate : UInt32
  maxFps : UInt32
  deriving DecidableEq

def Control.launch (cfg : ServerConfig) : Control := ⟨false, cfg.bitrate, max cfg.maxFps 1⟩

def Control.hear (k : Control) : Event → Control
  | .call (.pause on) => { k with paused := on }
  | .call (.setEncoding bitrate maxFps _) => { k with bitrate, maxFps := max maxFps 1 }
  | _ => k

/-- What the dispatched calls ask for, the last of each kind. -/
def asked (cfg : ServerConfig) (log : List Event) : Control := log.foldl Control.hear (.launch cfg)

theorem asked_snoc (cfg : ServerConfig) (log : List Event) (e : Event) :
    asked cfg (log ++ [e]) = (asked cfg log).hear e := by
  simp [asked]

theorem max_one_max_one (v : UInt32) : max (max v 1) 1 = max v 1 := by
  have hmax : ∀ a b : UInt32, max a b = if a ≤ b then b else a := fun _ _ => rfl
  rw [hmax v 1]
  split
  · rfl
  · rename_i h
    rw [hmax, if_neg h]

def Call.encodes : Call → Bool
  | .setEncoding .. => true
  | _ => false

/-- What the encoder's fields hold of it. -/
def Capture.asks (c : Capture) : Control := ⟨c.paused, c.bitrate, max c.maxFps 1⟩

theorem asks_control (c : Capture) (call : Call) :
    (c.control call).asks = c.asks.hear (.call call) := by
  cases call with
  | setEncoding bitrate maxFps maxSize =>
    simp only [Capture.control, Capture.setEncoding, Capture.asks, Control.hear, max_one_max_one]
  | _ => rfl

/-- No frame is written while the client has paused. -/
def Quiet (cfg : ServerConfig) (log : List Event) : Prop :=
  Each (fun before e => ∀ source au, e = .frame source au → (asked cfg before).paused = false) log

/-- The codec was told the parameters asked for. -/
def Told (cfg : ServerConfig) (s : Serving) : Prop :=
  s.capture.codec.bitrate = (asked cfg s.log).bitrate ∧ s.capture.codec.maxFps = (asked cfg s.log).maxFps

/-- The control state survives. -/
structure Survives (cfg : ServerConfig) (s : Serving) : Prop where
  quiet : Quiet cfg s.log
  encoder : s.ended = false → Told cfg s

/-- Where the parts of a turn stand: the encoder holds what was asked for, and
the codec was told unless that is still to come. -/
structure Heeds (cfg : ServerConfig) (s : Serving) : Prop where
  quiet : Quiet cfg s.log
  asks : s.capture.asks = asked cfg s.log
  raised : s.capture.paramsDirty = true → max s.capture.maxFps 1 = s.capture.maxFps
  told : s.capture.paramsDirty = false → Told cfg s

theorem quiet_snoc {cfg : ServerConfig} {log : List Event} (h : Quiet cfg log) {e : Event}
    (he : ∀ source au, e ≠ .frame source au) : Quiet cfg (log ++ [e]) :=
  each_snoc.mpr ⟨h, fun source au heq => absurd heq (he source au)⟩

theorem heeds_call {cfg : ServerConfig} {s : Serving} (h : Heeds cfg s) (call : Call) :
    Heeds cfg { s with capture := s.capture.control call, log := s.log ++ [.call call] } := by
  refine ⟨quiet_snoc h.quiet (fun _ _ he => nomatch he), ?_, ?_, ?_⟩
  · rw [asked_snoc, ← h.asks]
    exact asks_control s.capture call
  · intro hd
    cases call with
    | setEncoding bitrate maxFps maxSize => exact max_one_max_one maxFps
    | _ => exact h.raised hd
  · intro hd
    unfold Told
    rw [asked_snoc]
    cases call with
    | setEncoding bitrate maxFps maxSize => exact absurd hd Bool.noConfusion
    | _ => exact h.told hd

theorem heeds_calls {cfg : ServerConfig} (calls : List Call) : ∀ {s : Serving}, Heeds cfg s →
    Heeds cfg
      { s with capture := calls.foldl Capture.control s.capture, log := s.log ++ calls.map .call } := by
  induction calls with
  | nil =>
    intro s h
    simpa using h
  | cons call rest ih =>
    intro s h
    have hrest := ih (heeds_call h call)
    simpa using hrest

theorem heeds_apply {cfg : ServerConfig} {s : Serving} (h : Heeds cfg s) {t : Turn}
    (hall : s.capture.paramsDirty = true → t.applied = .all) :
    Heeds cfg (s.apply t) ∧ (s.apply t).capture.paramsDirty = false := by
  have hasks := h.asks
  cases hd : s.capture.paramsDirty with
  | false =>
    have hsame : s.apply t = { s with capture := { s.capture with paramsDirty := false } } := by
      simp only [Serving.apply, Capture.takeParamsDirty, hd, Bool.false_eq_true, if_false]
    rw [hsame]
    exact ⟨⟨h.quiet, hasks, fun hc => absurd hc Bool.false_ne_true, fun _ => h.told hd⟩, rfl⟩
  | true =>
    have hsame : s.apply t = { s with
        capture := { s.capture with
          paramsDirty := false
          codec := { s.capture.codec with bitrate := s.capture.bitrate, maxFps := s.capture.maxFps } } } := by
      simp only [Serving.apply, Capture.takeParamsDirty, hd, hall hd, if_true, Capture.applyParams,
        Applied.all, Bool.and_self]
    rw [hsame]
    refine ⟨⟨h.quiet, hasks, fun hc => absurd hc Bool.false_ne_true, fun _ => ?_⟩, rfl⟩
    unfold Told
    rw [← hasks]
    exact ⟨rfl, (h.raised hd).symm⟩

theorem heeds_same {cfg : ServerConfig} {s : Serving} (h : Heeds cfg s) {c : Capture}
    (hc : s.capture.Same c) : Heeds cfg { s with capture := c } := by
  obtain ⟨csd, rfl⟩ := hc
  exact ⟨h.quiet, h.asks, h.raised, h.told⟩

theorem heeds_sendFrame {cfg : ServerConfig} {s : Serving} (h : Heeds cfg s) (t : Turn) :
    Heeds cfg (s.sendFrame t) ∧ (s.sendFrame t).capture.paramsDirty = s.capture.paramsDirty ∧
      asked cfg (s.sendFrame t).log = asked cfg s.log := by
  obtain ⟨c, ⟨csd, rfl⟩, hsend⟩ := s.sendFrame_cases t
  have hsame := heeds_same h ⟨csd, rfl⟩
  rcases hsend with hsend | ⟨hp, au, hsend⟩
  · rw [hsend]
    exact ⟨hsame, rfl, rfl⟩
  · rw [hsend]
    have hasked : asked cfg (s.log ++ [.frame s.capture.codec.id au]) = asked cfg s.log := asked_snoc ..
    refine ⟨⟨each_snoc.mpr ⟨h.quiet, ?_⟩, ?_, h.raised, ?_⟩, rfl, hasked⟩
    · intro _ _ _
      rw [← h.asks]
      exact hp
    · exact h.asks.trans hasked.symm
    · unfold Told
      rw [hasked]
      exact h.told

namespace Serving
variable (F : Type) [F32Unsigned F] (cfg : ServerConfig)

theorem dirty_calls (calls : List Call) : ∀ c : Capture,
    (calls.foldl Capture.control c).paramsDirty = true →
      c.paramsDirty = true ∨ calls.any Call.encodes = true := by
  induction calls with
  | nil => exact fun c h => .inl h
  | cons call rest ih =>
    intro c h
    rw [List.any_cons, Bool.or_eq_true]
    cases call with
    | setEncoding bitrate maxFps maxSize => exact .inr (.inl rfl)
    | _ => exact (ih _ h).imp_right .inr

/-- The log with the calls of a turn. -/
def heard (s : Serving) (t : Turn) : List Event := s.log ++ (s.dispatched F t).map .call

/-- The change a turn acts on, if it comes to its display check, can be made. -/
def Reconfigures (s : Serving) (t : Turn) : Prop :=
  (s.upToCheck F t).ended = false → ∀ now ∈ s.change? t,
    (s.upToCheck F t).Rebuilds cfg t (fitted F cfg now).1 (fitted F cfg now).2

/-- A turn that dispatches parameters hands them over, and one whose display check
finds a change finds that what was asked for is the launch configuration. -/
def Spared (s : Serving) (t : Turn) : Prop :=
  ((s.dispatched F t).any Call.encodes = true → t.applied = .all) ∧
    ((s.upToCheck F t).ended = false → (s.change? t).isSome = true → asked cfg (s.heard F t) = .launch cfg)

instance (s : Serving) (t : Turn) : Decidable (s.Reconfigures F cfg t) :=
  inferInstanceAs (Decidable ((s.upToCheck F t).ended = false → ∀ now ∈ s.change? t,
    (s.upToCheck F t).Rebuilds cfg t (fitted F cfg now).1 (fitted F cfg now).2))

instance (s : Serving) (t : Turn) : Decidable (s.Spared F cfg t) :=
  inferInstanceAs (Decidable (((s.dispatched F t).any Call.encodes = true → t.applied = .all) ∧
    ((s.upToCheck F t).ended = false → (s.change? t).isSome = true → asked cfg (s.heard F t) = .launch cfg)))

variable {F cfg}

theorem heeds_receive {s : Serving} (h : Heeds cfg s) (t : Turn) :
    Heeds cfg (s.receive F t) ∧ (s.receive F t).log = s.heard F t ∧
      (s.receive F t).capture = (s.dispatched F t).foldl Capture.control s.capture := by
  obtain ⟨demux, ended, hreceive⟩ := receive_eq F s t
  obtain ⟨hquiet, hasks, hraised, htold⟩ := heeds_calls (s.dispatched F t) h
  rw [hreceive]
  exact ⟨⟨hquiet, hasks, hraised, htold⟩, rfl, rfl⟩

theorem heeds_upToCheck {s : Serving} (h : Heeds cfg s) (hclean : s.capture.paramsDirty = false)
    {t : Turn} (hall : (s.dispatched F t).any Call.encodes = true → t.applied = .all) :
    Heeds cfg (s.upToCheck F t) ∧ asked cfg (s.upToCheck F t).log = asked cfg (s.heard F t) ∧
      ((s.upToCheck F t).ended = false → (s.upToCheck F t).capture.paramsDirty = false) := by
  obtain ⟨hreceive, hlog, hcapture⟩ := heeds_receive (F := F) h t
  have hdirty : (s.receive F t).capture.paramsDirty = true → t.applied = .all := by
    intro hd
    rw [hcapture] at hd
    rcases dirty_calls _ _ hd with hold | hnew
    · rw [hclean] at hold
      cases hold
    · exact hall hnew
  obtain ⟨happly, hsettled⟩ := heeds_apply hreceive hdirty
  obtain ⟨hsend, hkept, hasked⟩ := heeds_sendFrame happly t
  have hheard : ((s.receive F t).apply t).log = s.heard F t := hlog
  rw [hheard] at hasked
  unfold upToCheck
  simp only
  split
  · rename_i he
    refine ⟨hreceive, by rw [hlog], fun hne => ?_⟩
    rw [he] at hne
    cases hne
  · exact ⟨hsend, hasked, fun _ => hkept.trans hsettled⟩

theorem heeds_adopt {s : Serving} (hquiet : Quiet cfg s.log) (hasked : asked cfg s.log = .launch cfg)
    (t : Turn) (now : DisplayInfo) :
    Heeds cfg (s.adopt F cfg t now) ∧ (s.adopt F cfg t now).capture.paramsDirty = false := by
  obtain ⟨csd, hrebuilt⟩ := Capture.waitCsd_same (Capture.start s.codecs (fitted F cfg now).1.toInt32
    (fitted F cfg now).2.toInt32 cfg.bitrate cfg.maxFps cfg.h265) t.csd
  have hlog : asked cfg (s.adopt F cfg t now).log = .launch cfg := (asked_snoc ..).trans hasked
  have hcapture : (s.adopt F cfg t now).capture =
      { Capture.start s.codecs (fitted F cfg now).1.toInt32 (fitted F cfg now).2.toInt32 cfg.bitrate
          cfg.maxFps cfg.h265 with csd } := hrebuilt
  refine ⟨⟨quiet_snoc hquiet (fun _ _ he => nomatch he), ?_, ?_, ?_⟩, ?_⟩
  · rw [hlog, hcapture]
    rfl
  · rw [hcapture]
    exact fun hd => absurd hd Bool.false_ne_true
  · intro _
    rw [Told, hlog, hcapture]
    exact ⟨rfl, rfl⟩
  · rw [hcapture]
    rfl

/-- The state between turns. -/
structure Held (cfg : ServerConfig) (s : Serving) : Prop where
  heeds : Heeds cfg s
  clean : s.ended = false → s.capture.paramsDirty = false

theorem held_step {s s' : Serving} {t : Turn} (hi : Held cfg s)
    (hok : Reconfigures F cfg s t ∧ Spared F cfg s t) (h : step F cfg s t = some s') : Held cfg s' := by
  obtain ⟨hrebuilds, hall, hchange⟩ := hok
  unfold step at h
  split at h
  · cases h
  · rename_i hs
    rw [Bool.not_eq_true] at hs
    obtain ⟨hup, hasked, hclean⟩ := heeds_upToCheck hi.heeds (hi.clean hs) hall
    cases h
    unfold turn
    simp only
    split
    · rename_i he
      refine ⟨⟨hup.quiet, hup.asks, hup.raised, hup.told⟩, fun hne => ?_⟩
      rw [close, he] at hne
      cases hne
    · rename_i he
      rw [Bool.not_eq_true] at he
      cases hc : s.change? t with
      | none =>
        rw [checkDisplay_none F cfg (by rw [change_upToCheck, hc])]
        exact ⟨hup, hclean⟩
      | some now =>
        have hlaunch := hasked.trans (hchange he (by rw [hc]; rfl))
        obtain ⟨hheeds, hfresh⟩ := heeds_adopt (F := F) hup.quiet hlaunch t now
        rw [checkDisplay_ok F cfg (by rw [change_upToCheck, hc]) (hrebuilds he now hc)]
        exact ⟨hheeds, fun _ => hfresh⟩

theorem held_begin {l : Launch} {s : Serving} (hs : begin_ F cfg l = some s) : Held cfg s := by
  obtain ⟨w, h, codec, width, height, announced, hcapture, hlog, _⟩ := begin_eq F cfg hs
  obtain ⟨csd, hstart⟩ := Capture.waitCsd_same (Capture.start 0 w h cfg.bitrate cfg.maxFps cfg.h265) l.csd
  rw [hstart] at hcapture
  have hasked : asked cfg s.log = .launch cfg := by
    rw [hlog]
    rfl
  refine ⟨⟨?_, ?_, ?_, ?_⟩, ?_⟩
  · rw [hlog]
    exact quiet_snoc (each_nil _) (fun _ _ he => nomatch he)
  · rw [hasked, hcapture]
    rfl
  · rw [hcapture]
    exact fun hd => absurd hd Bool.false_ne_true
  · intro _
    rw [Told, hasked, hcapture]
    exact ⟨rfl, rfl⟩
  · rw [hcapture]
    exact fun _ => rfl

/-- **The control state.** In a run in which every display change is made, and
finds that what was asked for is the launch configuration, no frame is written
while the client has paused, and after every turn the encoder runs with the
parameters asked for. -/
theorem control_survives {l : Launch} {s t : Serving} {turns : List Turn} (hs : begin_ F cfg l = some s)
    (h : run (step F cfg) s turns = some t)
    (hok : Meets (step F cfg) (fun s t => Reconfigures F cfg s t ∧ Spared F cfg s t) s turns) :
    Survives cfg t := by
  obtain ⟨hheeds, hclean⟩ := run_invariant (fun s a s' hi hok hs => held_step hi hok hs) h hok
    (held_begin hs)
  exact ⟨hheeds.quiet, fun he => hheeds.told (hclean he)⟩

/-- A pause, a resume, other parameters and back: the display may change. -/
def backAgain : List Turn :=
  [.reads (.pauseResume true), .reads (.pauseResume false), .reads (.setEncoding 100 0 0),
    .reads (.setEncoding 8000000 60 0), .rotates 1, .encodes [1]]

theorem control_survives_back : ∃ s t, begin_ ℚ .default .plain = some s ∧
    run (step ℚ .default) s backAgain = some t ∧ Survives .default t := by
  have hbegin : (begin_ ℚ .default .plain).isSome = true := by decide +kernel
  obtain ⟨s, hs⟩ := Option.isSome_iff_exists.mp hbegin
  have hrun : ∀ s ∈ begin_ ℚ .default .plain, (run (step ℚ .default) s backAgain).isSome = true ∧
      Meets (step ℚ .default) (fun s t => Reconfigures ℚ .default s t ∧ Spared ℚ .default s t) s
        backAgain := by decide +kernel
  obtain ⟨hsome, hmeets⟩ := hrun s hs
  obtain ⟨t, ht⟩ := Option.isSome_iff_exists.mp hsome
  exact ⟨s, t, hs, ht, control_survives hs ht hmeets⟩

/-- The client pauses and the display turns: the new encoder is not paused. -/
theorem paused_frame : ¬ ∀ (cfg : ServerConfig) (l : Launch) (s t : Serving) (turns : List Turn),
    begin_ Float32 cfg l = some s → run (step Float32 cfg) s turns = some t →
    Meets (step Float32 cfg) (Reconfigures Float32 cfg) s turns → Survives cfg t := by
  intro h
  have hbegin : (begin_ Float32 .default .plain).isSome = true := by decide +kernel
  obtain ⟨s, hs⟩ := Option.isSome_iff_exists.mp hbegin
  have hrun : ∀ s ∈ begin_ Float32 .default .plain,
      (run (step Float32 .default) s [.reads (.pauseResume true), .rotates 1, .encodes [1]]).map
          Serving.log = some ([.announced 0 .h264 1080 1920 [], .call (.pause true),
            .announced 1 .h264 1080 1920 []] ++ .frame 1 ⟨0, false, [0, 0, 0, 1, 1]⟩ :: []) ∧
        Meets (step Float32 .default) (Reconfigures Float32 .default) s
          [.reads (.pauseResume true), .rotates 1, .encodes [1]] := by decide +kernel
  obtain ⟨hlog, hmeets⟩ := hrun s hs
  obtain ⟨t, ht, hlog⟩ := Option.map_eq_some_iff.mp hlog
  have hpaused := (h .default .plain s t _ hs ht hmeets).quiet _ _ _ hlog _ _ rfl
  revert hpaused
  decide

end Serving

/-! ## Changes that fail -/

/-- The codec, size and csd last announced. -/
def announcement (log : List Event) : Option (Nat × UInt16 × UInt16 × List UInt8) :=
  log.foldl (fun last e =>
    match e with
    | .announced source _ width height csd => some (source, width, height, csd)
    | _ => last) none

/-- Every frame comes from the codec last announced before it. -/
def FromAnnounced (log : List Event) : Prop :=
  Each (fun before e => ∀ source au, e = .frame source au →
    (announcement before).map Prod.fst = some source) log

/-- The session has ended, or it goes on with the encoder announced and will
look at the change again. -/
def Recovered (s : Serving) (now : DisplayInfo) : Prop :=
  s.ended = true ∨ s.capture.codec.released = false ∧ announcement s.log =
    some (s.capture.codec.id, s.capture.width.toUInt32.toUInt16, s.capture.height.toUInt32.toUInt16,
      s.capture.csd) ∧ s.changed now = true

/-- Every failed change of a run is recovered from, and every frame it writes
comes from the encoder announced. -/
structure Recoverable (F : Type) [F32Unsigned F] (cfg : ServerConfig) (s : Serving) (turns : List Turn)
    (last : Serving) : Prop where
  failed : ∀ before t after u u' e now, turns = before ++ t :: after →
    run (Serving.step F cfg) s before = some u → Serving.step F cfg u t = some u' →
    (u.turn F cfg t).2 = some (.error e) → u.change? t = some now → Recovered u' now
  frames : FromAnnounced last.log

theorem announcement_snoc (log : List Event) (e : Event) : announcement (log ++ [e]) =
    match e with
    | .announced source _ width height csd => some (source, width, height, csd)
    | _ => announcement log := by
  rw [announcement, List.foldl_append]
  rfl

theorem announcement_calls (log : List Event) (calls : List Call) :
    announcement (log ++ calls.map .call) = announcement log := by
  induction calls generalizing log with
  | nil => simp
  | cons call rest ih =>
    have hrest := ih (log ++ [.call call])
    rw [announcement_snoc] at hrest
    simpa using hrest

theorem fromAnnounced_calls {log : List Event} (h : FromAnnounced log) (calls : List Call) :
    FromAnnounced (log ++ calls.map .call) := by
  induction calls generalizing log with
  | nil => simpa using h
  | cons call rest ih =>
    have hrest := ih (each_snoc.mpr ⟨h, fun _ _ he => nomatch he⟩ : FromAnnounced (log ++ [.call call]))
    simpa using hrest

namespace Serving
variable {F : Type} [F32Unsigned F] {cfg : ServerConfig}

/-- The frames so far come from encoders announced, and so will the next. -/
structure Announces (s : Serving) : Prop where
  frames : FromAnnounced s.log
  source : s.ended = false → (announcement s.log).map Prod.fst = some s.capture.codec.id

theorem codec_calls (calls : List Call) : ∀ c : Capture,
    (calls.foldl Capture.control c).codec = c.codec := by
  induction calls with
  | nil => exact fun _ => rfl
  | cons call rest ih =>
    intro c
    rw [List.foldl_cons, ih]
    cases call <;> rfl

theorem apply_codec (s : Serving) (t : Turn) :
    (s.apply t).log = s.log ∧ (s.apply t).capture.codec.id = s.capture.codec.id := by
  refine ⟨rfl, ?_⟩
  cases hd : s.capture.paramsDirty with
  | false => simp [apply, Capture.takeParamsDirty, hd]
  | true =>
    simp only [apply, Capture.takeParamsDirty, hd, if_true, Capture.applyParams]
    cases t.applied.bundle && t.applied.setParameters <;> rfl

theorem announces_upToCheck {s : Serving} (hi : Announces s) (he : s.ended = false) (t : Turn) :
    FromAnnounced (s.upToCheck F t).log ∧
      (announcement (s.upToCheck F t).log).map Prod.fst = some (s.upToCheck F t).capture.codec.id := by
  obtain ⟨demux, ended, hreceive⟩ := receive_eq F s t
  have hcodec : (s.receive F t).capture.codec = s.capture.codec := by
    rw [hreceive]
    exact codec_calls _ _
  have hframes : FromAnnounced (s.receive F t).log := by
    rw [hreceive]
    exact fromAnnounced_calls hi.frames _
  have hsource : (announcement (s.receive F t).log).map Prod.fst =
      some (s.receive F t).capture.codec.id := by
    rw [hcodec, hreceive, announcement_calls]
    exact hi.source he
  obtain ⟨hlog, hid⟩ := (s.receive F t).apply_codec t
  obtain ⟨c, ⟨csd, rfl⟩, hsend⟩ := ((s.receive F t).apply t).sendFrame_cases t
  unfold upToCheck
  simp only
  split
  · exact ⟨hframes, hsource⟩
  · rcases hsend with hsend | ⟨_, au, hsend⟩
    · rw [hsend]
      exact ⟨hframes, hsource.trans (congrArg some hid.symm)⟩
    · rw [hsend]
      refine ⟨each_snoc.mpr ⟨hframes, ?_⟩, ?_⟩
      · intro source au' heq
        cases heq
        exact hsource.trans (congrArg some hid.symm)
      · rw [announcement_snoc]
        exact hsource.trans (congrArg some hid.symm)

theorem announces_step {s s' : Serving} {t : Turn} (hi : Announces s) (hok : Reconfigures F cfg s t)
    (h : step F cfg s t = some s') : Announces s' := by
  unfold step at h
  split at h
  · cases h
  · rename_i hs
    rw [Bool.not_eq_true] at hs
    obtain ⟨hframes, hsource⟩ := announces_upToCheck (F := F) hi hs t
    cases h
    unfold turn
    simp only
    split
    · exact ⟨hframes, fun _ => hsource⟩
    · rename_i he
      rw [Bool.not_eq_true] at he
      cases hc : s.change? t with
      | none =>
        rw [checkDisplay_none F cfg (by rw [change_upToCheck, hc])]
        exact ⟨hframes, fun _ => hsource⟩
      | some now =>
        rw [checkDisplay_ok F cfg (by rw [change_upToCheck, hc]) (hok he now hc)]
        refine ⟨each_snoc.mpr ⟨hframes, fun _ _ he => nomatch he⟩, fun _ => ?_⟩
        simp only [adopt]
        rw [announcement_snoc]
        rfl

theorem announces_begin {l : Launch} {s : Serving} (hs : begin_ F cfg l = some s) : Announces s := by
  obtain ⟨w, h, codec, width, height, csd, hcapture, hlog, _⟩ := begin_eq F cfg hs
  obtain ⟨found, hstart⟩ := Capture.waitCsd_same (Capture.start 0 w h cfg.bitrate cfg.maxFps cfg.h265) l.csd
  rw [hstart] at hcapture
  refine ⟨?_, fun _ => ?_⟩
  · rw [hlog]
    exact each_snoc.mpr ⟨each_nil _, fun _ _ he => nomatch he⟩
  · rw [hlog, hcapture]
    rfl

/-- A change that fails is marked as seen, and the session goes on. -/
theorem not_recovered {s s' : Serving} {t : Turn} {now : DisplayInfo} {e : Failure}
    (h : step F cfg s t = some s') (hfail : (s.turn F cfg t).2 = some (.error e))
    (hc : s.change? t = some now) : ¬ Recovered s' now := by
  have hs' : s' = (s.turn F cfg t).1 := by
    unfold step at h
    split at h
    · cases h
    · exact (Option.some.inj h).symm
  unfold turn at hfail hs'
  simp only at hfail hs'
  split at hfail
  · cases hfail
  · rename_i he
    rw [if_neg he] at hs'
    obtain ⟨hseen, hended⟩ := checkDisplay_frame F cfg ((change_upToCheck F s t).trans hc)
    rw [hs', Recovered, hseen, hended]
    rintro (hend | ⟨_, _, hpending⟩)
    · exact he hend
    · cases hpending

theorem reconfigures_iff (s : Serving) (t : Turn) :
    Reconfigures F cfg s t ↔ ∀ e, (s.turn F cfg t).2 ≠ some (.error e) := by
  unfold Reconfigures turn
  simp only
  split
  · rename_i he
    refine iff_of_true (fun hne => ?_) (fun e he => nomatch he)
    rw [he] at hne
    cases hne
  · rename_i he
    rw [Bool.not_eq_true] at he
    cases hc : s.change? t with
    | none =>
      rw [checkDisplay_none F cfg (by rw [change_upToCheck, hc])]
      exact iff_of_true (fun _ now hnow => nomatch hnow) (fun e he => nomatch he)
    | some now =>
      constructor
      · intro h e
        rw [checkDisplay_ok F cfg (by rw [change_upToCheck, hc]) (h he now rfl)]
        exact fun heq => nomatch heq
      · intro h _ now' hnow
        cases hnow
        exact rebuilds_of_check F cfg (by rw [change_upToCheck, hc]) h

/-- **Failed changes.** A run recovers from every display change that fails,
and writes only frames of the encoder announced, exactly if none fails. -/
theorem recoverable_iff {l : Launch} {s t : Serving} {turns : List Turn} (hs : begin_ F cfg l = some s)
    (h : run (step F cfg) s turns = some t) :
    Recoverable F cfg s turns t ↔ Meets (step F cfg) (Reconfigures F cfg) s turns := by
  constructor
  · intro hrec
    rw [meets_iff]
    intro before a after u hsplit hu
    rw [reconfigures_iff]
    intro e hfail
    rw [hsplit] at h
    obtain ⟨u', hu', hrest⟩ := run_append.mp h
    cases hu.symm.trans hu'
    obtain ⟨v, hv, _⟩ := run_cons.mp hrest
    cases hc : u.change? a with
    | none =>
      have hnone : Reconfigures F cfg u a := by
        intro _ now hnow
        rw [hc] at hnow
        cases hnow
      exact absurd hfail ((reconfigures_iff u a).mp hnone e)
    | some now => exact not_recovered hv hfail hc (hrec.failed before a after u v e now hsplit hu hv hfail hc)
  · intro hok
    refine ⟨?_, ?_⟩
    · intro before a after u u' e now hsplit hu _ hfail
      exact absurd hfail ((reconfigures_iff u a).mp (meets_iff.mp hok before a after u hsplit hu) e)
    · exact (run_invariant (fun s a s' hi hok hs => announces_step hi hok hs) h hok
        (announces_begin hs)).frames

theorem recoverable_iff_rotates : ∃ s t, begin_ ℚ .default .plain = some s ∧
    run (step ℚ .default) s [.rotates 1, .encodes [1]] = some t ∧
    Recoverable ℚ .default s [.rotates 1, .encodes [1]] t := by
  have hbegin : (begin_ ℚ .default .plain).isSome = true := by decide +kernel
  obtain ⟨s, hs⟩ := Option.isSome_iff_exists.mp hbegin
  have hrun : ∀ s ∈ begin_ ℚ .default .plain,
      (run (step ℚ .default) s [.rotates 1, .encodes [1]]).isSome = true ∧
        Meets (step ℚ .default) (Reconfigures ℚ .default) s [.rotates 1, .encodes [1]] := by
    decide +kernel
  obtain ⟨hsome, hmeets⟩ := hrun s hs
  obtain ⟨t, ht⟩ := Option.isSome_iff_exists.mp hsome
  exact ⟨s, t, hs, ht, (recoverable_iff hs ht).mpr hmeets⟩

/-- The display turns and no encoder starts: the session goes on with the old
one, which it has released, and does not look at the change again. -/
theorem change_lost : ¬ ∀ (cfg : ServerConfig) (l : Launch) (s t : Serving) (turns : List Turn),
    begin_ Float32 cfg l = some s → run (step Float32 cfg) s turns = some t →
    Recoverable Float32 cfg s turns t := by
  intro h
  have hbegin : (begin_ Float32 .default .plain).isSome = true := by decide +kernel
  obtain ⟨s, hs⟩ := Option.isSome_iff_exists.mp hbegin
  have hrun : ∀ s ∈ begin_ Float32 .default .plain,
      (s.turn Float32 .default { Turn.rotates 1 with started := false }).2 = some (.error .start) ∧
        s.change? { Turn.rotates 1 with started := false } = some ⟨1080, 1920, 1, "Android"⟩ ∧
        (step Float32 .default s { Turn.rotates 1 with started := false }).map
          (fun t => (t.ended, t.capture.codec.released)) = some (false, true) := by decide +kernel
  obtain ⟨hfail, hc, ht⟩ := hrun s hs
  obtain ⟨t, ht, hstate⟩ := Option.map_eq_some_iff.mp ht
  have hlast : run (step Float32 .default) s [{ Turn.rotates 1 with started := false }] = some t :=
    run_cons.mpr ⟨t, ht, rfl⟩
  rcases (h .default .plain s t _ hs hlast).failed [] _ [] s t _ _ rfl rfl ht hfail hc with he | hgone
  · rw [(Prod.mk.inj hstate).1] at he
    cases he
  · rw [(Prod.mk.inj hstate).2] at hgone
    cases hgone.1

end Serving

end DroidMirror.Server
