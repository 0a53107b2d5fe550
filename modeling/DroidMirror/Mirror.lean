import DroidMirror.Native.Pipeline
import DroidMirror.Server.Stream

/-! # From the encoder to the window

The server's session (`crates/server/src/android/run.rs`) and the host's
(`crates/native/src/main.rs`) at the two ends of a connection that carries bytes
in order, however it cuts them and wherever it breaks off. -/
namespace DroidMirror.Native
open DroidMirror.Proto DroidMirror.Server DroidMirror.Lib.Incremental DroidMirror.Lib.Run

/-- The frames of messages. -/
def messageFrames (messages : List Message) : List Frame :=
  messages.filterMap fun m => (Item.message m).frame?

/-- A frame as a job holds it. -/
def jobOf (f : Frame) : List UInt8 × Bool := (f.nal, f.keyframe)

/-- Some of the frames handled entered the queue, in their order. -/
theorem jobs_sublist (fates : List Fate) :
    (fates.filterMap Fate.job?).Sublist ((fates.map Fate.frame).map jobOf) := by
  induction fates with
  | nil => exact .slnil
  | cons f fates ih =>
    rw [List.map_cons, List.map_cons]
    by_cases hentered : f.outcome = .entered
    · have hjob : f.job? = some (jobOf f.frame) := if_pos hentered
      rw [List.filterMap_cons_some hjob]
      exact ih.cons_cons _
    · have hjob : f.job? = none := if_neg hentered
      rw [List.filterMap_cons_none hjob]
      exact ih.cons _

variable {F G : Type} [F32Unsigned F] [F32 G] {cfg : ServerConfig} {env : Env}

/-- The frames of the first bytes a server sent are the first of its frames. -/
theorem videoFrames_front {h : Handshake} {hb : List UInt8} {messages : List Message} {p : Pipe} {ok : Prop}
    {bytes : List UInt8} (hcarries : Server.Carries hb messages p ok) (hv : h.version = VERSION)
    (hh : encodeHandshake h = .ok hb) (hread : bytes <+: p.sent) : videoFrames bytes <+: messageFrames messages ∧
      (bytes = p.sent → ok → videoFrames bytes = messageFrames messages) := by
  obtain ⟨-, ⟨hshort, hitems⟩ | ⟨read, hfront, hitems, -, hall⟩⟩ := Sending.carries_front hcarries hv hh hread
  · rw [videoFrames, hitems]
    refine ⟨List.nil_prefix, fun hbytes _ => ?_⟩
    -- the handshake was written whole before anything else
    obtain ⟨whole, part, -, hsent, -⟩ := hcarries.split
    rw [hbytes, hsent, List.append_assoc, List.length_append] at hshort
    exact absurd hshort (Nat.not_lt.mpr (Nat.le_add_right _ _))
  · have hframes : videoFrames bytes = messageFrames read := by
      rw [videoFrames, hitems, List.filterMap_cons_none rfl, List.filterMap_map]
      rfl
    rw [hframes]
    exact ⟨hfront.filterMap _, fun hbytes hok => by rw [hall hbytes hok]⟩

/-- **The mirror.** However the encoder, the writes of the server, the connection
and the threads of the host go, if only the socket takes nothing more once a message
was left cut: the frames the host handles are the first that the server's encoder
put out, all of them once all bytes came and no write failed; the decoder is given
some of these in their order; and the window gets the decoder's pictures, each once
and in order. -/
theorem frames_mirrored {l : Launch} {answers : Writes} {turns : List WritingTurn} {x y : Sending}
    (hbegin : Sending.begin_ F cfg l answers = some x) (hserve : run (Sending.step F cfg) x turns = some y)
    (hsealed : Meets (Sending.step F cfg) Sending.Sealed x turns)
    {acts : List (Pipeline.Act G)} {t : Pipeline}
    (hhost : run (Pipeline.step env) (Pipeline.start env) acts = some t)
    (hread : Pipeline.received acts <+: y.pipe.sent) :
    ∃ handled, t.session.fates.map Fate.frame ++ t.session.batch.filterMap Entry.frame? = handled ∧
      handled <+: messageFrames y.sentAfterHello ∧
      (Pipeline.received acts = y.pipe.sent → y.pipe.harm = .none ∧ y.pipe.stuck = false →
        handled = messageFrames y.sentAfterHello) ∧
      ((t.calls.map DecodeCall.job ++ t.session.queue).filterMap NalJob.frame?).Sublist (handled.map jobOf) ∧
      frames t.taken ++ (frames t.msgs ++ t.hand.toList) = OpenH264Decoder.new.pictures t.calls := by
  obtain ⟨hb, hencode, hcarries⟩ := Sending.carries_run hbegin hserve hsealed
  obtain ⟨hfront, hall⟩ := videoFrames_front hcarries rfl hencode hread
  obtain ⟨hhandled, hlogged, hpictures⟩ := Pipeline.arrival hhost
  refine ⟨_, rfl, hhandled ▸ hfront, fun hbytes hok => hhandled.trans (hall hbytes hok), ?_, hpictures⟩
  rw [hlogged, List.map_append]
  exact (jobs_sublist _).trans (List.sublist_append_left _ _)

theorem frames_mirrored_cut : ∃ x y : Sending, Sending.begin_ (F := ℚ) .default .plain [.ok 5, .ok 100] = some x ∧
    run (Sending.step ℚ .default) x Sending.failingTurns = some y ∧
      ∃ t, run (Pipeline.step (F := Float32) ⟨true, false, fun _ => true⟩)
          (Pipeline.start ⟨true, false, fun _ => true⟩) [.read y.pipe.sent (.ok "")] = some t ∧
        t.session.fates.map Fate.frame ++ t.session.batch.filterMap Entry.frame? <+:
          messageFrames y.sentAfterHello := by
  have hbegin : (Sending.begin_ ℚ .default .plain [.ok 5, .ok 100]).isSome = true := by decide +kernel
  obtain ⟨x, hx⟩ := Option.isSome_iff_exists.mp hbegin
  have hrun : ∀ x ∈ Sending.begin_ ℚ .default .plain [.ok 5, .ok 100],
      (run (Sending.step ℚ .default) x Sending.failingTurns).isSome = true ∧
        Meets (Sending.step ℚ .default) Sending.Sealed x Sending.failingTurns := by decide +kernel
  obtain ⟨hsome, hsealed⟩ := hrun x hx
  obtain ⟨y, hy⟩ := Option.isSome_iff_exists.mp hsome
  obtain ⟨t, ht⟩ : ∃ t, run (Pipeline.step (F := Float32) ⟨true, false, fun _ => true⟩)
      (Pipeline.start ⟨true, false, fun _ => true⟩) [.read y.pipe.sent (.ok "")] = some t := ⟨_, rfl⟩
  have hread : Pipeline.received (F := Float32) [.read y.pipe.sent (.ok "")] <+: y.pipe.sent := by
    simp [Pipeline.received, Pipeline.Act.chunk?]
  obtain ⟨handled, hhandled, hfront, -⟩ := frames_mirrored hx hy hsealed ht hread
  exact ⟨x, y, hx, hy, t, ht, hhandled ▸ hfront⟩

end DroidMirror.Native
