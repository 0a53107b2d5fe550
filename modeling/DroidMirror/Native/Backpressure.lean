import DroidMirror.Native.Session

/-! # The queue to the decoder

A frame that finds the queue full is dropped, and the client is told to skip to
the next keyframe. The request comes after the batch was decoded, so it cannot
reach the frames the batch still holds: when the decode thread takes a job in
between, one of them enters the queue after the gap (`gap_enters`). As long as
the rest of such a batch finds the queue full too, no delta frame enters after
a gap and none is left out without one (`queue_no_gap`). -/
namespace DroidMirror.Native
open DroidMirror.Proto DroidMirror.Lib.Incremental DroidMirror.Lib.Run
open DroidMirror.Client (Flows Reading)

/-- The frames of a byte stream, up to its first bad message. -/
def videoFrames (bytes : List UInt8) : List Frame :=
  (wire.parse false bytes).items.filterMap Item.frame?

/-- The bytes a step reads. -/
def Label.chunk? {F : Type} : Label F → Option (List UInt8)
  | .read chunk => some chunk
  | _ => none

def bytesRead {F : Type} (ls : List (Label F)) : List UInt8 := (ls.filterMap Label.chunk?).flatten

/-- A frame as the decoder gets it. -/
def NalJob.frame? : NalJob → Option (List UInt8 × Bool)
  | .frame nal keyframe => some (nal, keyframe)
  | .configure .. => none

def Fate.job? (f : Fate) : Option (List UInt8 × Bool) :=
  if f.outcome = .entered then some (f.frame.nal, f.frame.keyframe) else none

namespace Session
variable {F : Type} [F32 F] {env : Env}

/-! ## The frames handled are those of the wire -/

/-- The frames heard so far, and what the client has read. -/
def heard (s : Session) : List Frame × Reading :=
  (s.fates.map Fate.frame ++ s.batch.filterMap Entry.frame?, s.client.reading)

def hear (v : List Frame × Reading) (chunk : List UInt8) : List Frame × Reading :=
  if chunk.isEmpty then v
  else (v.1 ++ (v.2.items chunk).filterMap Item.frame?, v.2.after chunk)

theorem heard_step {s s' : Session} {l : Label F} (h : step env s l = some s') :
    s'.heard = l.chunk?.elim s.heard (hear s.heard) := by
  cases step_move env h with
  | read chunk he hb =>
    simp only [Label.chunk?, Option.elim, hear, heard, hb, read]
    split
    · rfl
    · simp [Client.reading_onBytes, Client.annotated_frames]
  | command cmd written he hb =>
    obtain ⟨hc, hbatch, _, _, hf⟩ := command_frame env s cmd written
    simp only [Label.chunk?, Option.elim, heard, hc, hbatch, hf]
  | skipped hb => simp [Label.chunk?, heard, hb, Entry.frame?]
  | event jobs hb ho => simp [Label.chunk?, heard, hb, Entry.frame?, ho]
  | dumped hb hd => simp [Label.chunk?, heard, hb, Entry.frame?, Frame.out, Out.frame?]
  | entered hb hd hq => simp [Label.chunk?, heard, hb, Entry.frame?, Frame.out, Out.frame?]
  | full hb hd hq hk =>
    simp [Label.chunk?, heard, hb, Entry.frame?, Frame.out, Out.frame?, Client.reading_requestKeyframeSkip]
  | take hq => rfl

theorem hear_of (bytes : List UInt8) (chunks : List (List UInt8)) :
    chunks.foldl hear (videoFrames bytes, Reading.of bytes) =
      (videoFrames (bytes ++ chunks.flatten), Reading.of (bytes ++ chunks.flatten)) := by
  refine Reading.foldl_chunks (fun frames is => frames ++ is.filterMap Item.frame?) ?_ [] bytes
    chunks
  intro frames is js
  rw [List.filterMap_append, List.append_assoc]

/-- The frames handled and those still in the batch are, in order, the frames
of the bytes read. -/
theorem handled_frames {ls : List (Label F)} {t : Session} (h : run (step env) (start env) ls = some t) :
    t.fates.map Fate.frame ++ t.batch.filterMap Entry.frame? = videoFrames (bytesRead ls) := by
  have hall : Meets (step env) (fun _ _ => True) (start env) ls := meets_true _ _
  have hview := run_script (fun s l s' _ hs => heard_step hs) h hall
  have hof := hear_of [] (ls.filterMap Label.chunk?)
  rw [List.nil_append] at hof
  exact congrArg Prod.fst (hview.trans hof)

/-! ## The jobs are the frames that entered -/

/-- What was put on the queue, taken or not, is the frames that entered it. -/
def QueueLogged (s : Session) : Prop :=
  (s.taken ++ s.queue).filterMap NalJob.frame? = s.fates.filterMap Fate.job?

theorem queueLogged_step {s s' : Session} {l : Label F} (hi : QueueLogged s)
    (h : step env s l = some s') : QueueLogged s' := by
  unfold QueueLogged at hi ⊢
  cases step_move env h with
  | read chunk he hb =>
    obtain ⟨hq, ht, hf⟩ := read_frame s chunk
    rw [hq, ht, hf, hi]
  | command cmd written he hb =>
    obtain ⟨_, _, hq, ht, hf⟩ := command_frame env s cmd written
    rw [hq, ht, hf, hi]
  | event jobs hb ho hj =>
    have hnone : jobs.filterMap NalJob.frame? = [] := by
      rw [List.filterMap_eq_nil_iff]
      intro job hjob
      obtain ⟨codec, csd, rfl⟩ := hj job hjob
      rfl
    simp only [← List.append_assoc]
    rw [List.filterMap_append, hi, hnone, List.append_nil]
  | entered hb hd hq =>
    simp only [← List.append_assoc]
    rw [List.filterMap_append, hi, List.filterMap_append]
    rfl
  | take hq =>
    rw [hq] at hi
    rw [← hi, List.append_assoc]
    rfl
  | _ =>
    rw [hi, List.filterMap_append]
    exact (List.append_nil _).symm

/-! ## Gaps -/

def KeyEntered (f : Fate) : Prop := f.frame.keyframe = true ∧ f.outcome = .entered

/-- A frame since the last keyframe in the queue did not enter it. -/
def Gap (fates : List Fate) : Prop := Since KeyEntered (fun f => f.outcome ≠ .entered) fates

/-- A frame since the last keyframe in the queue found it full. -/
def Behind (fates : List Fate) : Prop := Since KeyEntered (fun f => f.outcome = .full) fates

/-- No delta frame enters the queue after a gap. -/
def NoGap (fates : List Fate) : Prop :=
  Each (fun before f => f.frame.keyframe = false → f.outcome = .entered → ¬ Gap before) fates

/-- A frame is left out only if it, or an earlier one since the last keyframe
in the queue, found it full. -/
def LeftOutFull (fates : List Fate) : Prop :=
  Each (fun before f => f.outcome ≠ .entered → f.outcome = .full ∨ Behind before) fates

/-- The condition: a frame event handled while a skip is pending is a delta
frame, and the queue is still full. -/
def StillFull (s : Session) : Label F → Prop
  | .handle =>
    match s.batch with
    | .event (.frame _ keyframe _) :: _ =>
      s.client.skipUntilKey = true → keyframe = false ∧ NAL_DEPTH ≤ s.queue.length
    | _ => True
  | _ => True

instance (s : Session) (l : Label F) : Decidable (StillFull s l) := by
  unfold StillFull
  split
  · split <;> infer_instance
  · infer_instance

omit [F32 F] in
theorem stillFull_frame {s : Session} {f : Frame} {rest : List Entry}
    (h : StillFull (F := F) s .handle) (hb : s.batch = .event f.out :: rest)
    (hs : s.client.skipUntilKey = true) : f.keyframe = false ∧ NAL_DEPTH ≤ s.queue.length := by
  simp only [StillFull, hb, Frame.out] at h
  exact h hs

/-- Where a batch stands. Either no skip was requested since it was decoded:
the client's flag is the one the batch ends with, and the flag at this place of
it says whether the queue is behind. Or one was: the batch has no frame left
that the client left out, and the queue is behind. -/
def InBatch (s : Session) : Prop :=
  ∃ g h, Flows g s.batch h ∧
    ((s.client.skipUntilKey = h ∧ (Gap s.fates → g = true) ∧ (g = true → Behind s.fates)) ∨
      (s.client.skipUntilKey = true ∧ g = false ∧ Behind s.fates))

structure Tracks (s : Session) : Prop where
  noGap : NoGap s.fates
  leftOut : LeftOutFull s.fates
  inBatch : InBatch s

theorem tracks_start : Tracks (start env) := by
  refine ⟨each_nil _, each_nil _, false, false, .nil false, .inl ⟨rfl, ?_, fun h => nomatch h⟩⟩
  intro h
  exact absurd h (not_since_nil _ _)

theorem not_keyEntered_of_delta {f : Frame} {o : Outcome} (hk : f.keyframe = false) :
    ¬ KeyEntered ⟨f, o⟩ := by
  rintro ⟨h, _⟩
  rw [hk] at h
  cases h

theorem delta_of_flag {g : Bool} {f : Frame} (hg : g = true → f.keyframe = true)
    (hk : f.keyframe = false) : g = false := by
  cases g with
  | false => rfl
  | true => exact absurd (hg rfl) (by simp [hk])

theorem tracks_read {s : Session} (hi : Tracks s) (hb : s.batch = []) (chunk : List UInt8) :
    Tracks (s.read chunk) := by
  obtain ⟨hno, hleft, g, k, hflow, hstand⟩ := hi
  rw [hb] at hflow
  cases hflow
  unfold read
  split
  · exact ⟨hno, hleft, g, g, hb ▸ .nil g, hstand⟩
  · refine ⟨hno, hleft, s.client.skipUntilKey, _, Client.annotated_flows s.client chunk, .inl ⟨rfl, ?_⟩⟩
    rcases hstand with ⟨hflag, hgap, hbehind⟩ | ⟨hflag, _, hbehind⟩
    · rw [hflag]
      exact ⟨hgap, hbehind⟩
    · exact ⟨fun _ => hflag, fun _ => hbehind⟩

omit [F32 F] in
/-- A frame enters the queue. -/
theorem tracks_entered {s : Session} {f : Frame} {rest : List Entry} (hi : Tracks s)
    (hok : StillFull (F := F) s .handle) (hb : s.batch = .event f.out :: rest)
    (hq : s.queue.length < NAL_DEPTH) {r : Recording} {q : List NalJob} :
    Tracks { s with batch := rest, recording := r, queue := q, fates := s.fates ++ [⟨f, .entered⟩] } := by
  obtain ⟨hno, hleft, g, k, hflow, hstand⟩ := hi
  rw [hb] at hflow
  obtain ⟨hg, hrest⟩ := hflow.of_frame
  -- a pending skip would have found the queue full
  have hfresh : s.client.skipUntilKey = k ∧ (Gap s.fates → g = true) ∧ (g = true → Behind s.fates) := by
    rcases hstand with hstand | ⟨hflag, _, _⟩
    · exact hstand
    · obtain ⟨_, hfull⟩ := stillFull_frame hok hb hflag
      omega
  obtain ⟨hflag, hgap, _⟩ := hfresh
  have hnone : ¬ Gap (s.fates ++ [⟨f, .entered⟩]) := by
    unfold Gap
    rw [since_snoc]
    rintro (hx | ⟨hx, hold⟩)
    · exact hx rfl
    · cases hk : f.keyframe with
      | true => exact hx ⟨hk, rfl⟩
      | false =>
        have := hgap hold
        rw [delta_of_flag hg hk] at this
        cases this
  refine ⟨each_snoc.mpr ⟨hno, ?_⟩, each_snoc.mpr ⟨hleft, fun h => absurd rfl h⟩, _, k, hrest,
    .inl ⟨hflag, fun h => absurd h hnone, ?_⟩⟩
  · intro hk _ hold
    have := hgap hold
    rw [delta_of_flag hg hk] at this
    cases this
  · intro h
    rw [Bool.and_eq_true, Bool.not_eq_true'] at h
    exact absurd h.1 (by simp [delta_of_flag hg h.2])

/-- A delta frame finds the queue full. -/
theorem tracks_full {s : Session} {f : Frame} {rest : List Entry} (hi : Tracks s)
    (hb : s.batch = .event f.out :: rest) (hk : f.keyframe = false) {r : Recording} :
    Tracks
      { s with
        client := s.client.requestKeyframeSkip, batch := rest, recording := r,
        fates := s.fates ++ [⟨f, .full⟩] } := by
  obtain ⟨hno, hleft, g, k, hflow, _⟩ := hi
  rw [hb] at hflow
  obtain ⟨hg, hrest⟩ := hflow.of_frame
  rw [delta_of_flag hg hk] at hrest
  exact ⟨each_snoc.mpr ⟨hno, fun _ h => nomatch h⟩, each_snoc.mpr ⟨hleft, fun _ => .inl rfl⟩,
    false, k, hrest, .inr ⟨rfl, rfl, since_snoc.mpr (.inl rfl)⟩⟩

theorem tracks_skipped {s : Session} {f : Frame} {rest : List Entry} (hi : Tracks s)
    (hb : s.batch = .skipped f :: rest) :
    Tracks { s with batch := rest, fates := s.fates ++ [⟨f, .skipped⟩] } := by
  obtain ⟨hno, hleft, g, k, hflow, hstand⟩ := hi
  rw [hb] at hflow
  obtain ⟨rfl, hk, hrest⟩ := hflow.of_skipped
  rcases hstand with ⟨hflag, _, hbehind⟩ | ⟨_, hg, _⟩
  · have hkept : Behind (s.fates ++ [⟨f, .skipped⟩]) :=
      since_snoc.mpr (.inr ⟨not_keyEntered_of_delta hk, hbehind rfl⟩)
    exact ⟨each_snoc.mpr ⟨hno, fun _ h => nomatch h⟩, each_snoc.mpr ⟨hleft, fun _ => .inr (hbehind rfl)⟩,
      true, k, hrest, .inl ⟨hflag, fun _ => rfl, fun _ => hkept⟩⟩
  · cases hg

theorem tracks_step (hd : env.dumpNals = false) {s s' : Session} {l : Label F} (hi : Tracks s)
    (hok : StillFull s l) (h : step env s l = some s') : Tracks s' := by
  cases step_move env h with
  | read chunk he hb => exact tracks_read hi hb chunk
  | command cmd written he hb =>
    obtain ⟨hno, hleft, g, k, hflow, hstand⟩ := hi
    obtain ⟨hc, hbatch, _, _, hf⟩ := command_frame env s cmd written
    refine ⟨hf ▸ hno, hf ▸ hleft, g, k, hbatch ▸ hflow, ?_⟩
    rwa [hc, hf]
  | skipped hb => exact tracks_skipped hi hb
  | event jobs hb ho hj =>
    obtain ⟨hno, hleft, g, k, hflow, hstand⟩ := hi
    rw [hb] at hflow
    exact ⟨hno, hleft, g, k, hflow.of_event ho, hstand⟩
  | dumped hb hdump => rw [hd] at hdump; cases hdump
  | entered hb _ hq => exact tracks_entered hi hok hb hq
  | full hb _ hq hk => exact tracks_full hi hb hk
  | take hq =>
    obtain ⟨hno, hleft, g, k, hflow, hstand⟩ := hi
    exact ⟨hno, hleft, g, k, hflow, hstand⟩

/-- **The queue to the decoder.** In a run in which every frame event handled
while a skip is pending is a delta frame that finds the queue full: of the
frames on the wire, those that entered the queue are the jobs put on it, no
delta frame entered it after a gap, and none was left out but for a full queue
at it or since the last keyframe in the queue. -/
theorem queue_no_gap {ls : List (Label F)} {t : Session} (hd : env.dumpNals = false)
    (h : run (step env) (start env) ls = some t) (hok : Meets (step env) StillFull (start env) ls) :
    t.fates.map Fate.frame ++ t.batch.filterMap Entry.frame? = videoFrames (bytesRead ls) ∧
      (t.taken ++ t.queue).filterMap NalJob.frame? = t.fates.filterMap Fate.job? ∧
      NoGap t.fates ∧ LeftOutFull t.fates := by
  have htracks := run_invariant (fun s l s' hi hok hs => tracks_step hd hi hok hs) h hok tracks_start
  exact ⟨handled_frames h, run_preserves (fun s l s' hi hs => queueLogged_step hi hs) h rfl,
    htracks.noGap, htracks.leftOut⟩

/-- A handshake, a keyframe and eight delta frames. -/
def burst : List UInt8 :=
  Handshake.bytes ⟨1, .h264, 2, 3, [], "", 0⟩ ++ Client.encode (.videoFrame 0 true []) ++
    (List.replicate 8 (Client.encode (.videoFrame 0 false []))).flatten

/-- The keyframe and six delta frames fill the queue, the others find it full;
the next batch is skipped up to its keyframe. -/
theorem queue_no_gap_burst :
    ∃ t, run (step (F := Float32) ⟨true, false, fun _ => true⟩) (start ⟨true, false, fun _ => true⟩)
      (.read burst :: List.replicate 11 .handle ++ [.take,
        .read (Client.encode (.videoFrame 0 false []) ++ Client.encode (.videoFrame 0 true [])),
        .handle, .handle]) = some t ∧ NoGap t.fates ∧ LeftOutFull t.fates := by
  have hsome : (run (step (F := Float32) ⟨true, false, fun _ => true⟩)
      (start ⟨true, false, fun _ => true⟩)
      (.read burst :: List.replicate 11 .handle ++ [.take,
        .read (Client.encode (.videoFrame 0 false []) ++ Client.encode (.videoFrame 0 true [])),
        .handle, .handle])).isSome = true := by decide +kernel
  obtain ⟨t, ht⟩ := Option.isSome_iff_exists.mp hsome
  exact ⟨t, ht, (queue_no_gap rfl ht (by decide +kernel)).2.2⟩

/-- The seventh delta frame finds the queue full, the decode thread takes a
job, and the eighth enters. -/
theorem gap_enters :
    ¬ ∀ (env : Env) (ls : List (Label Float32)) (t : Session), env.dumpNals = false →
      run (step env) (start env) ls = some t → NoGap t.fates ∧ LeftOutFull t.fates := by
  intro h
  have hrun : (run (step (F := Float32) ⟨true, false, fun _ => true⟩)
      (start ⟨true, false, fun _ => true⟩)
      (.read burst :: List.replicate 10 .handle ++ [.take, .handle])).map Session.fates =
      some (⟨⟨0, true, []⟩, .entered⟩ :: List.replicate 6 ⟨⟨0, false, []⟩, .entered⟩ ++
        [⟨⟨0, false, []⟩, .full⟩, ⟨⟨0, false, []⟩, .entered⟩]) := by decide +kernel
  obtain ⟨t, ht, hfates⟩ := Option.map_eq_some_iff.mp hrun
  have hno := (h _ _ t rfl ht).1
  rw [hfates] at hno
  refine hno (⟨⟨0, true, []⟩, .entered⟩ :: List.replicate 6 ⟨⟨0, false, []⟩, .entered⟩ ++
    [⟨⟨0, false, []⟩, .full⟩]) ⟨⟨0, false, []⟩, .entered⟩ [] rfl rfl rfl ?_
  exact ⟨_, ⟨⟨0, false, []⟩, .full⟩, [], rfl, by decide, fun _ hy => nomatch hy⟩

end Session

end DroidMirror.Native
