import DroidMirror.Native.Backpressure

/-! # The recordings

A frame that a skip left out never reaches the record file. So two runs over
one script write the same files whenever neither reads a chunk whose first
frame is a delta frame while a skip is pending; and otherwise the record file
of one of them is not the stream (`recording_iff`). -/
namespace DroidMirror.Native
open DroidMirror.Proto DroidMirror.Lib.Incremental DroidMirror.Lib.Run
open DroidMirror.Client (Unskipped Reading plainEvents errorEvent)

namespace Recording
variable (env : Env)

/-- The recorders begun so far, with what was pushed into each. -/
def recorders (r : Recording) : List Mp4Rec := r.finished ++ r.mp4.toList

/-- What a command does to the files. -/
def command {F : Type} (r : Recording) : HostCmd F → Recording
  | .quit => r.finishMp4
  | .recordMp4 on => r.recordMp4 env on
  | _ => r

theorem finishMp4_record (r : Recording) : r.finishMp4.record = r.record := by
  unfold finishMp4
  split <;> rfl

theorem openMp4_record (r : Recording) (cfg : VideoCfg) : (r.openMp4 env cfg).record = r.record := by
  unfold openMp4
  split
  · rfl
  · split <;> rfl

theorem command_record {F : Type} (r : Recording) (cmd : HostCmd F) :
    (r.command env cmd).record = r.record := by
  cases cmd with
  | quit => exact finishMp4_record r
  | recordMp4 on =>
    simp only [command, recordMp4]
    split
    · split
      · exact openMp4_record env _ _
      · rfl
    · exact finishMp4_record _
  | _ => rfl

theorem event_record (r : Recording) {o : Out} (ho : o.frame? = none) :
    (r.event env o).record = r.record := by
  cases o with
  | deviceName name => rfl
  | error text => rfl
  | frame ptsUs keyframe nal => cases ho
  | configure codec csd width height =>
    simp only [event]
    generalize hr : (if (r.videoCfg.any fun c =>
      decide (c.width ≠ width ∨ c.height ≠ height ∨ c.codec ≠ codec)) = true then r.finishMp4
      else r) = r'
    have hkept : r'.record = r.record := by
      rw [← hr]
      split
      · exact finishMp4_record r
      · rfl
    split
    · exact (openMp4_record env _ _).trans hkept
    · exact hkept

theorem foldl_event_error (r : Recording) (err : Option ProtoError) :
    (errorEvent err).foldl (event env) r = r := by
  cases err <;> rfl

end Recording

/-! ## The record file and the frames handled -/

/-- The stream as a record file: every frame, with its start code. -/
def recordOf (frames : List Frame) : List UInt8 := frames.flatMap fun f => marked f.nal

theorem length_marked_pos (nal : List UInt8) : 0 < (marked nal).length := by
  cases nal with
  | nil => decide
  | cons b rest =>
    unfold marked
    split <;> simp

theorem length_recordOf_filter (fates : List Fate) (p : Fate → Bool) :
    (recordOf ((fates.filter p).map Fate.frame)).length ≤ (recordOf (fates.map Fate.frame)).length := by
  induction fates with
  | nil => exact Nat.le_refl _
  | cons f rest ih =>
    cases hp : p f with
    | true =>
      rw [List.filter_cons_of_pos hp]
      simp only [recordOf, List.map_cons, List.flatMap_cons, List.length_append] at ih ⊢
      omega
    | false =>
      rw [List.filter_cons_of_neg (by simp [hp])]
      simp only [recordOf, List.map_cons, List.flatMap_cons, List.length_append] at ih ⊢
      omega

/-- Leaving any frame out of the file changes it. -/
theorem recordOf_filter_eq_iff (fates : List Fate) (p : Fate → Bool) :
    recordOf ((fates.filter p).map Fate.frame) = recordOf (fates.map Fate.frame) ↔
      ∀ f ∈ fates, p f = true := by
  induction fates with
  | nil => exact iff_of_true rfl (fun f hf => nomatch hf)
  | cons f rest ih =>
    rw [List.forall_mem_cons, ← ih]
    cases hp : p f with
    | true =>
      rw [List.filter_cons_of_pos hp]
      simp only [recordOf, List.map_cons, List.flatMap_cons, List.append_cancel_left_eq, true_and]
    | false =>
      rw [List.filter_cons_of_neg (by simp [hp])]
      refine iff_of_false (fun heq => ?_) (fun h => nomatch h.1)
      have hlen := congrArg List.length heq
      have hle := length_recordOf_filter rest p
      have hpos := length_marked_pos f.frame.nal
      simp only [recordOf, List.map_cons, List.flatMap_cons, List.length_append] at hlen hle
      omega

namespace Session
variable {F : Type} [F32 F] {env : Env}

theorem command_recording (s : Session) (cmd : HostCmd F) (written : Bool) :
    (s.command env cmd written).recording = s.recording.command env cmd := by
  unfold command Recording.command
  split
  · rfl
  · rfl
  · simp only
    split
    · rfl
    · split <;> rfl

/-- The file has the frames handled, but for those a skip left out. -/
def RecordLogged (s : Session) : Prop :=
  s.recording.record =
    some (recordOf ((s.fates.filter fun f => decide (f.outcome ≠ .skipped)).map Fate.frame))

theorem recordLogged_frame (env : Env) {s s' : Session} (hi : RecordLogged s) {f : Frame} (o : Outcome)
    (ho : o ≠ .skipped) (hr : s'.recording = s.recording.event env f.out)
    (hf : s'.fates = s.fates ++ [⟨f, o⟩]) : RecordLogged s' := by
  unfold RecordLogged at hi ⊢
  rw [hr, hf, List.filter_append, List.map_append]
  show Option.map _ s.recording.record = _
  rw [hi]
  simp [recordOf, ho]

theorem recordLogged_step {s s' : Session} {l : Label F} (hi : RecordLogged s)
    (h : step env s l = some s') : RecordLogged s' := by
  cases step_move env h with
  | read chunk he hb =>
    unfold read
    split
    · exact (Recording.finishMp4_record _).trans hi
    · exact hi
  | command cmd written he hb =>
    obtain ⟨_, _, _, _, hf⟩ := command_frame env s cmd written
    unfold RecordLogged
    rw [hf, command_recording, Recording.command_record]
    exact hi
  | skipped hb =>
    unfold RecordLogged at hi ⊢
    rw [hi, List.filter_append]
    simp
  | event jobs hb ho hj => exact (Recording.event_record env _ ho).trans hi
  | dumped hb hd => exact recordLogged_frame env hi .dumped (by decide) rfl rfl
  | entered hb hd hq => exact recordLogged_frame env hi .entered (by decide) rfl rfl
  | full hb hd hq hk => exact recordLogged_frame env hi .full (by decide) rfl rfl
  | take hq => exact hi

/-! ## When nothing is left out -/

/-- The condition: a chunk read while a skip is pending completes no frame, or
a keyframe first. -/
def NoneSkipped (s : Session) : Label F → Prop
  | .read chunk => chunk.isEmpty = false → s.client.skipUntilKey = true →
    ∀ f ∈ ((s.client.reading.items chunk).filterMap Item.frame?).head?, f.keyframe = true
  | _ => True

instance (s : Session) : (l : Label F) → Decidable (NoneSkipped s l)
  | .read chunk =>
    inferInstanceAs (Decidable (chunk.isEmpty = false → s.client.skipUntilKey = true →
      ∀ f ∈ ((s.client.reading.items chunk).filterMap Item.frame?).head?, f.keyframe = true))
  | .command _ _ | .handle | .take => inferInstanceAs (Decidable True)

/-- No frame was left out by a skip, and none will be of this batch. -/
def Whole (s : Session) : Prop := (∀ f ∈ s.fates, f.outcome ≠ .skipped) ∧ Unskipped s.batch

theorem unskipped_annotated_iff (c : Client) (chunk : List UInt8) :
    Unskipped (c.annotated chunk) ↔ (c.skipUntilKey = true →
      ∀ f ∈ ((c.reading.items chunk).filterMap Item.frame?).head?, f.keyframe = true) := by
  rw [(Client.annotated_flows c chunk).unskipped_iff, Client.annotated_frames]

theorem whole_frame {s s' : Session} {e : Out} {rest : List Entry} {f : Frame} (o : Outcome)
    (hb : s.batch = .event e :: rest) (hb' : s'.batch = rest) (ho : o ≠ .skipped)
    (hf : s'.fates = s.fates ++ [⟨f, o⟩]) : Whole s' ↔ Whole s := by
  unfold Whole Unskipped
  rw [hb, hb', hf]
  simp [ho, or_imp, forall_and]

theorem whole_step {s s' : Session} {l : Label F} (h : step env s l = some s') :
    Whole s' ↔ Whole s ∧ NoneSkipped s l := by
  cases step_move env h with
  | read chunk he hb =>
    obtain ⟨_, _, hf⟩ := read_frame s chunk
    have hempty : Unskipped s.batch := by rw [hb]; exact fun f hf => nomatch hf
    simp only [Whole, NoneSkipped, hf, and_iff_left hempty]
    refine and_congr_right' ?_
    unfold read
    cases hc : chunk.isEmpty with
    | true => exact iff_of_true hempty (fun h => nomatch h)
    | false => simpa using unskipped_annotated_iff s.client chunk
  | command cmd written he hb =>
    obtain ⟨_, hbatch, _, _, hf⟩ := command_frame env s cmd written
    unfold Whole
    rw [hbatch, hf]
    exact (and_iff_left trivial).symm
  | @skipped f rest hb =>
    refine iff_of_false (fun hw => ?_) (fun hw => ?_)
    · exact hw.1 ⟨f, .skipped⟩ (by simp) rfl
    · exact hw.1.2 f (by rw [hb]; exact List.mem_cons_self)
  | event jobs hb ho hj =>
    refine Iff.trans ?_ (and_iff_left trivial).symm
    unfold Whole Unskipped
    simp [hb]
  | dumped hb hd => exact (whole_frame .dumped hb rfl (by decide) rfl).trans (and_iff_left trivial).symm
  | entered hb hd hq =>
    exact (whole_frame .entered hb rfl (by decide) rfl).trans (and_iff_left trivial).symm
  | full hb hd hq hk =>
    exact (whole_frame .full hb rfl (by decide) rfl).trans (and_iff_left trivial).symm
  | take hq => exact (and_iff_left trivial).symm

/-! ## The files follow from the script -/

end Session

/-- The steps whose input comes from outside: reads and commands. -/
def Label.input? {F : Type} : Label F → Option (Label F)
  | .handle | .take => none
  | l => some l

def script {F : Type} (ls : List (Label F)) : List (Label F) := ls.filterMap Label.input?

namespace Session
variable {F : Type} [F32 F] {env : Env}

omit [F32 F] in
theorem bytesRead_script (ls : List (Label F)) : bytesRead (script ls) = bytesRead ls := by
  unfold bytesRead script
  rw [List.filterMap_filterMap]
  congr 1
  refine List.filterMap_congr fun l _ => ?_
  cases l <;> rfl

/-- The files as they will be once the batch is handled. -/
def files (env : Env) (s : Session) : Reading × Recording :=
  (s.client.reading, (s.batch.filterMap Entry.out?).foldl (Recording.event env) s.recording)

/-- What a step of the script does to them when no frame is left out. -/
def write (env : Env) (v : Reading × Recording) : Label F → Reading × Recording
  | .read chunk =>
    if chunk.isEmpty then (v.1, v.2.finishMp4)
    else (v.1.after chunk, ((v.1.items chunk).flatMap plainEvents).foldl (Recording.event env) v.2)
  | .command cmd _ => (v.1, v.2.command env cmd)
  | _ => v

omit [F32 F] in
theorem files_read {s : Session} {chunk : List UInt8} (hb : s.batch = [])
    (hn : NoneSkipped (F := F) s (.read chunk)) :
    files env (s.read chunk) = write (F := F) env (files env s) (.read chunk) := by
  simp only [write, files, hb, read]
  split
  · rfl
  · rename_i hc
    obtain ⟨err, hevents⟩ := Client.annotated_plain
      ((unskipped_annotated_iff s.client chunk).mpr (hn (by simpa using hc)))
    simp only [hevents, List.foldl_append, Recording.foldl_event_error, Client.reading_onBytes]
    rfl

theorem files_step {s s' : Session} {l : Label F} (hn : NoneSkipped s l) (h : step env s l = some s') :
    files env s' = l.input?.elim (files env s) (write env (files env s)) := by
  cases step_move env h with
  | read chunk he hb => exact files_read hb hn
  | command cmd written he hb =>
    obtain ⟨hc, hbatch, _, _, _⟩ := command_frame env s cmd written
    simp only [files, Label.input?, Option.elim, write, hc, hbatch, command_recording, hb]
    rfl
  | skipped hb =>
    simp only [files, Label.input?, Option.elim, hb]
    rw [List.filterMap_cons_none rfl]
  | event jobs hb ho hj => simp [files, Label.input?, hb, Entry.out?]
  | dumped hb hd => simp [files, Label.input?, hb, Entry.out?]
  | entered hb hd hq => simp [files, Label.input?, hb, Entry.out?]
  | full hb hd hq hk =>
    simp [files, Label.input?, hb, Entry.out?, Client.reading_requestKeyframeSkip]
  | take hq => rfl

/-- A run that leaves nothing out writes what its script says. -/
theorem recording_script {ls : List (Label F)} {t : Session} (h : run (step env) (start env) ls = some t)
    (hn : Meets (step env) NoneSkipped (start env) ls) (hb : t.batch = []) :
    t.recording = ((script ls).foldl (write env) (files env (start env))).2 := by
  have hfiles := congrArg Prod.snd (run_script (fun s l s' hn hs => files_step hn hs) h hn)
  simp only [files, hb] at hfiles
  exact hfiles

/-- At the end of a run the file is the stream, exactly if nothing was left out. -/
theorem record_iff {ls : List (Label F)} {t : Session} (hr : env.record = true)
    (h : run (step env) (start env) ls = some t) (hb : t.batch = []) :
    t.recording.record = some (recordOf (videoFrames (bytesRead ls))) ↔
      Meets (step env) NoneSkipped (start env) ls := by
  have hstart : RecordLogged (start env) := by
    show (if env.record || env.dumpNals then some [] else none) = _
    rw [hr]
    rfl
  have hlogged := run_preserves (fun s l s' hi hs => recordLogged_step hi hs) h hstart
  have hframes := handled_frames h
  rw [hb, List.filterMap_nil, List.append_nil] at hframes
  have hwhole := run_iff_meets (fun s l s' hs => whole_step hs) h
  have hfresh : Whole (start env) := ⟨(fun f hf => nomatch hf), fun f hf => nomatch hf⟩
  have hlast : Unskipped t.batch := by rw [hb]; exact fun f hf => nomatch hf
  unfold RecordLogged at hlogged
  rw [hlogged, ← hframes, Option.some_inj, recordOf_filter_eq_iff,
    ← and_iff_right (b := Meets _ _ _ _) hfresh, ← hwhole]
  simp [Whole, hlast]

/-- **The recordings.** Two complete runs over one script, however the decode
thread takes its jobs: both record files are the stream, and the MP4 recorders
get the same frames, exactly if neither run reads a chunk whose first frame is
a delta frame while a skip is pending. -/
theorem recording_iff {ls₁ ls₂ : List (Label F)} {t₁ t₂ : Session} (hr : env.record = true)
    (h₁ : run (step env) (start env) ls₁ = some t₁) (h₂ : run (step env) (start env) ls₂ = some t₂)
    (hb₁ : t₁.batch = []) (hb₂ : t₂.batch = []) (hs : script ls₁ = script ls₂) :
    (t₁.recording.record = t₂.recording.record ∧
      t₁.recording.record = some (recordOf (videoFrames (bytesRead ls₁))) ∧
      t₁.recording.recorders = t₂.recording.recorders) ↔
    Meets (step env) NoneSkipped (start env) ls₁ ∧ Meets (step env) NoneSkipped (start env) ls₂ := by
  have hbytes : bytesRead ls₂ = bytesRead ls₁ := by
    rw [← bytesRead_script ls₁, ← bytesRead_script ls₂, hs]
  rw [← record_iff hr h₁ hb₁, ← record_iff hr h₂ hb₂, hbytes]
  constructor
  · rintro ⟨hsame, hall, _⟩
    exact ⟨hall, hsame ▸ hall⟩
  · rintro ⟨hall₁, hall₂⟩
    have hn₁ := (record_iff hr h₁ hb₁).mp hall₁
    have hn₂ := (record_iff hr h₂ hb₂).mp (hbytes ▸ hall₂)
    have hrec : t₁.recording = t₂.recording := by
      rw [recording_script h₁ hn₁ hb₁, recording_script h₂ hn₂ hb₂, hs]
    exact ⟨congrArg Recording.record hrec, hall₁, congrArg Recording.recorders hrec⟩

/-- The decode thread takes its jobs early in one run and late in the other;
the queue is never full. -/
theorem recording_iff_drained :
    ∃ t₁ t₂, run (step (F := Float32) ⟨true, false, fun _ => true⟩) (start ⟨true, false, fun _ => true⟩)
        (.read burst :: List.replicate 9 .handle ++ [.take, .take, .handle, .handle]) = some t₁ ∧
      run (step (F := Float32) ⟨true, false, fun _ => true⟩) (start ⟨true, false, fun _ => true⟩)
        (.read burst :: List.replicate 4 .handle ++ [.take, .take] ++ List.replicate 7 .handle) = some t₂ ∧
      t₁.recording.record = t₂.recording.record := by
  have hsome₁ : (run (step (F := Float32) ⟨true, false, fun _ => true⟩)
      (start ⟨true, false, fun _ => true⟩) (.read burst :: List.replicate 9 .handle ++
        [.take, .take, .handle, .handle])).map Session.batch = some [] := by decide +kernel
  have hsome₂ : (run (step (F := Float32) ⟨true, false, fun _ => true⟩)
      (start ⟨true, false, fun _ => true⟩) (.read burst :: List.replicate 4 .handle ++
        [.take, .take] ++ List.replicate 7 .handle)).map Session.batch = some [] := by decide +kernel
  obtain ⟨t₁, h₁, hb₁⟩ := Option.map_eq_some_iff.mp hsome₁
  obtain ⟨t₂, h₂, hb₂⟩ := Option.map_eq_some_iff.mp hsome₂
  exact ⟨t₁, t₂, h₁, h₂,
    ((recording_iff rfl h₁ h₂ hb₁ hb₂ rfl).mpr ⟨by decide +kernel, by decide +kernel⟩).1⟩

/-- With a slow decode thread the delta frame of the second chunk is left out
of the file, with a fast one it is in it. -/
theorem record_depends :
    ¬ ∀ (env : Env) (ls₁ ls₂ : List (Label Float32)) (t₁ t₂ : Session), env.record = true →
      run (step env) (start env) ls₁ = some t₁ → run (step env) (start env) ls₂ = some t₂ →
      t₁.batch = [] → t₂.batch = [] → script ls₁ = script ls₂ →
      t₁.recording.record = t₂.recording.record := by
  intro h
  have hslow : (run (step (F := Float32) ⟨true, false, fun _ => true⟩)
      (start ⟨true, false, fun _ => true⟩) (.read burst :: List.replicate 11 .handle ++
        [.read (Client.encode (.videoFrame 0 false [])), .handle])).map
        (fun t => (t.batch, t.recording.record)) =
      some ([], some (List.replicate 9 [0, 0, 0, 1]).flatten) := by decide +kernel
  have hfast : (run (step (F := Float32) ⟨true, false, fun _ => true⟩)
      (start ⟨true, false, fun _ => true⟩) (.read burst :: List.replicate 9 .handle ++
        [.take, .take, .handle, .handle, .read (Client.encode (.videoFrame 0 false [])), .take,
          .handle])).map (fun t => (t.batch, t.recording.record)) =
      some ([], some (List.replicate 10 [0, 0, 0, 1]).flatten) := by decide +kernel
  obtain ⟨t₁, h₁, heq₁⟩ := Option.map_eq_some_iff.mp hslow
  obtain ⟨t₂, h₂, heq₂⟩ := Option.map_eq_some_iff.mp hfast
  obtain ⟨hb₁, hr₁⟩ := Prod.mk.inj heq₁
  obtain ⟨hb₂, hr₂⟩ := Prod.mk.inj heq₂
  have hsame := h _ _ _ t₁ t₂ rfl h₁ h₂ hb₁ hb₂ rfl
  rw [hr₁, hr₂] at hsame
  revert hsame
  decide

end Session

end DroidMirror.Native
