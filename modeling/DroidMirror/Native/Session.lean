import DroidMirror.Client.Batch
import DroidMirror.Client.Input
import DroidMirror.Lib.Run
import DroidMirror.Native.Capture

/-! # The session

`session`, `enqueue` and the queue end of `decode_thread` in
`crates/native/src/main.rs`. A step is one turn of one of the two: the session
reads a chunk or a command, or handles one event of the batch its last read
gave; the decode thread takes a job. The thread is there as long as the
session is: it leaves only when the window is gone. What only the window sees
(sizes and status texts) is left out. -/
namespace DroidMirror.Native
open DroidMirror.Proto DroidMirror.Lib.Incremental DroidMirror.Lib.Run

inductive NalJob where
  | configure (codec : Codec) (csd : List UInt8)
  | frame (nal : List UInt8) (keyframe : Bool)
  deriving DecidableEq

/-- `sync_channel(8)`. -/
def NAL_DEPTH : Nat := 8

inductive Offer where
  | queued (queue : List NalJob)
  /-- `send` waits for room. -/
  | waits
  | full

/-- Queue a NAL for the decoder. Codec config and IDRs wait instead of being
dropped: OpenH264 cannot resync without them. -/
def enqueue (queue : List NalJob) (job : NalJob) (important : Bool) : Offer :=
  if queue.length < NAL_DEPTH then .queued (queue ++ [job])
  else if important then .waits
  else .full

/-! ## Recording -/

structure VideoCfg where
  codec : Codec
  csd : List UInt8
  width : UInt16
  height : UInt16
  deriving DecidableEq

/-- An MP4 recorder: what it was started with and what was pushed into it. -/
structure Mp4Rec where
  cfg : VideoCfg
  pushed : List Frame
  deriving DecidableEq

/-- The arguments, and the file system's answers. -/
structure Env where
  record : Bool
  dumpNals : Bool
  /-- Whether the file of the nth recording can be created and begun. -/
  canStart : Nat → Bool

structure Recording where
  /-- The bytes of the `--record` file. -/
  record : Option (List UInt8)
  videoCfg : Option VideoCfg
  mp4 : Option Mp4Rec
  mp4On : Bool
  /-- How many recordings were begun. -/
  begun : Nat
  finished : List Mp4Rec
  deriving DecidableEq

/-- The unit as it is written: with a start code in front if it has none. -/
def marked (nal : List UInt8) : List UInt8 :=
  if !startsWith nal [0, 0, 0, 1] && !startsWith nal [0, 0, 1] then [0, 0, 0, 1] ++ nal else nal

namespace Recording
variable (env : Env)

def start : Recording :=
  { record := if env.record || env.dumpNals then some [] else none
    videoCfg := none, mp4 := none, mp4On := false, begun := 0, finished := [] }

def finishMp4 (r : Recording) : Recording :=
  match r.mp4 with
  | none => r
  | some m => { r with mp4 := none, finished := r.finished ++ [m] }

/-- `open_mp4`, which gives up on anything but H.264 with both parameter sets
and a size; and `mp4_on` after it. -/
def openMp4 (r : Recording) (cfg : VideoCfg) : Recording :=
  if cfg.codec ≠ .h264 ∨ spsPps cfg.csd = none ∨ cfg.width = 0 ∨ cfg.height = 0 then
    { r with mp4On := false }
  else if env.canStart r.begun then { r with mp4 := some ⟨cfg, []⟩, begun := r.begun + 1 }
  else { r with mp4On := false, begun := r.begun + 1 }

/-- `HostCmd::RecordMp4`. -/
def recordMp4 (r : Recording) (on : Bool) : Recording :=
  let r := { r with mp4On := on }
  if on then
    match r.mp4, r.videoCfg with
    | none, some cfg => openMp4 env r cfg
    | _, _ => r
  else finishMp4 r

/-- What an event does to the files. -/
def event (r : Recording) : Out → Recording
  | .deviceName _ | .error _ => r
  | .configure codec csd width height =>
    let cfg : VideoCfg := ⟨codec, csd, width, height⟩
    let changed := r.videoCfg.any fun c =>
      decide (c.width ≠ width ∨ c.height ≠ height ∨ c.codec ≠ codec)
    let r := if changed then finishMp4 r else r
    let r := { r with videoCfg := some cfg }
    if r.mp4On && r.mp4.isNone then openMp4 env r cfg else r
  | .frame ptsUs keyframe nal =>
    { r with
      record := r.record.map (· ++ marked nal)
      mp4 := r.mp4.map fun m => { m with pushed := m.pushed ++ [⟨ptsUs, keyframe, nal⟩] } }

end Recording

/-! ## Commands -/

inductive HostCmd (F : Type) where
  | touch (action : TouchAction) (x y viewW viewH : F)
  | key (action : KeyAction) (keycode metaState : UInt32)
  | nav (keycode : UInt32) (action : KeyAction)
  | text (s : String)
  | scroll (x y viewW viewH h v : F)
  | pause (on : Bool)
  /-- Start or stop muxing the mirror's H.264 into an MP4. -/
  | recordMp4 (on : Bool)
  | quit

def encodeCmd {F : Type} [F32 F] (c : Client) : HostCmd F → List UInt8
  | .touch action x y viewW viewH => c.touch action 0 x y viewW viewH (1.0 : F)
  | .key action keycode metaState => c.key action keycode metaState
  | .nav keycode action => c.nav keycode action
  | .text s => c.text s
  | .scroll x y viewW viewH h v => c.scroll x y viewW viewH h v
  | .pause on => c.pause on
  | .recordMp4 _ | .quit => []

/-! ## Steps -/

inductive Outcome where
  | entered
  /-- The queue was full. -/
  | full
  /-- The client left it out. -/
  | skipped
  /-- Written by `--dump-nals`, never queued. -/
  | dumped
  deriving DecidableEq

/-- What became of a frame of the wire. -/
structure Fate where
  frame : Frame
  outcome : Outcome
  deriving DecidableEq

structure Session where
  client : Client
  /-- What is left of the batch being handled. -/
  batch : List Entry
  queue : List NalJob
  recording : Recording
  /-- What was written to the mirror stream. -/
  sent : List (List UInt8)
  ended : Bool
  /-- What the decode thread has taken. -/
  taken : List NalJob
  /-- The frames handled so far, in wire order. -/
  fates : List Fate
  deriving DecidableEq

inductive Label (F : Type) where
  | read (chunk : List UInt8)
  /-- `written`: whether a write to the stream succeeds. -/
  | command (cmd : HostCmd F) (written : Bool)
  | handle
  | take

namespace Session
variable {F : Type} [F32 F] (env : Env)

def start : Session :=
  { client := .new, batch := [], queue := [], recording := .start env, sent := [], ended := false,
    taken := [], fates := [] }

/-- The read arm: an empty chunk is the end of the stream. -/
def read (s : Session) (chunk : List UInt8) : Session :=
  if chunk.isEmpty then { s with ended := true, recording := s.recording.finishMp4 }
  else { s with client := (s.client.onBytes chunk).1, batch := s.client.annotated chunk }

/-- The command arm. -/
def command (s : Session) (cmd : HostCmd F) (written : Bool) : Session :=
  match cmd with
  | .quit => { s with ended := true, recording := s.recording.finishMp4 }
  | .recordMp4 on => { s with recording := s.recording.recordMp4 env on }
  | other =>
    let bytes := encodeCmd s.client other
    if bytes.isEmpty then s
    else if written then { s with sent := s.sent ++ [bytes] }
    else { s with ended := true }

/-- A frame event, its files already written. -/
def offerFrame (s : Session) (f : Frame) : Option Session :=
  if env.dumpNals then some { s with fates := s.fates ++ [⟨f, .dumped⟩] }
  else
    match enqueue s.queue (.frame f.nal f.keyframe) f.keyframe with
    | .queued queue => some { s with queue := queue, fates := s.fates ++ [⟨f, .entered⟩] }
    | .waits => none
    | .full => some
      { s with client := s.client.requestKeyframeSkip, fates := s.fates ++ [⟨f, .full⟩] }

/-- One event of the batch. -/
def handle (s : Session) (o : Out) : Option Session :=
  let s := { s with recording := s.recording.event env o }
  match o with
  | .deviceName _ | .error _ => some s
  | .configure codec csd _ _ =>
    match enqueue s.queue (.configure codec csd) true with
    | .queued queue => some { s with queue := queue }
    | .waits => none
    | .full => some s
  | .frame ptsUs keyframe nal => offerFrame env s ⟨ptsUs, keyframe, nal⟩

def step (s : Session) : Label F → Option Session
  | .read chunk => if s.ended ∨ s.batch ≠ [] then none else some (s.read chunk)
  | .command cmd written => if s.ended ∨ s.batch ≠ [] then none else some (s.command env cmd written)
  | .handle =>
    match s.batch with
    | [] => none
    | .skipped f :: rest => some { s with batch := rest, fates := s.fates ++ [⟨f, .skipped⟩] }
    | .event o :: rest => { s with batch := rest }.handle env o
  | .take =>
    match env.dumpNals, s.queue with
    | false, job :: queue => some { s with queue := queue, taken := s.taken ++ [job] }
    | _, _ => none

/-! ## What a step can do -/

/-- What a command leaves alone. -/
theorem command_frame (s : Session) (cmd : HostCmd F) (written : Bool) :
    (s.command env cmd written).client = s.client ∧ (s.command env cmd written).batch = s.batch ∧
      (s.command env cmd written).queue = s.queue ∧ (s.command env cmd written).taken = s.taken ∧
      (s.command env cmd written).fates = s.fates := by
  unfold command
  split
  · exact ⟨rfl, rfl, rfl, rfl, rfl⟩
  · exact ⟨rfl, rfl, rfl, rfl, rfl⟩
  · simp only
    split
    · exact ⟨rfl, rfl, rfl, rfl, rfl⟩
    · split <;> exact ⟨rfl, rfl, rfl, rfl, rfl⟩

/-- What a read leaves alone. -/
theorem read_frame (s : Session) (chunk : List UInt8) :
    (s.read chunk).queue = s.queue ∧ (s.read chunk).taken = s.taken ∧
      (s.read chunk).fates = s.fates := by
  unfold read
  split <;> exact ⟨rfl, rfl, rfl⟩

inductive Move (s : Session) : Label F → Session → Prop
  | read (chunk : List UInt8) (he : s.ended = false) (hb : s.batch = []) :
    Move s (.read chunk) (s.read chunk)
  | command (cmd : HostCmd F) (written : Bool) (he : s.ended = false) (hb : s.batch = []) :
    Move s (.command cmd written) (s.command env cmd written)
  | skipped {f : Frame} {rest : List Entry} (hb : s.batch = .skipped f :: rest) :
    Move s .handle { s with batch := rest, fates := s.fates ++ [⟨f, .skipped⟩] }
  | event {o : Out} {rest : List Entry} (jobs : List NalJob) (hb : s.batch = .event o :: rest)
    (ho : o.frame? = none) (hj : ∀ job ∈ jobs, ∃ codec csd, job = .configure codec csd) :
    Move s .handle
      { s with batch := rest, recording := s.recording.event env o, queue := s.queue ++ jobs }
  | dumped {f : Frame} {rest : List Entry} (hb : s.batch = .event f.out :: rest)
    (hd : env.dumpNals = true) :
    Move s .handle
      { s with
        batch := rest, recording := s.recording.event env f.out, fates := s.fates ++ [⟨f, .dumped⟩] }
  | entered {f : Frame} {rest : List Entry} (hb : s.batch = .event f.out :: rest)
    (hd : env.dumpNals = false) (hq : s.queue.length < NAL_DEPTH) :
    Move s .handle
      { s with
        batch := rest, recording := s.recording.event env f.out,
        queue := s.queue ++ [.frame f.nal f.keyframe], fates := s.fates ++ [⟨f, .entered⟩] }
  | full {f : Frame} {rest : List Entry} (hb : s.batch = .event f.out :: rest)
    (hd : env.dumpNals = false) (hq : NAL_DEPTH ≤ s.queue.length) (hk : f.keyframe = false) :
    Move s .handle
      { s with
        client := s.client.requestKeyframeSkip, batch := rest,
        recording := s.recording.event env f.out, fates := s.fates ++ [⟨f, .full⟩] }
  | take {job : NalJob} {queue : List NalJob} (hq : s.queue = job :: queue) :
    Move s .take { s with queue := queue, taken := s.taken ++ [job] }

theorem offerFrame_move {s s' : Session} {f : Frame} {rest : List Entry}
    (hb : s.batch = .event f.out :: rest)
    (h : offerFrame env { s with batch := rest, recording := s.recording.event env f.out } f = some s') :
    Move (F := F) env s .handle s' := by
  unfold offerFrame enqueue at h
  split at h
  · rename_i hd
    cases h
    exact .dumped hb hd
  · rename_i hd
    rw [Bool.not_eq_true] at hd
    by_cases hq : s.queue.length < NAL_DEPTH
    · simp only [hq, if_true] at h
      cases h
      exact .entered hb hd hq
    · simp only [hq, if_false] at h
      cases hk : f.keyframe with
      | true => rw [hk] at h; cases h
      | false =>
        rw [hk] at h
        cases h
        exact .full hb hd (Nat.le_of_not_lt hq) hk

theorem handle_move {s s' : Session} {o : Out} {rest : List Entry} (hb : s.batch = .event o :: rest)
    (h : handle env { s with batch := rest } o = some s') : Move (F := F) env s .handle s' := by
  have hmove : ∀ jobs, o.frame? = none → (∀ job ∈ jobs, ∃ codec csd, job = NalJob.configure codec csd) →
      Move (F := F) env s .handle
        { s with batch := rest, recording := s.recording.event env o, queue := s.queue ++ jobs } :=
    fun jobs ho hj => .event jobs hb ho hj
  cases o with
  | frame ptsUs keyframe nal => exact offerFrame_move env (f := ⟨ptsUs, keyframe, nal⟩) hb h
  | configure codec csd width height =>
    simp only [handle, enqueue] at h
    by_cases hq : s.queue.length < NAL_DEPTH
    · simp only [hq, if_true] at h
      cases h
      exact hmove [.configure codec csd] rfl (by simp)
    · simp only [hq, if_false] at h
      cases h
  | deviceName name =>
    cases h
    simpa using hmove [] rfl (by simp)
  | error text =>
    cases h
    simpa using hmove [] rfl (by simp)

theorem step_move {s s' : Session} {l : Label F} (h : step env s l = some s') : Move env s l s' := by
  cases l with
  | read chunk =>
    simp only [step] at h
    split at h
    · cases h
    · rename_i hno
      rw [not_or, Bool.not_eq_true, Decidable.not_not] at hno
      cases h
      exact .read chunk hno.1 hno.2
  | command cmd written =>
    simp only [step] at h
    split at h
    · cases h
    · rename_i hno
      rw [not_or, Bool.not_eq_true, Decidable.not_not] at hno
      cases h
      exact .command cmd written hno.1 hno.2
  | handle =>
    simp only [step] at h
    split at h
    · cases h
    · rename_i hb
      cases h
      exact .skipped hb
    · rename_i hb
      exact handle_move env hb h
  | take =>
    simp only [step] at h
    split at h
    · rename_i hq
      cases h
      exact .take hq
    · cases h

end Session

end DroidMirror.Native
