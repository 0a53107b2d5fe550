import DroidMirror.Native.Backpressure
import DroidMirror.Native.Decode
import DroidMirror.Native.Indicator

/-! # From the stream to the window

`session`, `decode_thread` and the loop over `frame_rx` of `RedrawRequested` in
`crates/native/src/main.rs`, side by side. The session and the decode thread
share a queue of eight jobs; both tell the window through a channel of eight
messages, the session without waiting and the decode thread waiting for room.
Nothing that was decoded is lost, repeated or overtaken on its way to the window
(`pictures_arrive`), and none of the three waits for ever (`settles`). -/
namespace DroidMirror.Native
open DroidMirror.Proto DroidMirror.Lib.Incremental DroidMirror.Lib.Run

/-! ## Messages -/

/-- `DecodedMsg`, with its picture. -/
inductive WindowMsg where
  | frame (frame : RgbaFrame)
  | size (width height : UInt16)
  | status (text : String)
  deriving DecidableEq

def WindowMsg.frame? : WindowMsg → Option RgbaFrame
  | .frame f => some f
  | .size _ _ | .status _ => none

/-- The pictures among messages. -/
def frames (msgs : List WindowMsg) : List RgbaFrame := msgs.filterMap WindowMsg.frame?

/-- What the window keeps of the messages it took. -/
structure Screen where
  video : UInt16 × UInt16
  latest : Option RgbaFrame
  deriving DecidableEq

def Screen.start : Screen := ⟨(0, 0), none⟩

def Screen.receive (s : Screen) : WindowMsg → Screen
  | .size w h => { s with video := (w, h) }
  | .frame f => ⟨(f.width.toUInt16, f.height.toUInt16), some f⟩
  | .status _ => s

/-- The last picture taken is the one kept. -/
theorem Screen.latest_foldl (s : Screen) (msgs : List WindowMsg) :
    (msgs.foldl receive s).latest = (frames msgs).getLast?.or s.latest := by
  induction msgs generalizing s with
  | nil => rfl
  | cons msg msgs ih =>
    rw [List.foldl_cons, ih]
    cases msg with
    | frame f =>
      have hframes : frames (.frame f :: msgs) = f :: frames msgs := rfl
      rw [hframes, List.getLast?_cons]
      cases (frames msgs).getLast? <;> rfl
    | size w h => rfl
    | status text => rfl

/-! ## Jobs -/

/-- What OpenH264 answers while a job is done. -/
structure Answers where
  created : Except String Unit
  decoded : Decoded
  again : Except String Unit

/-- The call that does a job. -/
def NalJob.call (a : Answers) : NalJob → DecodeCall
  | .configure codec csd => .configure codec csd a.created a.decoded a.again
  | .frame nal keyframe => .decode nal keyframe a.created a.decoded

def DecodeCall.job : DecodeCall → NalJob
  | .configure codec csd _ _ _ => .configure codec csd
  | .decode nal keyframe _ _ => .frame nal keyframe

theorem job_call (a : Answers) (job : NalJob) : (job.call a).job = job := by cases job <;> rfl

/-- The picture a call returned. -/
def DecodeTurn.picture (t : DecodeTurn) : Option RgbaFrame := t.result.toOption.join

namespace OpenH264Decoder

/-- All the pictures of a sequence of calls. -/
def pictures : OpenH264Decoder → List DecodeCall → List RgbaFrame
  | _, [] => []
  | d, c :: calls => (d.turn c).picture.toList ++ pictures (d.turn c).dec calls

theorem pictures_snoc (d : OpenH264Decoder) (calls : List DecodeCall) (c : DecodeCall) :
    d.pictures (calls ++ [c]) = d.pictures calls ++ ((d.after calls).turn c).picture.toList := by
  induction calls generalizing d with
  | nil => exact List.append_nil _
  | cons c' calls ih =>
    change _ ++ pictures _ (calls ++ [c]) = _
    rw [ih, ← List.append_assoc]
    rfl

end OpenH264Decoder

/-! ## What the session tells -/

namespace Recording
variable (env : Env)

/-- What an event makes the session tell; `saved` and `error` are what a file
that is finished or cannot be begun says. -/
def asides (r : Recording) (saved : Except String String) (error : String) : Out → List WindowMsg
  | .deviceName _ | .error _ | .frame .. => []
  | .configure codec csd width height =>
    let cfg : VideoCfg := ⟨codec, csd, width, height⟩
    ((r.reconfigureStatus cfg saved).toList ++
      ((r.reconfigure cfg).reopenStatus env cfg error).toList).map .status ++ [.size width height]

/-- What a command makes it tell. -/
def commandStatus {F : Type} (r : Recording) (saved : Except String String) (error : String) :
    HostCmd F → Option String
  | .quit => r.finishStatus saved
  | .recordMp4 on => r.recordStatus env on saved error
  | .touch .. | .key .. | .nav .. | .text _ | .scroll .. | .pause _ => none

theorem asides_length_le (r : Recording) (saved : Except String String) (error : String) (o : Out) :
    (r.asides env saved error o).length ≤ 3 := by
  cases o with
  | configure codec csd width height =>
    have hone (a : Option String) : a.toList.length ≤ 1 := by cases a <;> simp
    have hclosed := hone (r.reconfigureStatus ⟨codec, csd, width, height⟩ saved)
    have hopened := hone ((r.reconfigure ⟨codec, csd, width, height⟩).reopenStatus env
      ⟨codec, csd, width, height⟩ error)
    simp only [asides, List.length_append, List.length_map, List.length_singleton]
    omega
  | _ => exact Nat.zero_le 3

end Recording

/-- An event that finds the decode thread returned: the queue is closed. -/
def Session.lose (env : Env) (s : Session) (o : Out) : Session :=
  let s := { s with recording := s.recording.event env o }
  match o with
  | .deviceName _ | .error _ | .configure .. => s
  | .frame ptsUs keyframe nal =>
    { s with
      client := s.client.requestKeyframeSkip
      fates := s.fates ++ [⟨⟨ptsUs, keyframe, nal⟩, .full⟩] }

namespace Session
variable {F : Type} [F32 F] {env : Env}

theorem heard_lose {s : Session} {o : Out} {rest : List Entry} (hb : s.batch = .event o :: rest) :
    ({ s with batch := rest }.lose env o).heard = s.heard := by
  cases o with
  | frame ptsUs keyframe nal =>
    simp [lose, heard, hb, Entry.frame?, Out.frame?, Client.reading_requestKeyframeSkip]
  | _ => simp [lose, heard, hb, List.filterMap_cons, Entry.frame?, Out.frame?]

theorem queueLogged_lose {s : Session} (rest : List Entry) (o : Out) (h : QueueLogged s) :
    QueueLogged ({ s with batch := rest }.lose env o) := by
  unfold QueueLogged at h ⊢
  cases o with
  | frame ptsUs keyframe nal =>
    simp only [lose, h, List.filterMap_append]
    exact (List.append_nil _).symm
  | _ => exact h

variable (env) in
theorem lose_kept (s : Session) (o : Out) : (s.lose env o).queue = s.queue ∧ (s.lose env o).taken = s.taken ∧
    (s.lose env o).batch = s.batch ∧ (s.lose env o).ended = s.ended := by
  cases o <;> exact ⟨rfl, rfl, rfl, rfl⟩

theorem enqueue_le {queue queue' : List NalJob} {job : NalJob} {important : Bool}
    (h : enqueue queue job important = .queued queue') : queue' = queue ++ [job] ∧ queue'.length ≤ NAL_DEPTH := by
  unfold enqueue at h
  split at h
  · rename_i hroom
    cases h
    exact ⟨rfl, by rw [List.length_append]; exact hroom⟩
  · split at h <;> cases h

/-- A step that takes no job puts one on the queue at most, and only where there
is room. -/
structure Fills (s s' : Session) : Prop where
  taken : s'.taken = s.taken
  queue : s'.queue = s.queue ∨ ∃ job, s'.queue = s.queue ++ [job] ∧ s'.queue.length ≤ NAL_DEPTH

theorem handle_fills {s s' : Session} {o : Out} (h : handle env s o = some s') : Fills s s' := by
  cases o with
  | deviceName name =>
    cases h
    exact ⟨rfl, .inl rfl⟩
  | error text =>
    cases h
    exact ⟨rfl, .inl rfl⟩
  | configure codec csd width height =>
    simp only [handle] at h
    split at h
    · rename_i hq
      cases h
      exact ⟨rfl, .inr ⟨_, enqueue_le hq⟩⟩
    · cases h
    · cases h
      exact ⟨rfl, .inl rfl⟩
  | frame ptsUs keyframe nal =>
    simp only [handle, offerFrame] at h
    split at h
    · cases h
      exact ⟨rfl, .inl rfl⟩
    · split at h
      · rename_i hq
        cases h
        exact ⟨rfl, .inr ⟨_, enqueue_le hq⟩⟩
      · cases h
      · cases h
        exact ⟨rfl, .inl rfl⟩

theorem step_fills {s s' : Session} {l : Label F} (h : step env s l = some s') (hl : l ≠ .take) :
    Fills s s' := by
  cases l with
  | read chunk =>
    simp only [step] at h
    split at h
    · cases h
    · cases h
      obtain ⟨hq, ht, -⟩ := read_frame s chunk
      exact ⟨ht, .inl hq⟩
  | command cmd written =>
    simp only [step] at h
    split at h
    · cases h
    · cases h
      obtain ⟨-, -, hq, ht, -⟩ := command_frame env s cmd written
      exact ⟨ht, .inl hq⟩
  | handle =>
    simp only [step] at h
    split at h
    · cases h
    · cases h
      exact ⟨rfl, .inl rfl⟩
    · obtain ⟨ht, hq⟩ := handle_fills h
      exact ⟨ht, hq⟩
  | take => exact absurd rfl hl

/-- The session ends between two batches. -/
theorem ended_step {s s' : Session} {l : Label F} (h : s.ended = true → s.batch = [])
    (hs : step env s l = some s') : (s'.ended = true → s'.batch = []) ∧ (s.ended = true → s'.ended = true) := by
  cases step_move env hs with
  | read chunk he hb =>
    refine ⟨?_, fun h => absurd (he.symm.trans h) Bool.false_ne_true⟩
    unfold read
    split
    · exact fun _ => hb
    · exact fun h => absurd (he.symm.trans h) Bool.false_ne_true
  | command cmd written he hb =>
    obtain ⟨-, hbatch, -⟩ := command_frame env s cmd written
    exact ⟨fun _ => hbatch.trans hb, fun h => absurd (he.symm.trans h) Bool.false_ne_true⟩
  | take hq => exact ⟨h, id⟩
  | skipped hb | event jobs hb ho hj | dumped hb hd | entered hb hd hq | full hb hd hq hk =>
    exact ⟨fun he => (List.cons_ne_nil _ _ (hb.symm.trans (h he))).elim, id⟩

end Session

/-! ## Steps -/

structure Pipeline where
  session : Session
  /-- What the session is about to tell the window. -/
  todo : List WindowMsg
  /-- Whether this was worked out for the first event of the batch. -/
  told : Bool
  decoder : OpenH264Decoder
  calls : List DecodeCall
  /-- The picture that the decode thread sends. -/
  hand : Option RgbaFrame
  /-- The decode thread is no more. -/
  returned : Bool
  msgs : List WindowMsg
  /-- What the window took. -/
  taken : List WindowMsg
  /-- The window and its end of the channel are no more. -/
  gone : Bool

namespace Pipeline

inductive Act (F : Type) where
  | read (chunk : List UInt8) (saved : Except String String)
  | command (cmd : HostCmd F) (written : Bool) (saved : Except String String) (error : String)
  | announce (saved : Except String String) (error : String)
  | tell
  | handle
  /-- The decode thread takes a job and does it. -/
  | decode (answers : Answers)
  | send
  /-- The decode thread finds the queue empty, and nobody to fill it. -/
  | leave
  /-- `RedrawRequested` takes a message. -/
  | draw
  | drop

section
variable {F : Type} [F32 F] (env : Env)

def start : Pipeline :=
  { session := .start env, todo := [], told := false, decoder := .new, calls := [], hand := none,
    returned := false, msgs := [], taken := [], gone := false }

/-- `try_send`. -/
def tell (s : Pipeline) (msg : WindowMsg) : List WindowMsg :=
  if !s.gone && s.msgs.length < FRAME_DEPTH then s.msgs ++ [msg] else s.msgs

def handle (F : Type) [F32 F] (s : Pipeline) : Option Pipeline :=
  match s.session.batch with
  | [] => none
  | .skipped _ :: _ => (Session.step env s.session (.handle : Label F)).map fun session => { s with session }
  | .event o :: rest =>
    if !s.told then none
    else if s.returned then
      some { s with session := { s.session with batch := rest }.lose env o, told := false }
    else
      (Session.step env s.session (.handle : Label F)).map fun session => { s with session, told := false }

def decode (F : Type) [F32 F] (s : Pipeline) (a : Answers) : Option Pipeline :=
  match s.session.queue with
  | [] => none
  | job :: _ =>
    (Session.step env s.session (.take : Label F)).map fun session =>
      let turn := s.decoder.turn (job.call a)
      { s with session, decoder := turn.dec, hand := turn.picture, calls := s.calls ++ [job.call a] }

def step (s : Pipeline) : Act F → Option Pipeline
  | .read chunk saved =>
    if s.todo ≠ [] then none
    else
      (Session.step env s.session (.read chunk : Label F)).map fun session =>
        { s with
          session
          todo := if chunk.isEmpty then (s.session.recording.finishStatus saved).toList.map .status else [] }
  | .command cmd written saved error =>
    if s.todo ≠ [] then none
    else
      (Session.step env s.session (.command cmd written)).map fun session =>
        { s with
          session
          todo := (s.session.recording.commandStatus env saved error cmd).toList.map .status }
  | .announce saved error =>
    match s.told, s.todo, s.session.batch with
    | false, [], .event o :: _ =>
      some { s with told := true, todo := s.session.recording.asides env saved error o }
    | _, _, _ => none
  | .tell =>
    match s.todo with
    | [] => none
    | msg :: todo => some { s with todo, msgs := s.tell msg }
  | .handle => if s.todo ≠ [] then none else s.handle env F
  | .decode a => if s.returned ∨ s.hand ≠ none then none else s.decode env F a
  | .send =>
    match s.returned, s.hand with
    | false, some f =>
      if s.gone then some { s with returned := true }
      else if s.msgs.length < FRAME_DEPTH then some { s with hand := none, msgs := s.msgs ++ [.frame f] }
      else none
    | _, _ => none
  | .leave =>
    if s.returned ∨ s.hand ≠ none ∨ s.session.queue ≠ [] ∨ s.session.ended = false ∨ s.todo ≠ [] then none
    else some { s with returned := true }
  | .draw =>
    match s.gone, s.msgs with
    | false, msg :: msgs => some { s with msgs, taken := s.taken ++ [msg] }
    | _, _ => none
  | .drop => if s.gone then none else some { s with gone := true }

end

/-- What the window shows. -/
def screen (s : Pipeline) : Screen := s.taken.foldl Screen.receive .start

/-! ## What a step can do -/

section
variable {F : Type} [F32 F] (env : Env)

inductive Move (s : Pipeline) : Act F → Pipeline → Prop
  | read {chunk : List UInt8} {session : Session} (saved : Except String String)
    (hs : Session.step env s.session (.read chunk : Label F) = some session) (ht : s.todo = []) :
    Move s (.read chunk saved)
      { s with
        session
        todo := if chunk.isEmpty then (s.session.recording.finishStatus saved).toList.map .status else [] }
  | command {cmd : HostCmd F} {written : Bool} {session : Session} (saved : Except String String)
    (error : String) (hs : Session.step env s.session (.command cmd written) = some session)
    (ht : s.todo = []) :
    Move s (.command cmd written saved error)
      { s with
        session, todo := (s.session.recording.commandStatus env saved error cmd).toList.map .status }
  | announce {o : Out} {rest : List Entry} (saved : Except String String) (error : String)
    (ht : s.todo = []) (hb : s.session.batch = .event o :: rest) (htold : s.told = false) :
    Move s (.announce saved error)
      { s with told := true, todo := s.session.recording.asides env saved error o }
  | tell {msg : WindowMsg} {todo : List WindowMsg} (ht : s.todo = msg :: todo) :
    Move s .tell { s with todo, msgs := s.tell msg }
  | skipped {f : Frame} {rest : List Entry} {session : Session} (ht : s.todo = [])
    (hb : s.session.batch = .skipped f :: rest)
    (hs : Session.step env s.session (.handle : Label F) = some session) :
    Move s .handle { s with session }
  | handle {o : Out} {rest : List Entry} {session : Session} (ht : s.todo = [])
    (hb : s.session.batch = .event o :: rest) (htold : s.told = true) (hr : s.returned = false)
    (hs : Session.step env s.session (.handle : Label F) = some session) :
    Move s .handle { s with session, told := false }
  | lose {o : Out} {rest : List Entry} (ht : s.todo = []) (hb : s.session.batch = .event o :: rest)
    (htold : s.told = true) (hr : s.returned = true) :
    Move s .handle { s with session := { s.session with batch := rest }.lose env o, told := false }
  | decode {job : NalJob} {session : Session} (a : Answers) (hr : s.returned = false) (hh : s.hand = none)
    (hq : s.session.queue.head? = some job)
    (hs : Session.step env s.session (.take : Label F) = some session) :
    Move s (.decode a)
      { s with
        session, decoder := (s.decoder.turn (job.call a)).dec
        hand := (s.decoder.turn (job.call a)).picture, calls := s.calls ++ [job.call a] }
  | send {f : RgbaFrame} (hr : s.returned = false) (hh : s.hand = some f) (hg : s.gone = false)
    (hm : s.msgs.length < FRAME_DEPTH) :
    Move s .send { s with hand := none, msgs := s.msgs ++ [.frame f] }
  | refused {f : RgbaFrame} (hr : s.returned = false) (hh : s.hand = some f) (hg : s.gone = true) :
    Move s .send { s with returned := true }
  | leave (hr : s.returned = false) (hh : s.hand = none) (hq : s.session.queue = [])
    (he : s.session.ended = true) (ht : s.todo = []) :
    Move s .leave { s with returned := true }
  | draw {msg : WindowMsg} {msgs : List WindowMsg} (hg : s.gone = false) (hm : s.msgs = msg :: msgs) :
    Move s .draw { s with msgs, taken := s.taken ++ [msg] }
  | drop (hg : s.gone = false) : Move s .drop { s with gone := true }

variable {env}

theorem handle_move {s s' : Pipeline} (ht : s.todo = []) (h : s.handle env F = some s') :
    Move (F := F) env s .handle s' := by
  unfold handle at h
  split at h
  · cases h
  · rename_i hb
    obtain ⟨session, hs, rfl⟩ := Option.map_eq_some_iff.mp h
    exact .skipped ht hb hs
  · rename_i hb
    split at h
    · cases h
    · rename_i htold
      rw [Bool.not_eq_true', Bool.not_eq_false] at htold
      split at h
      · cases h
        exact .lose ht hb htold ‹_›
      · rename_i hr
        obtain ⟨session, hs, rfl⟩ := Option.map_eq_some_iff.mp h
        exact .handle ht hb htold (Bool.not_eq_true _ ▸ hr) hs

theorem decode_move {s s' : Pipeline} {a : Answers} (hr : s.returned = false) (hh : s.hand = none)
    (h : s.decode env F a = some s') : Move (F := F) env s (.decode a) s' := by
  unfold decode at h
  split at h
  · cases h
  · rename_i hq
    obtain ⟨session, hs, rfl⟩ := Option.map_eq_some_iff.mp h
    exact .decode a hr hh (by rw [hq]; rfl) hs

theorem step_move {s s' : Pipeline} {a : Act F} (h : step env s a = some s') : Move env s a s' := by
  cases a with
  | read chunk saved =>
    simp only [step, ite_not] at h
    split at h
    · obtain ⟨session, hs, rfl⟩ := Option.map_eq_some_iff.mp h
      exact .read saved hs ‹_›
    · cases h
  | command cmd written saved error =>
    simp only [step, ite_not] at h
    split at h
    · obtain ⟨session, hs, rfl⟩ := Option.map_eq_some_iff.mp h
      exact .command saved error hs ‹_›
    · cases h
  | announce saved error =>
    simp only [step] at h
    split at h
    · rename_i htold ht hb
      cases h
      exact .announce saved error ht hb htold
    · cases h
  | tell =>
    simp only [step] at h
    split at h
    · cases h
    · rename_i ht
      cases h
      exact .tell ht
  | handle =>
    simp only [step, ite_not] at h
    split at h
    · exact handle_move ‹_› h
    · cases h
  | decode a =>
    simp only [step] at h
    split at h
    · cases h
    · rename_i hno
      rw [not_or, Bool.not_eq_true, Decidable.not_not] at hno
      exact decode_move hno.1 hno.2 h
  | send =>
    simp only [step] at h
    split at h
    · rename_i hr hh
      split at h
      · cases h
        exact .refused hr hh ‹_›
      · rename_i hg
        split at h
        · cases h
          exact .send hr hh (Bool.not_eq_true _ ▸ hg) ‹_›
        · cases h
    · cases h
  | leave =>
    simp only [step] at h
    split at h
    · cases h
    · rename_i hno
      simp only [not_or, Bool.not_eq_true, Decidable.not_not, Bool.not_eq_false] at hno
      obtain ⟨hr, hh, hq, he, ht⟩ := hno
      cases h
      exact .leave hr hh hq he ht
  | draw =>
    simp only [step] at h
    split at h
    · rename_i hg hm
      cases h
      exact .draw hg hm
    · cases h
  | drop =>
    simp only [step] at h
    split at h
    · cases h
    · rename_i hg
      cases h
      exact .drop (Bool.not_eq_true _ ▸ hg)

/-! ## From the wire to the pictures -/

def Act.chunk? {F : Type} : Act F → Option (List UInt8)
  | .read chunk _ => some chunk
  | _ => none

/-- The bytes that were read. -/
def received {F : Type} (acts : List (Act F)) : List UInt8 := (acts.filterMap Act.chunk?).flatten

theorem heard_step {s s' : Pipeline} {a : Act F} (h : step env s a = some s') :
    s'.session.heard = a.chunk?.elim s.session.heard (Session.hear s.session.heard) := by
  cases step_move h with
  | read saved hs ht => exact Session.heard_step hs
  | command saved error hs ht => exact Session.heard_step hs
  | skipped ht hb hs => exact Session.heard_step hs
  | handle ht hb htold hr hs => exact Session.heard_step hs
  | lose ht hb htold hr => exact Session.heard_lose hb
  | decode a hr hh hq hs => exact Session.heard_step hs
  | _ => rfl

theorem queueLogged_step {s s' : Pipeline} {a : Act F} (hi : s.session.QueueLogged)
    (h : step env s a = some s') : s'.session.QueueLogged := by
  cases step_move h with
  | read saved hs ht => exact Session.queueLogged_step hi hs
  | command saved error hs ht => exact Session.queueLogged_step hi hs
  | skipped ht hb hs => exact Session.queueLogged_step hi hs
  | handle ht hb htold hr hs => exact Session.queueLogged_step hi hs
  | lose ht hb htold hr => exact Session.queueLogged_lose _ _ hi
  | decode a hr hh hq hs => exact Session.queueLogged_step hi hs
  | _ => exact hi

/-- The jobs taken were done, and their pictures are with the window, under way
to it or in hand. -/
structure Arrives (s : Pipeline) : Prop where
  decoder : s.decoder = OpenH264Decoder.new.after s.calls
  jobs : s.calls.map DecodeCall.job = s.session.taken
  asides : frames s.todo = []
  pictures : frames (s.taken ++ s.msgs) ++ s.hand.toList = OpenH264Decoder.new.pictures s.calls

theorem frames_status (texts : List String) : frames (texts.map .status) = [] := by
  rw [frames, List.filterMap_eq_nil_iff]
  intro msg hmsg
  obtain ⟨text, -, rfl⟩ := List.mem_map.mp hmsg
  rfl

theorem frames_append (msgs msgs' : List WindowMsg) : frames (msgs ++ msgs') = frames msgs ++ frames msgs' :=
  List.filterMap_append

theorem frames_asides (r : Recording) (saved : Except String String) (error : String) (o : Out) :
    frames (r.asides env saved error o) = [] := by
  cases o with
  | configure codec csd width height => rw [Recording.asides, frames_append, frames_status]; rfl
  | _ => rfl

theorem frames_tell {s : Pipeline} {msg : WindowMsg} (h : msg.frame? = none) : frames (s.tell msg) = frames s.msgs := by
  unfold tell
  split
  · rw [frames_append, frames, frames, List.filterMap_cons_none h]
    exact List.append_nil _
  · rfl

/-- The session's part of a step that does no job. -/
theorem Arrives.session {s : Pipeline} (hi : s.Arrives) {session : Session} {todo : List WindowMsg} {told : Bool}
    (ht : session.taken = s.session.taken) (hf : frames todo = []) :
    Arrives { s with session, todo, told } :=
  ⟨hi.decoder, hi.jobs.trans ht.symm, hf, hi.pictures⟩

theorem arrives_step {s s' : Pipeline} {a : Act F} (hi : s.Arrives) (h : step env s a = some s') :
    s'.Arrives := by
  cases step_move h with
  | read saved hs ht =>
    refine hi.session (Session.step_fills hs (by simp)).taken ?_
    split
    · exact frames_status _
    · rfl
  | command saved error hs ht => exact hi.session (Session.step_fills hs (by simp)).taken (frames_status _)
  | announce saved error ht hb htold => exact hi.session rfl (frames_asides ..)
  | tell ht =>
    have hasides := hi.asides
    rw [ht, frames, List.filterMap_eq_nil_iff] at hasides
    have hmsg := hasides _ List.mem_cons_self
    refine ⟨hi.decoder, hi.jobs, ?_, ?_⟩
    · exact List.filterMap_eq_nil_iff.mpr fun msg hm => hasides msg (List.mem_cons_of_mem _ hm)
    · have hpictures := hi.pictures
      rwa [frames_append, ← frames_tell hmsg, ← frames_append] at hpictures
  | skipped ht hb hs => exact hi.session (Session.step_fills hs (by simp)).taken hi.asides
  | handle ht hb htold hr hs => exact hi.session (Session.step_fills hs (by simp)).taken hi.asides
  | lose ht hb htold hr => exact hi.session (Session.lose_kept ..).2.1 hi.asides
  | decode a hr hh hq hs =>
    cases Session.step_move env hs with
    | take hqueue =>
      rw [hqueue] at hq
      cases hq
      refine ⟨?_, ?_, hi.asides, ?_⟩
      · rw [OpenH264Decoder.after_snoc, ← hi.decoder]
      · rw [List.map_append, hi.jobs, List.map_singleton, job_call]
      · have hpictures := hi.pictures
        rw [hh, Option.toList_none, List.append_nil] at hpictures
        rw [OpenH264Decoder.pictures_snoc, ← hi.decoder, ← hpictures]
  | send hr hh hg hm =>
    refine ⟨hi.decoder, hi.jobs, hi.asides, ?_⟩
    have hpictures := hi.pictures
    rw [hh] at hpictures
    rw [← List.append_assoc, frames_append, Option.toList_none, List.append_nil, ← hpictures]
    rfl
  | refused hr hh hg => exact ⟨hi.decoder, hi.jobs, hi.asides, hi.pictures⟩
  | leave hr hh hq he ht => exact ⟨hi.decoder, hi.jobs, hi.asides, hi.pictures⟩
  | draw hg hm =>
    refine ⟨hi.decoder, hi.jobs, hi.asides, ?_⟩
    have hpictures := hi.pictures
    rw [hm, List.append_cons] at hpictures
    exact hpictures
  | drop hg => exact ⟨hi.decoder, hi.jobs, hi.asides, hi.pictures⟩

structure Bounded (s : Pipeline) : Prop where
  queue : s.session.queue.length ≤ NAL_DEPTH
  msgs : s.msgs.length ≤ FRAME_DEPTH

theorem tell_room {s : Pipeline} (msg : WindowMsg) (h : s.msgs.length ≤ FRAME_DEPTH) :
    (s.tell msg).length ≤ FRAME_DEPTH := by
  unfold tell
  split
  · rename_i hroom
    rw [Bool.and_eq_true, decide_eq_true_eq] at hroom
    rw [List.length_append]
    exact hroom.2
  · exact h

theorem length_tell_le (s : Pipeline) (msg : WindowMsg) : (s.tell msg).length ≤ s.msgs.length + 1 := by
  unfold tell
  split
  · exact Nat.le_of_eq (List.length_append ..)
  · exact Nat.le_succ _

theorem Bounded.fills {s : Pipeline} (hi : s.Bounded) {session : Session} (h : s.session.Fills session) :
    session.queue.length ≤ NAL_DEPTH := by
  rcases h.queue with hq | ⟨job, -, hle⟩
  · exact hq ▸ hi.queue
  · exact hle

theorem bounded_step {s s' : Pipeline} {a : Act F} (hi : s.Bounded) (h : step env s a = some s') :
    s'.Bounded := by
  cases step_move h with
  | read saved hs ht => exact ⟨hi.fills (Session.step_fills hs (by simp)), hi.msgs⟩
  | command saved error hs ht => exact ⟨hi.fills (Session.step_fills hs (by simp)), hi.msgs⟩
  | announce saved error ht hb htold => exact ⟨hi.queue, hi.msgs⟩
  | tell ht => exact ⟨hi.queue, tell_room _ hi.msgs⟩
  | skipped ht hb hs => exact ⟨hi.fills (Session.step_fills hs (by simp)), hi.msgs⟩
  | handle ht hb htold hr hs => exact ⟨hi.fills (Session.step_fills hs (by simp)), hi.msgs⟩
  | lose ht hb htold hr =>
    exact ⟨(congrArg List.length (Session.lose_kept ..).1).trans_le hi.queue, hi.msgs⟩
  | decode a hr hh hq hs =>
    cases Session.step_move env hs with
    | take hqueue =>
      have hle := hi.queue
      rw [hqueue] at hle
      exact ⟨Nat.le_of_succ_le hle, hi.msgs⟩
  | send hr hh hg hm =>
    refine ⟨hi.queue, ?_⟩
    rw [List.length_append]
    exact hm
  | refused hr hh hg => exact ⟨hi.queue, hi.msgs⟩
  | leave hr hh hq he ht => exact ⟨hi.queue, hi.msgs⟩
  | draw hg hm =>
    have hle := hi.msgs
    rw [hm] at hle
    exact ⟨hi.queue, Nat.le_of_succ_le hle⟩
  | drop hg => exact ⟨hi.queue, hi.msgs⟩

/-- Where the frames, the jobs and the pictures of a run are. -/
theorem arrival {acts : List (Act F)} {t : Pipeline} (h : run (step env) (start env) acts = some t) :
    t.session.fates.map Fate.frame ++ t.session.batch.filterMap Entry.frame? = videoFrames (received acts) ∧
      (t.calls.map DecodeCall.job ++ t.session.queue).filterMap NalJob.frame? =
        t.session.fates.filterMap Fate.job? ∧
      frames t.taken ++ (frames t.msgs ++ t.hand.toList) = OpenH264Decoder.new.pictures t.calls := by
  have hview := run_script (fun s a s' _ hs => heard_step hs) h (meets_true _ _)
  have hof := Session.hear_of [] (acts.filterMap Act.chunk?)
  rw [List.nil_append] at hof
  have harrives := run_preserves (fun s a s' hi hs => arrives_step hi hs) h ⟨rfl, rfl, rfl, rfl⟩
  refine ⟨congrArg Prod.fst (hview.trans hof), ?_, ?_⟩
  · rw [harrives.jobs]
    exact run_preserves (fun s a s' hi hs => queueLogged_step hi hs) h rfl
  · rw [← List.append_assoc, ← frames_append]
    exact harrives.pictures

/-- **From the wire to the window.** However session, decode thread and window
take turns: the frames handled are those of the bytes read; the jobs done and
those on the queue are the frames that entered it; every picture the decoder
made of them went to the window, in order and once, but for what the channel
holds and the one in hand; and queue and channel never hold more than eight. -/
theorem pictures_arrive {acts : List (Act F)} {t : Pipeline} (h : run (step env) (start env) acts = some t) :
    t.session.fates.map Fate.frame ++ t.session.batch.filterMap Entry.frame? = videoFrames (received acts) ∧
      (t.calls.map DecodeCall.job ++ t.session.queue).filterMap NalJob.frame? =
        t.session.fates.filterMap Fate.job? ∧
      frames t.taken ++ (frames t.msgs ++ t.hand.toList) = OpenH264Decoder.new.pictures t.calls ∧
      t.session.queue.length ≤ NAL_DEPTH ∧ t.msgs.length ≤ FRAME_DEPTH := by
  obtain ⟨hframes, hjobs, hpictures⟩ := arrival h
  have hbounded := run_preserves (fun s a s' hi hs => bounded_step hi hs) h ⟨Nat.zero_le _, Nat.zero_le _⟩
  exact ⟨hframes, hjobs, hpictures, hbounded.queue, hbounded.msgs⟩

/-- A burst is read and handled, and a picture of its keyframe drawn. -/
def drawing : List (Act Float32) :=
  .read Session.burst (.ok "") :: [.announce (.ok "") "", .handle, .announce (.ok "") "", .tell, .handle] ++
    (List.replicate 9 [.announce (.ok "") "", .handle]).flatten ++
    [.decode ⟨.ok (), .nothing, .ok ()⟩, .decode ⟨.ok (), .picture 2 3 [7], .ok ()⟩, .send, .draw, .draw]

theorem pictures_arrive_drawn : ∃ t, run (step ⟨true, false, fun _ => true⟩) (start ⟨true, false, fun _ => true⟩)
    drawing = some t ∧ t.screen = ⟨(2, 3), some ⟨2, 3, [7]⟩⟩ ∧
      t.session.fates.map Fate.frame ++ t.session.batch.filterMap Entry.frame? = videoFrames (received drawing) ∧
      frames t.taken ++ (frames t.msgs ++ t.hand.toList) = OpenH264Decoder.new.pictures t.calls := by
  have hscreen : (run (step ⟨true, false, fun _ => true⟩) (start ⟨true, false, fun _ => true⟩) drawing).map
      screen = some ⟨(2, 3), some ⟨2, 3, [7]⟩⟩ := by decide +kernel
  obtain ⟨t, ht, hshown⟩ := Option.map_eq_some_iff.mp hscreen
  obtain ⟨hframes, -, hpictures, -⟩ := pictures_arrive ht
  exact ⟨t, ht, hshown, hframes, hpictures⟩

/-! ## Coming to rest -/

/-- The steps that nothing from outside is needed for: all but those of the
device, of the user and of the end of the window. -/
def Act.Own {F : Type} : Act F → Prop
  | .read .. | .command .. | .drop => False
  | .announce .. | .tell | .handle | .decode _ | .send | .leave | .draw => True

/-- How many steps are left at most, each entry of the batch taken for one that
tells three things and ends in a picture. -/
def work (s : Pipeline) : Nat :=
  11 * s.session.batch.length + (if s.told then 0 else 7) + 2 * s.todo.length + 3 * s.session.queue.length +
    2 * s.hand.toList.length + s.msgs.length + (if s.returned then 0 else 1)

theorem step_handle {s s' : Session} (h : Session.step env s (.handle : Label F) = some s') :
    (∃ e, s.batch = e :: s'.batch) ∧ s'.ended = s.ended := by
  cases Session.step_move env h with
  | skipped hb => exact ⟨⟨_, hb⟩, rfl⟩
  | event jobs hb ho hj => exact ⟨⟨_, hb⟩, rfl⟩
  | dumped hb hd => exact ⟨⟨_, hb⟩, rfl⟩
  | entered hb hd hq => exact ⟨⟨_, hb⟩, rfl⟩
  | full hb hd hq hk => exact ⟨⟨_, hb⟩, rfl⟩

theorem handle_work {s s' : Session} (h : Session.step env s (.handle : Label F) = some s') :
    11 * s'.batch.length + 3 * s'.queue.length + 8 ≤ 11 * s.batch.length + 3 * s.queue.length := by
  obtain ⟨⟨e, hb⟩, -⟩ := step_handle h
  rw [hb, List.length_cons]
  rcases (Session.step_fills h (by simp)).queue with hq | ⟨job, hq, -⟩
  · rw [hq]
    omega
  · rw [hq, List.length_append, List.length_singleton]
    omega

variable (env) in
theorem lose_work {s : Session} {o : Out} {rest : List Entry} (hb : s.batch = .event o :: rest) :
    11 * ({ s with batch := rest }.lose env o).batch.length +
      3 * ({ s with batch := rest }.lose env o).queue.length + 8 ≤ 11 * s.batch.length + 3 * s.queue.length := by
  obtain ⟨hq, -, hbatch, -⟩ := Session.lose_kept env { s with batch := rest } o
  simp only [hq, hbatch, hb, List.length_cons]
  omega

theorem work_step {s s' : Pipeline} {a : Act F} (hown : a.Own) (h : step env s a = some s') :
    s'.work < s.work := by
  cases step_move h with
  | read | command | drop => cases hown
  | @announce o rest saved error ht hb htold =>
    have hthree := s.session.recording.asides_length_le env saved error o
    simp only [work, ht, htold, List.length_nil, if_true, Bool.false_eq_true, if_false]
    omega
  | @tell msg todo ht =>
    have hgrown := s.length_tell_le msg
    simp only [work, ht, List.length_cons]
    omega
  | skipped ht hb hs =>
    have hless := handle_work hs
    simp only [work]
    omega
  | handle ht hb htold hr hs =>
    have hless := handle_work hs
    simp only [work, htold, if_true, Bool.false_eq_true, if_false]
    omega
  | lose ht hb htold hr =>
    have hless := lose_work env hb
    simp only [work, htold, if_true, Bool.false_eq_true, if_false]
    omega
  | @decode job session a hr hh hq hs =>
    have hone : (s.decoder.turn (job.call a)).picture.toList.length ≤ 1 := by
      cases (s.decoder.turn (job.call a)).picture <;> simp
    cases Session.step_move env hs with
    | take hqueue =>
      simp only [work, hh, hqueue, Option.toList_none, List.length_nil, List.length_cons]
      omega
  | send hr hh hg hm =>
    simp only [work, hh, Option.toList_none, Option.toList_some, List.length_append, List.length_singleton,
      List.length_nil]
    omega
  | refused hr hh hg => simp [work, hr]
  | leave hr hh hq he ht => simp [work, hr]
  | draw hg hm => simp [work, hm]

/-- How far the session and the decode thread can be apart from each other. -/
structure Standing (s : Pipeline) : Prop where
  ended : s.session.ended = true → s.session.batch = []
  /-- The decode thread outlives the session, or the window. -/
  closed : s.returned = true → s.gone = false →
    s.session.ended = true ∧ s.session.queue = [] ∧ s.hand = none

theorem standing_step {s s' : Pipeline} {a : Act F} (hi : s.Standing) (h : step env s a = some s') :
    s'.Standing := by
  have hopen {e : Entry} {rest : List Entry} (hb : s.session.batch = e :: rest) : ¬ s.session.ended = true :=
    fun he => List.cons_ne_nil e rest (hb.symm.trans (hi.ended he))
  cases step_move h with
  | read saved hs ht =>
    refine ⟨(Session.ended_step hi.ended hs).1, fun hr hg => ?_⟩
    cases Session.step_move env hs with
    | read chunk he hb => exact absurd (he.symm.trans (hi.closed hr hg).1) Bool.false_ne_true
  | command saved error hs ht =>
    refine ⟨(Session.ended_step hi.ended hs).1, fun hr hg => ?_⟩
    cases Session.step_move env hs with
    | command cmd written he hb => exact absurd (he.symm.trans (hi.closed hr hg).1) Bool.false_ne_true
  | announce saved error ht hb htold => exact ⟨hi.ended, hi.closed⟩
  | tell ht => exact ⟨hi.ended, hi.closed⟩
  | skipped ht hb hs =>
    exact ⟨(Session.ended_step hi.ended hs).1, fun hr hg => absurd (hi.closed hr hg).1 (hopen hb)⟩
  | handle ht hb htold hr hs =>
    exact ⟨(Session.ended_step hi.ended hs).1, fun hr hg => absurd (hi.closed hr hg).1 (hopen hb)⟩
  | @lose o rest ht hb htold hr =>
    obtain ⟨-, -, -, hended⟩ := Session.lose_kept env { s.session with batch := rest } o
    exact ⟨fun he => absurd (hended.symm.trans he) (hopen hb), fun hr hg => absurd (hi.closed hr hg).1 (hopen hb)⟩
  | decode a hr hh hq hs =>
    exact ⟨(Session.ended_step hi.ended hs).1, fun hr' => absurd (hr.symm.trans hr') Bool.false_ne_true⟩
  | send hr hh hg hm =>
    exact ⟨hi.ended, fun hr' => absurd (hr.symm.trans hr') Bool.false_ne_true⟩
  | refused hr hh hg => exact ⟨hi.ended, fun _ hg' => absurd (hg'.symm.trans hg) Bool.false_ne_true⟩
  | leave hr hh hq he ht => exact ⟨hi.ended, fun _ _ => ⟨he, hq, hh⟩⟩
  | draw hg hm => exact ⟨hi.ended, hi.closed⟩
  | drop hg => exact ⟨hi.ended, fun _ hg' => absurd hg'.symm Bool.false_ne_true⟩

/-! ## At rest -/

/-- All that was read is dealt with. -/
structure AtRest (s : Pipeline) : Prop where
  batch : s.session.batch = []
  todo : s.todo = []
  ended : s.session.ended = true → s.returned = true
  drained : s.gone = false → s.session.queue = [] ∧ s.hand = none ∧ s.msgs = []

/-- The session handles an event if the queue has room. -/
theorem handle_isSome {s : Session} {e : Entry} {rest : List Entry} (hb : s.batch = e :: rest)
    (hq : s.queue = []) : Session.step env s (.handle : Label F) ≠ none := by
  have hroom : s.queue.length < NAL_DEPTH := by rw [hq]; decide
  cases e with
  | skipped f => simp [Session.step, hb]
  | event o =>
    simp only [Session.step, hb]
    cases o with
    | frame ptsUs keyframe nal =>
      simp only [Session.handle, Session.offerFrame, enqueue, hroom, if_true]
      split <;> exact Option.some_ne_none _
    | configure codec csd width height => simp [Session.handle, enqueue, hroom]
    | _ => exact Option.some_ne_none _

section
variable {s : Pipeline} (h : Settled (step (F := F) env) Act.Own s)
include h

theorem settled_todo : s.todo = [] := by
  cases ht : s.todo with
  | nil => rfl
  | cons msg todo =>
    have hnone := h .tell trivial
    simp [step, ht] at hnone

theorem settled_msgs (hg : s.gone = false) : s.msgs = [] := by
  cases hm : s.msgs with
  | nil => rfl
  | cons msg msgs =>
    have hnone := h .draw trivial
    simp [step, hg, hm] at hnone

/-- A picture in hand can be sent: the window makes room, or is no more. -/
theorem settled_hand (hr : s.returned = false) : s.hand = none := by
  cases hh : s.hand with
  | none => rfl
  | some f =>
    have hnone := h .send trivial
    cases hg : s.gone with
    | true => simp [step, hr, hh, hg] at hnone
    | false =>
      have hroom : s.msgs.length < FRAME_DEPTH := by
        rw [settled_msgs h hg]
        decide
      simp [step, hr, hh, hg, hroom] at hnone

theorem settled_queue (hd : env.dumpNals = false) (hr : s.returned = false) : s.session.queue = [] := by
  cases hq : s.session.queue with
  | nil => rfl
  | cons job queue =>
    have hnone := h (.decode ⟨.ok (), .nothing, .ok ()⟩) trivial
    simp [step, decode, hr, settled_hand h hr, hq, Session.step, hd] at hnone

theorem settled_batch (hd : env.dumpNals = false) : s.session.batch = [] := by
  have ht := settled_todo h
  have hhandle := h .handle trivial
  cases hb : s.session.batch with
  | nil => rfl
  | cons e rest =>
    simp only [step, ht, ne_eq, not_true, if_false, handle, hb] at hhandle
    cases e with
    | skipped f => exact absurd (Option.map_eq_none_iff.mp hhandle) (by simp [Session.step, hb])
    | event o =>
      cases htold : s.told with
      | false =>
        have hnone := h (.announce (.ok "") "") trivial
        simp [step, htold, ht, hb] at hnone
      | true =>
        cases hr : s.returned with
        | true => simp [htold, hr] at hhandle
        | false =>
          simp only [htold, hr, Bool.not_true, Bool.false_eq_true, if_false] at hhandle
          exact absurd (Option.map_eq_none_iff.mp hhandle) (handle_isSome hb (settled_queue h hd hr))

theorem atRest (hd : env.dumpNals = false) (hi : s.Standing) : s.AtRest := by
  have hdone (hr : s.returned = false) := And.intro (settled_queue h hd hr) (settled_hand h hr)
  refine ⟨settled_batch h hd, settled_todo h, ?_, ?_⟩
  · intro he
    by_contra hr
    rw [Bool.not_eq_true] at hr
    have hnone := h .leave trivial
    simp [step, hr, settled_hand h hr, settled_queue h hd hr, he, settled_todo h] at hnone
  · intro hg
    have hmsgs := settled_msgs h hg
    cases hr : s.returned with
    | false => exact ⟨(hdone hr).1, (hdone hr).2, hmsgs⟩
    | true => exact ⟨(hi.closed hr hg).2.1, (hi.closed hr hg).2.2, hmsgs⟩

end

/-- **No waiting for ever.** From wherever the three have come, their own steps
are at most as many as there is work, however they take turns, and they can take
them to the end. There the batch is dealt with; and while there is a window, all
that entered the queue was decoded, and the last picture is on the screen. -/
theorem settles (hd : env.dumpNals = false) {acts : List (Act F)} {s : Pipeline}
    (h : run (step env) (start env) acts = some s) :
    (∀ own t, run (step (F := F) env) s own = some t → (∀ a ∈ own, a.Own) →
      own.length ≤ s.work ∧ (Settled (step (F := F) env) Act.Own t → t.AtRest ∧ (t.gone = false →
        (t.calls.map DecodeCall.job).filterMap NalJob.frame? = t.session.fates.filterMap Fate.job? ∧
          frames t.taken = OpenH264Decoder.new.pictures t.calls ∧
          t.screen.latest = (OpenH264Decoder.new.pictures t.calls).getLast?))) ∧
      ∃ own t, run (step (F := F) env) s own = some t ∧ (∀ a ∈ own, a.Own) ∧
        Settled (step (F := F) env) Act.Own t := by
  refine ⟨?_, exists_settled (fun _ _ _ => work_step) s⟩
  intro own t hrun hown
  refine ⟨Nat.le_of_add_right_le (run_work (fun _ _ _ => work_step) hrun hown), fun hsettled => ?_⟩
  have hall := run_append.mpr ⟨s, h, hrun⟩
  have hstanding := run_preserves (fun _ _ _ hi hs => standing_step hi hs) hall
    ⟨(fun he => nomatch he), fun hr => nomatch hr⟩
  have hrest := atRest hsettled hd hstanding
  refine ⟨hrest, fun hg => ?_⟩
  obtain ⟨hq, hh, hm⟩ := hrest.drained hg
  obtain ⟨-, hjobs, hpictures⟩ := arrival hall
  rw [hq, List.append_nil] at hjobs
  rw [hh, hm, Option.toList_none, List.append_nil, show frames [] = [] from rfl, List.append_nil] at hpictures
  refine ⟨hjobs, hpictures, ?_⟩
  rw [screen, Screen.latest_foldl, hpictures]
  exact Option.or_none

theorem settles_drawn : ∃ s, run (step ⟨true, false, fun _ => true⟩) (start ⟨true, false, fun _ => true⟩)
    (drawing.take 12) = some s ∧ s.work = 87 ∧
      ∃ own t, run (step (F := Float32) ⟨true, false, fun _ => true⟩) s own = some t ∧
        own.length ≤ s.work ∧ t.AtRest := by
  have hwork : (run (step ⟨true, false, fun _ => true⟩) (start ⟨true, false, fun _ => true⟩)
      (drawing.take 12)).map work = some 87 := by decide +kernel
  obtain ⟨s, hs, hleft⟩ := Option.map_eq_some_iff.mp hwork
  obtain ⟨hall, own, t, hrun, hown, hsettled⟩ := settles rfl hs
  obtain ⟨hlength, hrest⟩ := hall own t hrun hown
  exact ⟨s, hs, hleft, own, t, hrun, hlength, (hrest hsettled).1⟩

end

end Pipeline

end DroidMirror.Native
