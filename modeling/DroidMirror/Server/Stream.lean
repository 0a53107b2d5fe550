import DroidMirror.Client.EndToEnd
import DroidMirror.Server.Session

/-! # The server's stream

The session of `crates/server/src/android/run.rs` on its socket, with `write_all` of
`net.rs`: it goes on after a short write, and a write that fails may leave its message cut.
A failed frame ends the session; a failed `Configure` is only logged. As long as the socket
takes nothing more once a message was left cut, a client reads back the messages that were
written whole, and no error (`Sending.client_sees`). -/
namespace DroidMirror.Server
open DroidMirror.Proto DroidMirror.Lib.Run DroidMirror.Lib.Incremental

/-! ## Writing -/

/-- What the calls of `write` answer, one after another. -/
abbrev Writes := List (Except ErrorKind Nat)

/-- `write_all`: the bytes that were taken, and whether all were; `none` if it has not
returned by the last answer. -/
def writeAll : Writes → List UInt8 → List UInt8 × Option Bool
  | _, [] => ([], some true)
  | [], _ :: _ => ([], none)
  | .error .interrupted :: answers, b :: buf => writeAll answers (b :: buf)
  | .error .wouldBlock :: answers, b :: buf => writeAll answers (b :: buf)
  | .error .other :: _, _ :: _ => ([], some false)
  | .ok 0 :: _, _ :: _ => ([], some false)
  | .ok (n + 1) :: answers, b :: buf =>
    let r := writeAll answers ((b :: buf).drop (n + 1))
    ((b :: buf).take (n + 1) ++ r.1, r.2)

/-- No call of `write` takes a byte. -/
def refuses (answers : Writes) : Bool :=
  answers.all fun
    | .ok (_ + 1) => false
    | .ok 0 | .error _ => true

theorem writeAll_refuses {answers : Writes} (h : refuses answers = true) (buf : List UInt8) :
    (writeAll answers buf).1 = [] := by
  fun_induction writeAll answers buf with
  | case3 answers b buf ih => exact ih h
  | case4 answers b buf ih => exact ih h
  | case7 n answers b buf r ih => cases h
  | _ => rfl

/-- What was taken is the front of the buffer, and all of it if `write_all` says so. -/
theorem writeAll_front (answers : Writes) (buf : List UInt8) :
    ∃ rest, (writeAll answers buf).1 ++ rest = buf ∧
      (rest = [] ↔ (writeAll answers buf).2 = some true) := by
  fun_induction writeAll answers buf with
  | case1 => exact ⟨[], rfl, iff_of_true rfl rfl⟩
  | case2 b buf => exact ⟨b :: buf, rfl, iff_of_false (List.cons_ne_nil b buf) (by simp)⟩
  | case3 answers b buf ih => exact ih
  | case4 answers b buf ih => exact ih
  | case5 answers b buf => exact ⟨b :: buf, rfl, iff_of_false (List.cons_ne_nil b buf) (by simp)⟩
  | case6 answers b buf => exact ⟨b :: buf, rfl, iff_of_false (List.cons_ne_nil b buf) (by simp)⟩
  | case7 n answers b buf r ih =>
    obtain ⟨rest, hrest, hall⟩ := ih
    refine ⟨rest, ?_, hall⟩
    rw [List.append_assoc, hrest, List.take_append_drop]

/-- The bytes of a message that can be encoded. -/
def encoding (m : Message) : List UInt8 :=
  match m.encode with
  | .error _ => []
  | .ok b => b

/-- What the writes that failed have left. -/
inductive Harm where
  | none
  /-- Of no message a part was taken. -/
  | missed
  /-- A message was left cut. -/
  | cut
  deriving DecidableEq

/-- The server's end of the socket: what was taken, a record of the writes that failed, and
whether one has not returned. -/
structure Pipe where
  sent : List UInt8
  harm : Harm
  stuck : Bool

namespace Pipe

def new : Pipe := ⟨[], .none, false⟩

/-- A write that failed took this. -/
def fail (p : Pipe) (part : List UInt8) : Pipe :=
  { p with
    sent := p.sent ++ part
    harm := if part.isEmpty && p.harm ≠ .cut then .missed else .cut }

theorem fail_harm (p : Pipe) (part : List UInt8) : (p.fail part).harm ≠ .none := by
  rw [fail]
  split <;> exact Harm.noConfusion

theorem fail_missed {p : Pipe} {part : List UInt8} (h : (p.fail part).harm ≠ .cut) :
    p.harm ≠ .cut ∧ part = [] := by
  rw [fail] at h
  split at h
  · rename_i hmissed
    rw [Bool.and_eq_true, decide_eq_true_eq, List.isEmpty_iff] at hmissed
    exact hmissed.symm
  · exact absurd rfl h

/-- A call of `write_all`, and whether it returned `Ok`. -/
def put (p : Pipe) (answers : Writes) (buf : List UInt8) : Pipe × Bool :=
  match writeAll answers buf with
  | (part, some true) => ({ p with sent := p.sent ++ part }, true)
  | (part, some false) => (p.fail part, false)
  | (part, none) => ({ p with sent := p.sent ++ part, stuck := true }, false)

/-- What a call of `write_all` did: it took the buffer, or of it a front part. -/
inductive Put (p : Pipe) (answers : Writes) (buf : List UInt8) : Pipe × Bool → Prop
  | all (hr : refuses answers = true → buf = []) : Put p answers buf ({ p with sent := p.sent ++ buf }, true)
  | failed {part : List UInt8} (hpart : part <+: buf) (hne : part ≠ buf)
    (hr : refuses answers = true → part = []) : Put p answers buf (p.fail part, false)
  | stuck {part : List UInt8} (hpart : part <+: buf) (hne : part ≠ buf)
    (hr : refuses answers = true → part = []) :
    Put p answers buf ({ p with sent := p.sent ++ part, stuck := true }, false)

theorem put_spec (p : Pipe) (answers : Writes) (buf : List UInt8) : Put p answers buf (p.put answers buf) := by
  obtain ⟨rest, hrest, hall⟩ := writeAll_front answers buf
  have hr : refuses answers = true → (writeAll answers buf).1 = [] := fun h => writeAll_refuses h buf
  have hne (hnot : (writeAll answers buf).2 ≠ some true) : (writeAll answers buf).1 ≠ buf := by
    intro heq
    rw [heq] at hrest
    exact hnot (hall.mp (List.append_right_eq_self.mp hrest))
  unfold put
  match hw : writeAll answers buf with
  | (part, some true) =>
    rw [hw] at hrest hall hr
    obtain rfl : rest = [] := hall.mpr rfl
    rw [List.append_nil] at hrest
    subst hrest
    exact .all hr
  | (part, some false) =>
    rw [hw] at hrest hr hne
    exact .failed ⟨rest, hrest⟩ (hne (by simp)) hr
  | (part, none) =>
    rw [hw] at hrest hr hne
    exact .stuck ⟨rest, hrest⟩ (hne (by simp)) hr

/-- A message that is written if there is one. -/
def send (p : Pipe) (answers : Writes) : Option Message → Pipe × Bool
  | none => (p, true)
  | some m => p.put answers (encoding m)

end Pipe

/-! ## The session with its writes -/

/-- The message of an event. -/
def Event.message : Event → Option Message
  | .call _ => none
  | .announced _ codec width height csd => some (.configure codec width height csd)
  | .frame _ au => some (.videoFrame au.ptsUs au.keyframe au.nal)

/-- What is sent if it can be encoded. -/
def encoded (m : Message) : Option Message :=
  match m.encode with
  | .error _ => none
  | .ok _ => some m

theorem encoded_some {m m' : Message} (h : encoded m = some m') : m' = m ∧ ∃ b, m.encode = .ok b := by
  unfold encoded at h
  split at h
  · cases h
  · rename_i b hb
    cases h
    exact ⟨rfl, b, hb⟩

namespace Serving
variable (F : Type) [F32Unsigned F] (cfg : ServerConfig)

/-- The frame a turn writes. -/
def frameOf (s : Serving) (t : Turn) : Option Message :=
  let s := s.receive F t
  if s.ended then none
  else
    ((s.apply t).capture.poll t.output).2.bind fun au =>
      encoded (.videoFrame au.ptsUs au.keyframe au.nal)

/-- The `Configure` a turn writes. -/
def configureOf (s : Serving) (t : Turn) : Option Message :=
  let s := s.upToCheck F t
  if s.ended then none
  else
    (s.change? t).bind fun now =>
      let (w, h) := fitted F cfg now
      if !t.started then none
      else
        encoded (.configure (if cfg.h265 then .h265 else .h264) w.toUInt16 h.toUInt16
          (s.rebuilt cfg t w h).csd)

/-- The handshake of a launch. -/
def hello (l : Launch) : Handshake :=
  let info := l.display.getD ⟨1080, 1920, 0, "Android"⟩
  let (w, h) := fitMaxSize F info.width.toUInt32 info.height.toUInt32 cfg.maxSize
  let capture := (Capture.start 0 w.toInt32 h.toInt32 cfg.bitrate cfg.maxFps cfg.h265).waitCsd l.csd
  { version := VERSION, codec := capture.codecKind, width := w.toUInt16, height := h.toUInt16
    csd := capture.csd, deviceName := info.name
    caps := (if cfg.h265 then CAP_H265 else 0) ||| (if l.backend = .uinput then CAP_UINPUT else 0) }

end Serving

/-- A turn, and what the writes of its frame and of its `Configure` answer. -/
structure WritingTurn where
  turn : Turn
  frame : Writes
  configure : Writes

structure Sending where
  serving : Serving
  pipe : Pipe

namespace Sending
variable (F : Type) [F32Unsigned F] (cfg : ServerConfig)

/-- The session once its handshake was written. -/
def begin_ (l : Launch) (answers : Writes) : Option Sending :=
  match encodeHandshake (Serving.hello F cfg l) with
  | .error _ => none
  | .ok hb =>
    let (pipe, written) := Pipe.new.put answers hb
    (Serving.begin_ F cfg { l with written }).map fun serving => ⟨serving, pipe⟩

/-- A turn goes no further than a write that does not return. -/
def step (x : Sending) (t : WritingTurn) : Option Sending :=
  if x.pipe.stuck || x.serving.ended then none
  else
    let (pipe, frameWritten) := x.pipe.send t.frame (x.serving.frameOf F t.turn)
    if pipe.stuck then some ⟨x.serving.receive F t.turn, pipe⟩
    else
      let turn := { t.turn with frameWritten }
      let (pipe, configureWritten) := pipe.send t.configure (x.serving.configureOf F cfg turn)
      if pipe.stuck then some ⟨x.serving.upToCheck F turn, pipe⟩
      else (x.serving.step F cfg { turn with configureWritten }).map fun serving => ⟨serving, pipe⟩

end Sending

/-! ## What a turn adds -/

namespace Serving
section
variable {F : Type} [F32Unsigned F] {cfg : ServerConfig}

theorem begin_written {l : Launch} {s : Serving} (h : begin_ F cfg l = some s) : l.written = true := by
  unfold begin_ at h
  simp only at h
  split at h
  · cases h
  · split at h
    · cases h
    · split at h
      · assumption
      · cases h

/-- The messages of a log. -/
def messages (s : Serving) : List Message := s.log.filterMap Event.message

theorem messages_receive (s : Serving) (t : Turn) : (s.receive F t).messages = s.messages := by
  obtain ⟨demux, ended, heq⟩ := receive_eq F s t
  have hcalls : ((s.dispatched F t).map Event.call).filterMap Event.message = [] := by
    rw [List.filterMap_eq_nil_iff]
    intro e he
    obtain ⟨c, -, rfl⟩ := List.mem_map.mp he
    rfl
  rw [heq, messages, messages, List.filterMap_append, hcalls, List.append_nil]

theorem messages_upToCheck (s : Serving) (t : Turn) :
    (s.upToCheck F t).messages = s.messages ++ (s.frameOf F t).toList := by
  unfold upToCheck frameOf
  simp only
  split
  · rw [messages_receive, Option.toList_none, List.append_nil]
  · rw [← messages_receive (F := F) s t, sendFrame]
    have hlog : ((s.receive F t).apply t).messages = (s.receive F t).messages := rfl
    rw [← hlog]
    match hpoll : ((s.receive F t).apply t).capture.poll t.output with
    | (capture, none) => simp [messages]
    | (capture, some au) =>
      simp only [Option.bind_some, encoded]
      cases (Message.videoFrame au.ptsUs au.keyframe au.nal).encode with
      | error e => simp [messages]
      | ok b => simp [messages, Event.message]

/-- A frame that is not written whole ends the session. -/
theorem upToCheck_ended {s : Serving} {t : Turn} {m : Message} (hm : s.frameOf F t = some m)
    (hw : t.frameWritten = false) : (s.upToCheck F t).ended = true := by
  unfold frameOf at hm
  unfold upToCheck
  simp only at hm ⊢
  split at hm
  · cases hm
  · rename_i hopen
    rw [if_neg hopen, sendFrame]
    match hpoll : ((s.receive F t).apply t).capture.poll t.output with
    | (capture, none) =>
      rw [hpoll] at hm
      cases hm
    | (capture, some au) =>
      rw [hpoll] at hm
      obtain ⟨-, b, hb⟩ := encoded_some hm
      simp [hb, hw]

theorem configureOf_over {s : Serving} {t : Turn} (h : (s.upToCheck F t).ended = true) :
    s.configureOf F cfg t = none := by
  unfold configureOf
  exact if_pos h

/-- The last turn of a session only releases the encoder. -/
theorem step_over {s s' : Serving} {t : Turn} (hs : s.ended = false) (h : (s.upToCheck F t).ended = true)
    (hstep : s.step F cfg t = some s') : s'.ended = true ∧ s'.messages = (s.upToCheck F t).messages := by
  unfold step turn at hstep
  rw [if_neg (by simp [hs])] at hstep
  simp only [h, if_true] at hstep
  cases hstep
  exact ⟨h, rfl⟩

theorem messages_turn (s : Serving) (t : Turn) : (s.turn F cfg t).1.messages =
    (s.upToCheck F t).messages ++ if t.configureWritten then (s.configureOf F cfg t).toList else [] := by
  unfold turn configureOf
  simp only
  split
  · simp [close, messages]
  · unfold checkDisplay
    cases hc : (s.upToCheck F t).change? t with
    | none => simp
    | some now =>
      simp only [Option.bind_some, reconfigure]
      split
      · simp [messages]
      · simp only [encoded]
        split
        · rename_i e he
          simp only [rebuilt] at he ⊢
          simp only [he]
          simp [messages]
        · rename_i b hb
          simp only [rebuilt] at hb ⊢
          simp only [hb]
          split
          · simp [messages, Event.message]
          · simp [messages]

end
end Serving

/-! ## What is sent can be read -/

/-- A message of the server that fits a frame. -/
def Sendable (m : Message) : Prop := Client.ServerSent m ∧ m.Fits

theorem encode_sendable {m : Message} (h : Sendable m) : m.encode = .ok (encoding m) := by
  obtain ⟨b, hb, -⟩ := encode_spells h.2
  rw [encoding, hb]

theorem sendable_frame {ptsUs : UInt64} {keyframe : Bool} {nal : List UInt8} {m : Message}
    (h : encoded (.videoFrame ptsUs keyframe nal) = some m) : Sendable m := by
  obtain ⟨rfl, b, hb⟩ := encoded_some h
  refine ⟨trivial, ?_, trivial⟩
  obtain ⟨p, hp, hframe⟩ := bind_ok hb
  obtain ⟨hnal, hp⟩ := of_guard hp
  have hlen : p.length = 13 + nal.length := by
    rw [← Except.ok.inj hp]
    simp
    omega
  have htotal := (encodeFrame_iff.mp hframe).1
  rw [max_frame_len_toNat] at hnal htotal ⊢
  rw [Message.payloadLen]
  omega

theorem sendable_configure {codec : Codec} {width height : UInt16} {csd : List UInt8} {m : Message}
    (h : encoded (.configure codec width height csd) = some m) : Sendable m := by
  obtain ⟨rfl, hb⟩ := encoded_some h
  have hcsd := (Serving.encode_configure_iff codec width height csd).mp hb
  refine ⟨trivial, ?_, hcsd⟩
  rw [max_frame_len_toNat, Message.payloadLen]
  omega

namespace Serving
variable {F : Type} [F32Unsigned F] {cfg : ServerConfig}

theorem sendable_frameOf {s : Serving} {t : Turn} {m : Message} (h : s.frameOf F t = some m) : Sendable m := by
  unfold frameOf at h
  simp only at h
  split at h
  · cases h
  · obtain ⟨au, -, hm⟩ := Option.bind_eq_some_iff.mp h
    exact sendable_frame hm

theorem sendable_configureOf {s : Serving} {t : Turn} {m : Message} (h : s.configureOf F cfg t = some m) :
    Sendable m := by
  unfold configureOf at h
  simp only at h
  split at h
  · cases h
  · obtain ⟨now, -, hm⟩ := Option.bind_eq_some_iff.mp h
    split at hm
    · cases hm
    · exact sendable_configure hm

end Serving

/-! ## What the socket carries -/

/-- The handshake and the first of the messages, whole, and of a further one maybe a part; all of
them and no part where `ok`. -/
structure Carries (hb : List UInt8) (messages : List Message) (p : Pipe) (ok : Prop) : Prop where
  sendable : ∀ m ∈ messages, Sendable m
  split : ∃ whole part, whole <+: messages ∧ p.sent = hb ++ (whole.map encoding).flatten ++ part ∧
    (part = [] ∨ ∃ m, Sendable m ∧ part <+: encoding m ∧ part ≠ encoding m) ∧
    (ok → whole = messages ∧ part = [])

theorem Carries.weaken {hb : List UInt8} {messages : List Message} {p : Pipe} {ok ok' : Prop}
    (h : Carries hb messages p ok) (hok : ok' → ok) : Carries hb messages p ok' := by
  obtain ⟨whole, part, hwhole, hsent, hpart, hall⟩ := h.split
  exact ⟨h.sendable, whole, part, hwhole, hsent, hpart, fun h' => hall (hok h')⟩

/-- A message that is in the log and was not written whole. -/
theorem Carries.grow {hb : List UInt8} {messages : List Message} {p : Pipe} {ok : Prop}
    (h : Carries hb messages p ok) {m : Message} (hm : Sendable m) (hok : ¬ ok) :
    Carries hb (messages ++ [m]) p ok := by
  obtain ⟨whole, part, hwhole, hsent, hpart, -⟩ := h.split
  exact ⟨List.forall_mem_append.mpr ⟨h.sendable, List.forall_mem_singleton.mpr hm⟩, whole, part,
    hwhole.trans (List.prefix_append messages [m]), hsent, hpart, fun hok' => absurd hok' hok⟩

/-- What a write took of a message, short of all of it. -/
theorem Carries.taken {hb : List UInt8} {messages : List Message} {p : Pipe} {m : Message} {taken : List UInt8}
    (h : Carries hb messages p (p.harm ≠ .cut)) (hm : Sendable m) (hfront : taken <+: encoding m)
    (hne : taken ≠ encoding m) (hr : p.harm = .cut → taken = []) :
    ∃ whole part, whole <+: messages ∧ p.sent ++ taken = hb ++ (whole.map encoding).flatten ++ part ∧
      (part = [] ∨ ∃ m, Sendable m ∧ part <+: encoding m ∧ part ≠ encoding m) ∧
      (p.harm ≠ .cut ∧ taken = [] → whole = messages ∧ part = []) := by
  obtain ⟨whole, part, hwhole, hsent, hpart, hall⟩ := h.split
  by_cases hcut : p.harm = .cut
  · refine ⟨whole, part, hwhole, ?_, hpart, fun hok => absurd hcut hok.1⟩
    rw [hr hcut, List.append_nil, hsent]
  · obtain ⟨rfl, rfl⟩ := hall hcut
    refine ⟨whole, taken, List.prefix_rfl, ?_, .inr ⟨m, hm, hfront, hne⟩, fun hok => ⟨rfl, hok.2⟩⟩
    rw [hsent, List.append_nil]

/-- A write in a session that goes on: a message that comes whole comes after the others; else
a write was stuck, or failed. -/
theorem Carries.put {hb : List UInt8} {messages : List Message} {p p' : Pipe} {answers : Writes}
    {m : Message} {written : Bool} (h : Carries hb messages p (p.harm ≠ .cut)) (hs : p.stuck = false)
    (hr : p.harm = .cut → refuses answers = true) (hm : Sendable m)
    (hput : p.put answers (encoding m) = (p', written)) :
    (p'.stuck = true ∧ written = false ∧ Carries hb messages p' False) ∨
      (p'.stuck = false ∧ (if written then p'.harm = p.harm else p'.harm ≠ .none) ∧
        Carries hb (messages ++ if written then [m] else []) p' (p'.harm ≠ .cut)) := by
  have hspec := p.put_spec answers (encoding m)
  rw [hput] at hspec
  cases hspec with
  | all hrefused =>
    obtain ⟨whole, part, hwhole, hsent, hpart, hall⟩ := h.split
    refine .inr ⟨hs, rfl, List.forall_mem_append.mpr ⟨h.sendable, List.forall_mem_singleton.mpr hm⟩, ?_⟩
    by_cases hcut : p.harm = .cut
    · refine ⟨whole, part, hwhole.trans (List.prefix_append _ _), ?_, hpart, fun hn => absurd hcut hn⟩
      rw [hrefused (hr hcut), List.append_nil, hsent]
    · obtain ⟨rfl, rfl⟩ := hall hcut
      refine ⟨whole ++ [m], [], List.prefix_rfl, ?_, .inl rfl, fun _ => ⟨rfl, rfl⟩⟩
      simp [hsent]
  | failed hfront hne hrefused =>
    obtain ⟨whole, part, hwhole, hsent, hpart, hall⟩ := h.taken hm hfront hne (hrefused ∘ hr)
    rw [if_neg Bool.false_ne_true, if_neg Bool.false_ne_true, List.append_nil]
    refine .inr ⟨hs, p.fail_harm _, h.sendable, whole, part, hwhole, hsent, hpart, ?_⟩
    exact fun hharm => hall (Pipe.fail_missed hharm)
  | stuck hfront hne hrefused =>
    obtain ⟨whole, part, hwhole, hsent, hpart, -⟩ := h.taken hm hfront hne (hrefused ∘ hr)
    exact .inl ⟨rfl, rfl, h.sendable, whole, part, hwhole, hsent, hpart, False.elim⟩

theorem Carries.send {hb : List UInt8} {messages : List Message} {p p' : Pipe} {answers : Writes}
    {message : Option Message} {written : Bool} (h : Carries hb messages p (p.harm ≠ .cut))
    (hs : p.stuck = false) (hr : p.harm = .cut → refuses answers = true) (hm : ∀ m, message = some m → Sendable m)
    (hsend : p.send answers message = (p', written)) :
    (p'.stuck = true ∧ written = false ∧ Carries hb messages p' False) ∨
      (p'.stuck = false ∧ (if written then p'.harm = p.harm else p'.harm ≠ .none ∧ message ≠ none) ∧
        Carries hb (messages ++ if written then message.toList else []) p' (p'.harm ≠ .cut)) := by
  cases message with
  | none =>
    obtain ⟨rfl, rfl⟩ := Prod.mk.inj hsend
    exact .inr ⟨hs, rfl, by simpa using h⟩
  | some m =>
    refine (h.put hs hr (hm m rfl) hsend).imp_right ?_
    intro ⟨hs', hharm, hcarries⟩
    refine ⟨hs', ?_, hcarries⟩
    cases written with
    | true => exact hharm
    | false => exact ⟨hharm, Option.some_ne_none m⟩

namespace Sending
section
variable {F : Type} [F32Unsigned F] {cfg : ServerConfig}

/-- The condition: once a message was left cut, the socket takes nothing more. -/
def Sealed (x : Sending) (t : WritingTurn) : Prop :=
  x.pipe.harm = .cut → refuses t.frame = true ∧ refuses t.configure = true

instance (x : Sending) (t : WritingTurn) : Decidable (x.Sealed t) := inferInstanceAs (Decidable (_ → _))

/-- The socket carries the messages of the log after the handshake. -/
structure Sound (hb : List UInt8) (x : Sending) (messages : List Message) : Prop where
  log : ∃ first, x.serving.messages = first :: messages
  carries : Carries hb messages x.pipe (x.pipe.harm = .none ∧ x.pipe.stuck = false)
  going : x.serving.ended = false → x.pipe.stuck = false → Carries hb messages x.pipe (x.pipe.harm ≠ .cut)

omit [F32Unsigned F] in
theorem sound_stuck {hb : List UInt8} {x : Sending} {messages : List Message}
    (hlog : ∃ first, x.serving.messages = first :: messages) (hs : x.pipe.stuck = true)
    (h : Carries hb messages x.pipe False) : x.Sound hb messages := by
  refine ⟨hlog, h.weaken fun hok => ?_, fun _ hs' => ?_⟩
  · exact absurd (hs.symm.trans hok.2) Bool.noConfusion
  · exact absurd (hs.symm.trans hs') Bool.noConfusion

omit [F32Unsigned F] in
theorem sound_going {hb : List UInt8} {x : Sending} {messages : List Message}
    (hlog : ∃ first, x.serving.messages = first :: messages)
    (h : Carries hb messages x.pipe (x.pipe.harm ≠ .cut)) : x.Sound hb messages := by
  refine ⟨hlog, h.weaken fun hok => ?_, fun _ _ => h⟩
  rw [hok.1]
  exact Harm.noConfusion

/-- A frame that was not written whole is the last message. -/
theorem sound_unwritten {hb : List UInt8} {s s' : Serving} {t : Turn} {first m : Message}
    {messages : List Message} {pipe : Pipe} (hlog : s.messages = first :: messages) (hs : s.ended = false)
    (hm : s.frameOf F t = some m) (hharm : pipe.harm ≠ .none)
    (hsent : Carries hb messages pipe (pipe.harm ≠ .cut))
    (hstep : s.step F cfg { t with frameWritten := false, configureWritten := true } = some s') :
    Sound hb ⟨s', pipe⟩ (messages ++ [m]) := by
  have hover : (s.upToCheck F { t with frameWritten := false, configureWritten := true }).ended = true :=
    Serving.upToCheck_ended hm rfl
  obtain ⟨hended, hmessages⟩ := Serving.step_over hs hover hstep
  refine ⟨⟨first, ?_⟩, ?_, fun hgo => ?_⟩
  · rw [hmessages, Serving.messages_upToCheck, hlog, List.cons_append]
    exact congrArg (first :: messages ++ Option.toList ·) hm
  · refine (hsent.weaken fun hok => absurd hok.1 hharm).grow (Serving.sendable_frameOf hm) ?_
    exact fun hok => hharm hok.1
  · exact absurd (hended.symm.trans hgo) Bool.noConfusion

theorem sound_step {hb : List UInt8} {x x' : Sending} {t : WritingTurn} {messages : List Message}
    (h : x.Sound hb messages) (hok : x.Sealed t) (hstep : x.step F cfg t = some x') :
    ∃ messages', x'.Sound hb messages' := by
  obtain ⟨⟨first, hlog⟩, -, hgoing⟩ := h
  unfold step at hstep
  split at hstep
  · cases hstep
  · rename_i hopen
    rw [Bool.or_eq_true, not_or, Bool.not_eq_true, Bool.not_eq_true] at hopen
    obtain ⟨hstuck, hended⟩ := hopen
    have hcarries := hgoing hended hstuck
    match hframe : x.pipe.send t.frame (x.serving.frameOf F t.turn) with
    | (pipe, frameWritten) =>
      rw [hframe] at hstep
      simp only at hstep
      rcases hcarries.send hstuck (fun hcut => (hok hcut).1) (fun m => Serving.sendable_frameOf) hframe with
        ⟨hs, -, hcut⟩ | ⟨hs, hlost, hsent⟩
      · rw [if_pos hs] at hstep
        cases hstep
        exact ⟨messages, sound_stuck ⟨first, (Serving.messages_receive x.serving t.turn).trans hlog⟩ hs hcut⟩
      rw [if_neg (by simp [hs])] at hstep
      cases frameWritten with
      | false =>
        obtain ⟨hharm, hsome⟩ := hlost
        obtain ⟨m, hm⟩ := Option.ne_none_iff_exists'.mp hsome
        have hover : (x.serving.upToCheck F { t.turn with frameWritten := false }).ended = true :=
          Serving.upToCheck_ended hm rfl
        simp only [Serving.configureOf_over hover, Pipe.send] at hstep
        rw [if_neg (by simp [hs])] at hstep
        obtain ⟨serving, hserving, rfl⟩ := Option.map_eq_some_iff.mp hstep
        rw [if_neg Bool.false_ne_true, List.append_nil] at hsent
        exact ⟨_, sound_unwritten hlog hended hm hharm hsent hserving⟩
      | true =>
        rw [if_pos rfl] at hlost
        match hconf : pipe.send t.configure (x.serving.configureOf F cfg { t.turn with frameWritten := true }) with
        | (pipe', configureWritten) =>
          rw [hconf] at hstep
          simp only at hstep
          have hlog' : (x.serving.upToCheck F { t.turn with frameWritten := true }).messages =
              first :: (messages ++ (x.serving.frameOf F t.turn).toList) := by
            rw [Serving.messages_upToCheck, hlog, List.cons_append]
            rfl
          have hsealed : pipe.harm = .cut → refuses t.configure = true := fun hcut => (hok (hlost ▸ hcut)).2
          rcases hsent.send hs hsealed (fun m => Serving.sendable_configureOf) hconf with
            ⟨hs', -, hcut⟩ | ⟨hs', -, hsent'⟩
          · rw [if_pos hs'] at hstep
            cases hstep
            exact ⟨_, sound_stuck ⟨first, hlog'⟩ hs' hcut⟩
          rw [if_neg (by simp [hs'])] at hstep
          obtain ⟨serving, hserving, rfl⟩ := Option.map_eq_some_iff.mp hstep
          unfold Serving.step at hserving
          rw [if_neg (by simp [hended])] at hserving
          cases hserving
          refine ⟨_, sound_going ⟨first, ?_⟩ hsent'⟩
          rw [Serving.messages_turn]
          exact congrArg (· ++ _) hlog'

theorem sound_begin {l : Launch} {answers : Writes} {x : Sending} (h : begin_ F cfg l answers = some x) :
    ∃ hb, encodeHandshake (Serving.hello F cfg l) = .ok hb ∧ x.Sound hb [] := by
  unfold begin_ at h
  match hb : encodeHandshake (Serving.hello F cfg l) with
  | .error e =>
    rw [hb] at h
    cases h
  | .ok bytes =>
    rw [hb] at h
    match hput : Pipe.new.put answers bytes with
    | (pipe, written) =>
      simp only [hput] at h
      obtain ⟨s, hs, rfl⟩ := Option.map_eq_some_iff.mp h
      obtain ⟨w, height, codec, width, height', csd, -, hlog, -, -⟩ := Serving.begin_eq F cfg hs
      have hmessages : s.messages = [.configure codec width height' csd] := by
        rw [Serving.messages, hlog]
        rfl
      have hwritten : written = true := Serving.begin_written hs
      have hspec := Pipe.put_spec Pipe.new answers bytes
      rw [hput, hwritten] at hspec
      refine ⟨bytes, rfl, sound_going ⟨_, hmessages⟩ ⟨(fun m hm => nomatch hm), [], [], List.prefix_rfl, ?_,
        .inl rfl, fun _ => ⟨rfl, rfl⟩⟩⟩
      cases hspec with
      | all => simp [Pipe.new]

end
end Sending
end DroidMirror.Server

/-! ## What a client reads -/

namespace DroidMirror.Client
open DroidMirror.Proto DroidMirror.Lib.Incremental DroidMirror.Server

theorem replay_messages {ms : List Message} (h : ∀ m ∈ ms, ServerSent m) :
    ∀ c : Client, c.skipUntilKey = false → (replay c (ms.map .message)).2 = ms.flatMap event := by
  induction ms with
  | nil => exact fun _ _ => rfl
  | cons m ms ih =>
    intro c hc
    obtain ⟨hout, hnext⟩ := applyMessage_event c (h m List.mem_cons_self)
    have hno : ¬ (isDelta m = true ∧ c.skipUntilKey = true) := fun hd => by simp [hc] at hd
    have hc' : (applyMessage c m).1.skipUntilKey = false := by
      rw [Bool.eq_false_iff]
      intro hs
      rw [hc] at hnext
      exact nomatch (hnext.mp hs).1
    rw [List.map_cons, replay, List.flatMap_cons]
    show (applyMessage c m).2 ++ (replay (applyMessage c m).1 _).2 = _
    rw [hout, if_neg hno, ih (fun m' hm' => h m' (List.mem_cons_of_mem m hm')) _ hc']

/-- The handshake's events. -/
def greeting (h : Handshake) : List Out := [.deviceName h.deviceName, .configure h.codec h.csd h.width h.height]

theorem sendable_spelled {ms : List Message} (h : ∀ m ∈ ms, Sendable m) :
    wire.Spelled true (ms.map fun m => (encoding m, .message m)) := by
  induction ms with
  | nil => exact .nil true
  | cons m ms ih =>
    have hm := h m List.mem_cons_self
    exact .cons (message_spells hm.2 (encode_sendable hm)) (ih fun m' hm' => h m' (List.mem_cons_of_mem m hm'))

/-- Of the front of a stream the messages that are whole in it are read, and no error is met. -/
theorem parse_front {h : Handshake} {hb : List UInt8} {ms : List Message} {bytes : List UInt8}
    (hv : h.version = VERSION) (hh : encodeHandshake h = .ok hb) (hms : ∀ m ∈ ms, Sendable m)
    (hfront : bytes <+: hb ++ (ms.map encoding).flatten) :
    (wire.parse false bytes).err = none ∧ ((bytes.length < hb.length ∧ (wire.parse false bytes).items = []) ∨
      ∃ read rest, bytes = hb ++ (read.map encoding).flatten ++ rest ∧
        (wire.parse false bytes).items = .handshake h :: read.map .message ∧ (ms = read ∧ rest = [] ∨
          ∃ m more, ms = read ++ m :: more ∧ rest <+: encoding m ∧ rest ≠ encoding m)) := by
  obtain ⟨t, ht⟩ := hfront
  have hspelled : wire.Spelled false ((hb, .handshake h) :: ms.map fun m => (encoding m, Item.message m)) :=
    .cons (handshake_spells hv hh) (sendable_spelled hms)
  have hbytes : bytes ++ t =
      (((hb, Item.handshake h) :: ms.map fun m => (encoding m, Item.message m)).map Prod.fst).flatten := by
    rw [ht]
    simp [Function.comp_def]
  obtain ⟨l₁, l₂, q, rest, hl, hread, hafter, hhead, -, hparse⟩ :=
    hspelled.parse_cut (by intro p; cases p <;> rfl) hbytes
  rw [hparse]
  refine ⟨rfl, ?_⟩
  cases l₁ with
  | nil =>
    refine .inl ⟨?_, rfl⟩
    rw [hread]
    exact hhead hb (.handshake h) _ hl.symm
  | cons x l₁ =>
    obtain ⟨rfl, hrest⟩ := List.cons.inj hl
    obtain ⟨read, left, rfl, rfl, rfl⟩ := List.map_eq_append_iff.mp hrest
    refine .inr ⟨read, rest, ?_, by simp [Function.comp_def], ?_⟩
    · rw [hread]
      simp [Function.comp_def]
    · cases left with
      | nil =>
        rw [List.map_nil, List.map_nil, List.flatten_nil, List.append_eq_nil_iff] at hafter
        exact .inl ⟨List.append_nil read, hafter.1⟩
      | cons m more =>
        have hlt : rest.length < (encoding m).length := hhead _ _ _ rfl
        refine .inr ⟨m, more, rfl, ?_, ?_⟩
        · rw [List.map_cons, List.map_cons, List.flatten_cons] at hafter
          exact List.prefix_of_prefix_length_le ⟨t, hafter⟩ (List.prefix_append _ _) (Nat.le_of_lt hlt)
        · rintro rfl
          exact Nat.lt_irrefl _ hlt

/-- A client that is fed a stream without an error gives the events of what is whole in it. -/
theorem feed_whole {chunks : List (List UInt8)} (herr : (wire.parse false chunks.flatten).err = none) :
    (feed new chunks).2 = (replay new (wire.parse false chunks.flatten).items).2 := by
  rw [feed_flatten settled_new, onBytes_parse rfl, show new.buf ++ chunks.flatten = chunks.flatten from rfl,
    show new.handshake = false from rfl, conclude_ok _ herr]

theorem replay_hello (h : Handshake) {read : List Message} (hread : ∀ m ∈ read, Sendable m) :
    (replay new (.handshake h :: read.map .message)).2 = greeting h ++ read.flatMap event := by
  have hmessages := replay_messages (fun m hm => (hread m hm).1) (applyHandshake new h).1 rfl
  show (applyHandshake new h).2 ++ _ = _
  exact congrArg ((applyHandshake new h).2 ++ ·) hmessages

end DroidMirror.Client

namespace DroidMirror.Server.Sending
open DroidMirror.Proto DroidMirror.Lib.Run DroidMirror.Client
variable {F : Type} [F32Unsigned F] {cfg : ServerConfig}

/-- The frames and the configurations of a log, in order. -/
def sentAfterHello (x : Sending) : List Message := x.serving.messages.tail

/-- What the client saw of the messages: the first ones, in order, and of the next one a part of
the bytes. -/
structure Seen (hb : List UInt8) (h : Handshake) (messages read : List Message) (received : List UInt8)
    (outs : List Out) : Prop where
  front : read <+: messages
  bytes : ∃ rest, received = hb ++ (read.map encoding).flatten ++ rest ∧
    (rest = [] ∨ ∃ m, Sendable m ∧ rest <+: encoding m ∧ rest ≠ encoding m)
  events : outs = greeting h ++ read.flatMap event

/-- What is whole in the first bytes of what the socket carries: messages in order from the first. -/
theorem carries_front {h : Handshake} {hb : List UInt8} {messages : List Message} {p : Pipe} {ok : Prop}
    {bytes : List UInt8} (hcarries : Carries hb messages p ok) (hv : h.version = VERSION)
    (hh : encodeHandshake h = .ok hb) (hread : bytes <+: p.sent) :
    (wire.parse false bytes).err = none ∧ ((bytes.length < hb.length ∧ (wire.parse false bytes).items = []) ∨
      ∃ read, read <+: messages ∧ (wire.parse false bytes).items = .handshake h :: read.map .message ∧
        (∃ rest, bytes = hb ++ (read.map encoding).flatten ++ rest ∧
          (rest = [] ∨ ∃ m, Sendable m ∧ rest <+: encoding m ∧ rest ≠ encoding m)) ∧
        (bytes = p.sent → ok → read = messages)) := by
  obtain ⟨whole, part, hwhole, hsent, hpart, hall⟩ := hcarries.split
  have hwholes : ∀ m ∈ whole, Sendable m := fun m hm => hcarries.sendable m (hwhole.subset hm)
  by_cases hnone : part = []
  · rw [hnone, List.append_nil] at hsent
    rw [hsent] at hread ⊢
    obtain ⟨herr, hfront⟩ := parse_front hv hh hwholes hread
    refine ⟨herr, hfront.imp_right ?_⟩
    rintro ⟨read, rest, hbytes, hitems, ⟨rfl, hrest⟩ | ⟨m, more, rfl, hrest, hshort⟩⟩
    · exact ⟨whole, hwhole, hitems, ⟨rest, hbytes, .inl hrest⟩, fun _ hok => (hall hok).1⟩
    · have hm : Sendable m := hwholes m (List.mem_append_right read List.mem_cons_self)
      refine ⟨read, (List.prefix_append read _).trans hwhole, hitems, ⟨rest, hbytes, .inr ⟨m, hm, hrest, hshort⟩⟩,
        ?_⟩
      intro heq
      -- all of the bytes have the next message whole among them
      rw [hbytes] at heq
      simp only [List.map_append, List.flatten_append, List.map_cons, List.flatten_cons, List.append_assoc,
        List.append_cancel_left_eq] at heq
      rw [heq] at hrest hshort
      exact absurd (List.IsPrefix.eq_of_length_le (List.prefix_append _ _) hrest.length_le).symm hshort
  · obtain ⟨cut, hcut, hfront, hne⟩ := hpart.resolve_left hnone
    have hclosed : ¬ ok := fun hok => hnone (hall hok).2
    have hshorter : (hb ++ (whole.map encoding).flatten ++ part).length <
        (hb ++ ((whole ++ [cut]).map encoding).flatten).length := by
      have hlt : part.length < (encoding cut).length :=
        Nat.lt_of_le_of_ne hfront.length_le fun heq => hne (hfront.eq_of_length heq)
      simp only [List.map_append, List.map_singleton, List.flatten_append, List.flatten_singleton,
        List.length_append]
      omega
    have hread' : bytes <+: hb ++ ((whole ++ [cut]).map encoding).flatten := by
      rw [hsent] at hread
      refine hread.trans ?_
      simpa using hfront
    have hsendable : ∀ m ∈ whole ++ [cut], Sendable m :=
      List.forall_mem_append.mpr ⟨hwholes, List.forall_mem_singleton.mpr hcut⟩
    obtain ⟨herr, hparsed⟩ := parse_front hv hh hsendable hread'
    refine ⟨herr, hparsed.imp_right ?_⟩
    rintro ⟨read, rest, hbytes, hitems, ⟨rfl, rfl⟩ | ⟨m, more, hsplit, hrest, hshort⟩⟩
    · have hlen := hread.length_le
      rw [hsent, hbytes, List.append_nil] at hlen
      exact absurd hlen (Nat.not_le.mpr hshorter)
    · have hm : Sendable m := hsendable m (hsplit ▸ List.mem_append_right read List.mem_cons_self)
      have hwhole' : read <+: whole := by
        rcases List.prefix_concat_iff.mp (hsplit ▸ List.prefix_append read (m :: more)) with rfl | hpre
        · simp at hsplit
        · exact hpre
      exact ⟨read, hwhole'.trans hwhole, hitems, ⟨rest, hbytes, .inr ⟨m, hm, hrest, hshort⟩⟩,
        fun _ hok => absurd hok hclosed⟩

theorem carries_run {l : Launch} {answers : Writes} {turns : List WritingTurn} {x y : Sending}
    (hbegin : begin_ F cfg l answers = some x) (hrun : run (step F cfg) x turns = some y)
    (hsealed : Meets (step F cfg) Sealed x turns) :
    ∃ hb, encodeHandshake (Serving.hello F cfg l) = .ok hb ∧
      Carries hb y.sentAfterHello y.pipe (y.pipe.harm = .none ∧ y.pipe.stuck = false) := by
  obtain ⟨hb, hencode, hsound⟩ := sound_begin hbegin
  have hstep (x : Sending) (t : WritingTurn) (x' : Sending) (hi : ∃ messages, x.Sound hb messages)
      (hok : x.Sealed t) (hs : x.step F cfg t = some x') : ∃ messages, x'.Sound hb messages := by
    obtain ⟨messages, h⟩ := hi
    exact sound_step h hok hs
  obtain ⟨messages, hy⟩ := run_invariant hstep hrun hsealed ⟨[], hsound⟩
  obtain ⟨first, hlog⟩ := hy.log
  refine ⟨hb, hencode, ?_⟩
  rw [sentAfterHello, hlog, List.tail_cons]
  exact hy.carries

/-- **The stream.** However the writes of a session answer, if only the socket takes nothing more
once a message was left cut, and however its bytes come to a client: the client gives the
events of the messages that came whole, in order, and nothing else. -/
theorem client_sees {l : Launch} {answers : Writes} {turns : List WritingTurn} {x y : Sending}
    (hbegin : begin_ F cfg l answers = some x) (hrun : run (step F cfg) x turns = some y)
    (hsealed : Meets (step F cfg) Sealed x turns)
    {chunks : List (List UInt8)} (hread : chunks.flatten <+: y.pipe.sent) :
    ∃ hb, encodeHandshake (Serving.hello F cfg l) = .ok hb ∧
      (chunks.flatten.length < hb.length ∧ (feed Client.new chunks).2 = [] ∨
        ∃ read, Seen hb (Serving.hello F cfg l) y.sentAfterHello read chunks.flatten
            (feed Client.new chunks).2 ∧
          (chunks.flatten = y.pipe.sent → y.pipe.harm = .none ∧ y.pipe.stuck = false →
            read = y.sentAfterHello)) := by
  obtain ⟨hb, hencode, hcarries⟩ := carries_run hbegin hrun hsealed
  obtain ⟨herr, hfront⟩ := carries_front hcarries rfl hencode hread
  rw [feed_whole herr]
  refine ⟨hb, hencode, hfront.imp ?_ ?_⟩
  · rintro ⟨hshort, hitems⟩
    rw [hitems]
    exact ⟨hshort, rfl⟩
  · rintro ⟨read, hfirst, hitems, hbytes, hall⟩
    rw [hitems]
    exact ⟨read, ⟨hfirst, hbytes, replay_hello _ fun m hm => hcarries.sendable m (hfirst.subset hm)⟩, hall⟩

/-- A frame written in two goes, a `Configure` of which nothing is taken, a frame, a `Configure`
that is cut, and a frame that is refused. -/
def failingTurns : List WritingTurn :=
  [⟨.encodes [0, 0, 0, 1, 0x65, 0x88], [.ok 7, .error .wouldBlock, .ok 100], []⟩,
    ⟨.rotates 1, [], [.error .other]⟩, ⟨.encodes [0, 0, 0, 1, 0x65, 0x9a], [.error .interrupted, .ok 100], []⟩,
    ⟨.rotates 2, [], [.ok 3, .error .other]⟩, ⟨.encodes [0, 0, 0, 1, 0x41, 0x9a], [.error .other], []⟩]

theorem client_sees_cut : ∃ x y : Sending, begin_ (F := ℚ) .default .plain [.ok 5, .ok 100] = some x ∧
    run (step ℚ .default) x failingTurns = some y ∧
    ∃ hb, encodeHandshake (Serving.hello ℚ .default .plain) = .ok hb ∧
      ([y.pipe.sent].flatten.length < hb.length ∧ (feed Client.new [y.pipe.sent]).2 = [] ∨
        ∃ read, Seen hb (Serving.hello ℚ .default .plain) y.sentAfterHello read [y.pipe.sent].flatten
            (feed Client.new [y.pipe.sent]).2 ∧
          ([y.pipe.sent].flatten = y.pipe.sent → y.pipe.harm = .none ∧ y.pipe.stuck = false →
            read = y.sentAfterHello)) := by
  have hbegin : (begin_ ℚ .default .plain [.ok 5, .ok 100]).isSome = true := by decide +kernel
  obtain ⟨x, hx⟩ := Option.isSome_iff_exists.mp hbegin
  have hrun : ∀ x ∈ begin_ ℚ .default .plain [.ok 5, .ok 100],
      (run (step ℚ .default) x failingTurns).isSome = true ∧ Meets (step ℚ .default) Sealed x failingTurns := by
    decide +kernel
  obtain ⟨hsome, hsealed⟩ := hrun x hx
  obtain ⟨y, hy⟩ := Option.isSome_iff_exists.mp hsome
  have hall : [y.pipe.sent].flatten <+: y.pipe.sent := by simp
  exact ⟨x, y, hx, hy, client_sees hx hy hsealed hall⟩

end DroidMirror.Server.Sending
