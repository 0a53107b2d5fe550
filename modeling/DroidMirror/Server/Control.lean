import DroidMirror.Client.Input

/-! # The control demux

`crates/server/src/control.rs`. The socket reader feeds bytes; complete frames
become calls on the injector and the encoder. A bad frame clears the buffer
and the demux goes on, so what is called depends on how much had arrived by
then: `cuts_agree_iff` says for which streams it does not. -/
namespace DroidMirror
open DroidMirror.Proto DroidMirror.Lib.Incremental

/-- The calls on `Inject` and `EncoderCtrl`. -/
inductive Call where
  | touch (action id : UInt8) (x y : Int32) (pressure : UInt16)
  | key (action : UInt8) (keycode metaState : UInt32)
  | text (s : String)
  | scroll (x y h v : Int32)
  | setEncoding (bitrate maxFps : UInt32) (maxSize : UInt16)
  | pause (on : Bool)
  deriving DecidableEq

structure ControlDemux where
  buf : List UInt8
  deriving DecidableEq

namespace ControlDemux
variable (F : Type) [F32 F]

def new : ControlDemux := ⟨[]⟩

def notches (fixed : Int32) : Int32 :=
  let v : F := decodeScroll fixed
  if v == 0.0 then 0
  else
    let n := F32.toI32 (F32.round v)
    if n ≠ 0 then n else if (0.0 : F) < v then 1 else -1

def applyMessage : Message → List Call
  | .touch action pointerId x y pressure => [.touch action pointerId x y pressure]
  | .key action keycode metaState => [.key action keycode metaState]
  | .keySyn keycode action => [.key action keycode 0]
  | .text s => [.text s]
  | .scroll x y h v => [.scroll x y (notches F h) (notches F v)]
  | .setEncoding bitrate maxFps maxSize => [.setEncoding bitrate maxFps maxSize]
  | .pauseResume on => [.pause on]
  | .videoFrame .. | .configure .. | .reserved .. => []

/-- The loop of `push`, with fuel it does not run out of (`push_parse`). -/
def pushLoop : Nat → ControlDemux → ControlDemux × List Call × Except String Unit
  | 0, d => (d, [], .ok ())
  | fuel + 1, d =>
    match tryDecodeFrame d.buf with
    | .ok none => (d, [], .ok ())
    | .ok (some (msg, n)) =>
      let r := pushLoop fuel { d with buf := d.buf.drop n }
      (r.1, applyMessage F msg ++ r.2.1, r.2.2)
    | .error e => ({ d with buf := [] }, [], .error e.toString)

def push (d : ControlDemux) (data : List UInt8) : ControlDemux × List Call × Except String Unit :=
  let d := { d with buf := d.buf ++ data }
  pushLoop F (d.buf.length + 1) d

/-- Push chunks one after another, after an error too, as the session does. -/
def pushAll (d : ControlDemux) : List (List UInt8) → ControlDemux × List Call × List (Except String Unit)
  | [] => (d, [], [])
  | chunk :: rest =>
    let r := push F d chunk
    let r' := pushAll r.1 rest
    (r'.1, r.2.1 ++ r'.2.1, r.2.2 :: r'.2.2)

/-- The calls a fresh demux makes when fed the chunks. -/
def calls (chunks : List (List UInt8)) : List Call := (pushAll F new chunks).2.1

/-! ## What one push does -/

/-- The grammar of the control stream: frames, in one phase. -/
def frames : Grammar Unit UInt8 ProtoError Message where
  decode _ := tryDecodeFrame
  next _ _ := ()
  takes h := by
    obtain ⟨tag, p, _, hn, hle, _⟩ := tryDecodeFrame_some h
    omega
  stable s h := tryDecodeFrame_stable s h

/-- What a reading of the buffer makes the demux do. -/
def conclude (r : Parse Unit UInt8 ProtoError Message) : ControlDemux × List Call × Except String Unit :=
  match r.err with
  | none => (⟨r.rest⟩, r.items.flatMap (applyMessage F), .ok ())
  | some e => (⟨[]⟩, r.items.flatMap (applyMessage F), .error e.toString)

theorem conclude_cons (m : Message) (r : Parse Unit UInt8 ProtoError Message) :
    conclude F (r.cons m) =
      ((conclude F r).1, applyMessage F m ++ (conclude F r).2.1, (conclude F r).2.2) := by
  unfold conclude
  simp only [Parse.cons_items, Parse.cons_err, Parse.cons_rest, List.flatMap_cons]
  cases r.err <;> rfl

theorem pushLoop_parse (fuel : Nat) : ∀ d : ControlDemux, d.buf.length < fuel →
    pushLoop F fuel d = conclude F (frames.parse () d.buf) := by
  induction fuel with
  | zero => intro d h; omega
  | succ fuel ih =>
    intro d hlen
    rw [pushLoop]
    cases hd : tryDecodeFrame d.buf with
    | error e =>
      rw [frames.parse_error (p := ()) hd]
      rfl
    | ok o =>
      cases o with
      | none =>
        rw [frames.parse_none (p := ()) hd]
        rfl
      | some mn =>
        obtain ⟨m, n⟩ := mn
        obtain ⟨hpos, hle⟩ := frames.takes (p := ()) hd
        rw [frames.parse_some (p := ()) hd, conclude_cons]
        have hloop := ih { d with buf := d.buf.drop n } (by simp; omega)
        simp only [hloop]

theorem push_parse (d : ControlDemux) (data : List UInt8) :
    push F d data = conclude F (frames.parse () (d.buf ++ data)) :=
  pushLoop_parse F _ _ (Nat.lt_succ_self _)

theorem push_ok {d : ControlDemux} {data : List UInt8}
    (h : (frames.parse () (d.buf ++ data)).err = none) :
    push F d data = (⟨(frames.parse () (d.buf ++ data)).rest⟩,
      (frames.parse () (d.buf ++ data)).items.flatMap (applyMessage F), .ok ()) := by
  rw [push_parse, conclude, h]

theorem push_error {d : ControlDemux} {data : List UInt8} {e : ProtoError}
    (h : (frames.parse () (d.buf ++ data)).err = some e) :
    push F d data = (new, (frames.parse () (d.buf ++ data)).items.flatMap (applyMessage F),
      .error e.toString) := by
  rw [push_parse, conclude, h]
  rfl

/-! ## Streams without a bad frame -/

/-- With no bad frame in the buffered bytes and the chunks, the demux makes the
calls of the frames, whatever the cuts. -/
theorem pushAll_ok (chunks : List (List UInt8)) : ∀ d : ControlDemux,
    frames.decode () d.buf = .ok none → (frames.parse () (d.buf ++ chunks.flatten)).err = none →
    pushAll F d chunks = (⟨(frames.parse () (d.buf ++ chunks.flatten)).rest⟩,
      (frames.parse () (d.buf ++ chunks.flatten)).items.flatMap (applyMessage F),
      chunks.map fun _ => .ok ()) := by
  induction chunks with
  | nil =>
    intro d hd _
    rw [List.flatten_nil, List.append_nil, frames.parse_none hd]
    rfl
  | cons chunk rest ih =>
    intro d hd herr
    rw [List.flatten_cons, ← List.append_assoc] at herr ⊢
    cases he : (frames.parse () (d.buf ++ chunk)).err with
    | some e => 
      rw [(frames.parse_append_error rest.flatten he).1] at herr
      cases herr
    | none =>
      rw [frames.parse_append rest.flatten he] at herr ⊢
      have hrest := ih ⟨(frames.parse () (d.buf ++ chunk)).rest⟩ (frames.decode_rest he) herr
      rw [pushAll, push_ok F he]
      simp only [hrest, Parse.after, List.flatMap_append, List.map_cons]

/-! ## Streams with a bad frame -/

/-- No control message can be decoded at any offset. -/
def Quiet (b : List UInt8) : Prop :=
  ∀ k m n, tryDecodeFrame (b.drop k) = .ok (some (m, n)) → applyMessage F m = []

/-- The stream has no bad frame, or no whole frame of a control message can be
decoded at any offset from where the first bad frame has been met. -/
def Harmless (b : List UInt8) : Prop :=
  ∀ k, k ≤ b.length → (frames.parse () (b.take k)).err ≠ none →
    ∀ m n, tryDecodeFrame (b.drop k) = .ok (some (m, n)) → applyMessage F m = []

theorem quiet_drop {b : List UInt8} (h : Quiet F b) (i : Nat) : Quiet F (b.drop i) := by
  intro k m n hd
  rw [List.drop_drop] at hd
  exact h _ m n hd

theorem quiet_items {b : List UInt8} (s : List UInt8) (h : Quiet F (b ++ s)) :
    (frames.parse () b).items.flatMap (applyMessage F) = [] := by
  rw [List.flatMap_eq_nil_iff]
  intro m hm
  obtain ⟨_, k, n, _, hd⟩ := frames.decode_of_mem_items hm
  by_cases hk : k ≤ b.length
  · refine h k m n ?_
    rw [List.drop_append_of_le_length hk]
    exact frames.some_append (p := ()) s hd
  · rw [List.drop_eq_nil_of_le (by omega)] at hd
    cases hd

theorem conclude_calls (r : Parse Unit UInt8 ProtoError Message) :
    (conclude F r).2.1 = r.items.flatMap (applyMessage F) := by
  unfold conclude
  cases r.err <;> rfl

/-- Nothing is called on a stream in which no control message can be decoded. -/
theorem pushAll_quiet (chunks : List (List UInt8)) : ∀ d : ControlDemux,
    Quiet F (d.buf ++ chunks.flatten) → (pushAll F d chunks).2.1 = [] := by
  induction chunks with
  | nil => intros; rfl
  | cons chunk rest ih =>
    intro d hq
    rw [List.flatten_cons, ← List.append_assoc] at hq
    have hnow := quiet_items F rest.flatten hq
    have hlater : Quiet F ((push F d chunk).1.buf ++ rest.flatten) := by
      cases he : (frames.parse () (d.buf ++ chunk)).err with
      | none =>
        obtain ⟨k, hk, hrest⟩ := frames.rest_eq_drop () (d.buf ++ chunk)
        rw [push_ok F he, hrest, ← List.drop_append_of_le_length hk]
        exact quiet_drop F hq k
      | some e =>
        rw [push_error F he]
        have htail := quiet_drop F hq (d.buf ++ chunk).length
        rwa [List.drop_left] at htail
    rw [pushAll, push_parse]
    simp only [conclude_calls, hnow, List.nil_append]
    rw [push_parse] at hlater
    exact ih _ hlater

/-- What follows the bytes in which a bad frame was met. -/
theorem quiet_of_harmless {b s : List UInt8} (h : Harmless F (b ++ s))
    (he : (frames.parse () b).err ≠ none) : Quiet F s := by
  intro k m n hd
  obtain ⟨e, he⟩ := Option.ne_none_iff_exists'.mp he
  by_cases hk : k ≤ s.length
  · refine h (b.length + k) (by rw [List.length_append]; omega) ?_ m n ?_
    · rw [List.take_length_add_append, (frames.parse_append_error (s.take k) he).1]
      exact Option.some_ne_none e
    · rwa [List.drop_length_add_append]
  · rw [List.drop_eq_nil_of_le (by omega)] at hd
    cases hd

/-- The undecoded end of bytes without a bad frame, and what follows. -/
theorem harmless_rest {b s : List UInt8} (h : Harmless F (b ++ s))
    (he : (frames.parse () b).err = none) : Harmless F ((frames.parse () b).rest ++ s) := by
  intro k hk herr m n hd
  have hwait := frames.parse_none (frames.decode_rest he)
  generalize hr : (frames.parse () b).rest = r at *
  -- the bad frame is not met before the end of `r`
  have hlong : r.length ≤ k := by
    by_contra hlt
    rw [List.take_append_of_le_length (by omega)] at herr
    obtain ⟨e, herr⟩ := Option.ne_none_iff_exists'.mp herr
    have hr' := (frames.parse_append_error (r.drop k) herr).1
    rw [List.take_append_drop, hwait] at hr'
    cases hr'
  obtain ⟨j, rfl⟩ := Nat.exists_eq_add_of_le hlong
  rw [List.length_append] at hk
  rw [List.take_length_add_append] at herr
  rw [List.drop_length_add_append] at hd
  refine h (b.length + j) (by rw [List.length_append]; omega) ?_ m n ?_
  · rw [List.take_length_add_append, frames.parse_append (s.take j) he, hr]
    exact herr
  · rwa [List.drop_length_add_append]

theorem pushAll_harmless (chunks : List (List UInt8)) : ∀ d : ControlDemux,
    frames.decode () d.buf = .ok none → Harmless F (d.buf ++ chunks.flatten) →
    (pushAll F d chunks).2.1 =
      (frames.parse () (d.buf ++ chunks.flatten)).items.flatMap (applyMessage F) := by
  induction chunks with
  | nil =>
    intro d hd _
    rw [List.flatten_nil, List.append_nil, frames.parse_none hd]
    rfl
  | cons chunk rest ih =>
    intro d hd hh
    rw [List.flatten_cons, ← List.append_assoc] at hh ⊢
    cases he : (frames.parse () (d.buf ++ chunk)).err with
    | none =>
      have hrest := ih ⟨(frames.parse () (d.buf ++ chunk)).rest⟩ (frames.decode_rest he)
        (harmless_rest F hh he)
      rw [pushAll, push_ok F he, frames.parse_append rest.flatten he]
      simp only [hrest, Parse.after, List.flatMap_append]
    | some e =>
      have hquiet := pushAll_quiet F rest new
        (quiet_of_harmless F hh (by rw [he]; exact Option.some_ne_none e))
      rw [pushAll, push_error F he, (frames.parse_append_error rest.flatten he).2]
      simp only [hquiet, List.append_nil]

theorem calls_harmless {cs : List (List UInt8)} (h : Harmless F cs.flatten) :
    calls F cs = (frames.parse () cs.flatten).items.flatMap (applyMessage F) :=
  pushAll_harmless F cs new rfl h

theorem calls_two (x y : List UInt8) (h : (frames.parse () x).err ≠ none) :
    calls F [x, y] = calls F [x ++ y] ++ (frames.parse () y).items.flatMap (applyMessage F) := by
  obtain ⟨e, he⟩ := Option.ne_none_iff_exists'.mp h
  have hx : push F new x = (new, (frames.parse () x).items.flatMap (applyMessage F),
      .error e.toString) := push_error F he
  have hxy : (push F new (x ++ y)).2.1 = (frames.parse () x).items.flatMap (applyMessage F) := by
    rw [push_parse, conclude_calls, show new.buf ++ (x ++ y) = x ++ y from rfl,
      (frames.parse_append_error y he).2]
  have hy : (push F new y).2.1 = (frames.parse () y).items.flatMap (applyMessage F) := by
    rw [push_parse, conclude_calls]
    rfl
  simp only [calls, pushAll, hx, hxy, hy, List.append_nil]

/-- Every cut of the stream makes the same calls, each the decoding of a frame
at a boundary of the stream. -/
def CutsAgree (b : List UInt8) : Prop :=
  (∀ cs ds : List (List UInt8), cs.flatten = b → ds.flatten = b → calls F cs = calls F ds) ∧
    ∀ cs : List (List UInt8), cs.flatten = b → ∀ c ∈ calls F cs, ∃ k m n,
      frames.Boundary () b () k ∧ tryDecodeFrame (b.drop k) = .ok (some (m, n)) ∧
      c ∈ applyMessage F m

/-- **When the cuts do not matter.** Exactly for the streams that are harmless
after their first bad frame. -/
theorem cuts_agree_iff (b : List UInt8) : CutsAgree F b ↔ Harmless F b := by
  constructor
  · rintro ⟨hsame, _⟩ k _ herr m n hd
    have htwo := calls_two F (b.take k) (b.drop k) herr
    rw [List.take_append_drop, hsame [b.take k, b.drop k] [b] (by simp) (by simp),
      List.self_eq_append_right, frames.parse_some (p := ()) hd] at htwo
    exact (List.append_eq_nil_iff.mp htwo).1
  · intro h
    refine ⟨?_, ?_⟩
    · rintro cs ds rfl hds
      rw [calls_harmless F h, calls_harmless F (hds ▸ h), hds]
    · rintro cs rfl c hc
      rw [calls_harmless F h] at hc
      obtain ⟨m, hm, hc⟩ := List.mem_flatMap.mp hc
      obtain ⟨_, k, n, hk, hd⟩ := frames.decode_of_mem_items hm
      exact ⟨k, m, n, hk, hd, hc⟩

/-- A bad length, then a pause: cut between the two, the pause is called. -/
theorem cuts_disagree : ¬ ∀ b, CutsAgree Float32 b := by
  intro h
  have hsame := (h [0, 0, 0, 0, 2, 0, 0, 0, 0x7F, 1]).1 [[0, 0, 0, 0], [2, 0, 0, 0, 0x7F, 1]]
    [[0, 0, 0, 0, 2, 0, 0, 0, 0x7F, 1]] rfl rfl
  revert hsame
  decide

end ControlDemux

end DroidMirror
