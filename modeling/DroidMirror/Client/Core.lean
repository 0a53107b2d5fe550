import DroidMirror.Proto.Handshake

/-! # The sans-IO client

`crates/client/src/lib.rs`: bytes in, events out. `onBytes` appends to the
buffer and takes a handshake, then frames, off its front until more is needed
or the input is bad; a bad input is fatal. -/
namespace DroidMirror
open DroidMirror.Proto DroidMirror.Lib.Incremental

inductive Out where
  /-- Decoder must be (re)configured. -/
  | configure (codec : Codec) (csd : List UInt8) (width height : UInt16)
  | frame (ptsUs : UInt64) (keyframe : Bool) (nal : List UInt8)
  | deviceName (name : String)
  | error (text : String)
  deriving DecidableEq

structure Client where
  buf : List UInt8
  handshake : Bool
  fatal : Bool
  width : UInt16
  height : UInt16
  rotation : UInt8
  codec : Option Codec
  csd : List UInt8
  deviceName : String
  caps : UInt8
  skipUntilKey : Bool
  deriving DecidableEq

namespace Client

def new : Client :=
  { buf := [], handshake := false, fatal := false, width := 0, height := 0, rotation := 0,
    codec := none, csd := [], deviceName := "", caps := 0, skipUntilKey := false }

/-- Drop non-keyframes until the next IDR. Called when the decoder queue is behind. -/
def requestKeyframeSkip (c : Client) : Client := { c with skipUntilKey := true }

def fail (c : Client) (e : ProtoError) : Client × List Out :=
  ({ c with fatal := true, buf := [] }, [.error e.toString])

def applyHandshake (c : Client) (h : Handshake) : Client × List Out :=
  ({ c with
      handshake := true
      width := h.width
      height := h.height
      codec := some h.codec
      csd := h.csd
      deviceName := h.deviceName
      caps := h.caps },
    [.deviceName h.deviceName, .configure h.codec h.csd h.width h.height])

def applyMessage (c : Client) : Message → Client × List Out
  | .configure codec width height csd =>
    ({ c with
        codec := some codec
        width := width
        height := height
        csd := if csd.isEmpty then c.csd else csd },
      [.configure codec csd width height])
  | .videoFrame ptsUs keyframe nal =>
    if c.skipUntilKey && !keyframe then (c, [])
    else
      ({ c with skipUntilKey := if keyframe then false else c.skipUntilKey },
        [.frame ptsUs keyframe nal])
  | .reserved .. => (c, [])
  | other => (c, [.error ("unexpected client-bound message 0x" ++ hexByte other.tag)])

/-- The frame loop of `on_bytes`. Every frame takes bytes off the buffer, so
the fuel `on_bytes` gives never ends it (`onBytes_parse`). -/
def frameLoop : Nat → Client → Client × List Out
  | 0, c => (c, [])
  | fuel + 1, c =>
    match tryDecodeFrame c.buf with
    | .ok none => (c, [])
    | .ok (some (msg, n)) =>
      let r := applyMessage { c with buf := c.buf.drop n } msg
      let r' := frameLoop fuel r.1
      (r'.1, r.2 ++ r'.2)
    | .error e => fail c e

def onBytes (c : Client) (buf : List UInt8) : Client × List Out :=
  if c.fatal then (c, [])
  else
    let c := { c with buf := c.buf ++ buf }
    if c.handshake then frameLoop (c.buf.length + 1) c
    else
      match tryDecodeHandshake c.buf with
      | .ok none => (c, [])
      | .ok (some (h, n)) =>
        let r := applyHandshake { c with buf := c.buf.drop n } h
        let r' := frameLoop (r.1.buf.length + 1) r.1
        (r'.1, r.2 ++ r'.2)
      | .error e => fail c e

/-- Feed chunks one after another; the events in order. -/
def feed (c : Client) : List (List UInt8) → Client × List Out
  | [] => (c, [])
  | chunk :: rest =>
    let r := onBytes c chunk
    let r' := feed r.1 rest
    (r'.1, r.2 ++ r'.2)

end Client

/-! ## The stream as items -/

/-- What the server writes: one handshake, then messages. -/
inductive Item where
  | handshake (h : Handshake)
  | message (m : Message)
  deriving DecidableEq

def decodeItem (started : Bool) (buf : List UInt8) : Except ProtoError (Option (Item × Nat)) :=
  if started then (tryDecodeFrame buf).map (Option.map fun r => (.message r.1, r.2))
  else (tryDecodeHandshake buf).map (Option.map fun r => (.handshake r.1, r.2))

/-- An item was decoded, so the decoder of the phase gave it. -/
theorem decodeItem_some {started : Bool} {b : List UInt8} {i : Item} {n : Nat}
    (h : decodeItem started b = .ok (some (i, n))) :
    (∃ m, started = true ∧ i = .message m ∧ tryDecodeFrame b = .ok (some (m, n))) ∨
    (∃ hs, started = false ∧ i = .handshake hs ∧ tryDecodeHandshake b = .ok (some (hs, n))) := by
  unfold decodeItem at h
  cases started with
  | true =>
    left
    cases hd : tryDecodeFrame b with
    | error e => rw [hd] at h; cases h
    | ok o =>
      rw [hd] at h
      match o, h with
      | some (m, k), h => cases h; exact ⟨m, rfl, rfl, rfl⟩
  | false =>
    right
    cases hd : tryDecodeHandshake b with
    | error e => rw [hd] at h; cases h
    | ok o =>
      rw [hd] at h
      match o, h with
      | some (hs, k), h => cases h; exact ⟨hs, rfl, rfl, rfl⟩

theorem decodeItem_takes {started : Bool} {b : List UInt8} {i : Item} {n : Nat}
    (h : decodeItem started b = .ok (some (i, n))) : 0 < n ∧ n ≤ b.length := by
  rcases decodeItem_some h with ⟨m, _, _, hd⟩ | ⟨hs, _, _, hd⟩
  · obtain ⟨tag, p, _, hn, hle, _⟩ := tryDecodeFrame_some hd
    omega
  · obtain ⟨_, _, hn, hb⟩ := tryDecodeHandshake_some hd
    have hlen := congrArg List.length hb
    rw [List.length_take, ← hn] at hlen
    rw [Handshake.length_bytes] at hn
    omega

theorem decodeItem_stable {started : Bool} {b : List UInt8} (s : List UInt8)
    (h : decodeItem started b ≠ .ok none) : decodeItem started (b ++ s) = decodeItem started b := by
  unfold decodeItem at h ⊢
  cases started with
  | true =>
    have hd : tryDecodeFrame b ≠ .ok none := fun hn => h (by rw [hn]; rfl)
    rw [tryDecodeFrame_stable s hd]; rfl
  | false =>
    have hd : tryDecodeHandshake b ≠ .ok none := fun hn => h (by rw [hn]; rfl)
    rw [tryDecodeHandshake_stable s hd]; rfl

/-- The stream's grammar; its phase is whether the handshake was read. -/
def wire : Grammar Bool UInt8 ProtoError Item where
  decode := decodeItem
  next _ _ := true
  takes := decodeItem_takes
  stable := decodeItem_stable

theorem wire_frame {b : List UInt8} {x : Except ProtoError (Option (Message × Nat))}
    (h : tryDecodeFrame b = x) :
    wire.decode true b = x.map (Option.map fun r => (.message r.1, r.2)) := by
  rw [← h]
  rfl

theorem wire_handshake {b : List UInt8} {x : Except ProtoError (Option (Handshake × Nat))}
    (h : tryDecodeHandshake b = x) :
    wire.decode false b = x.map (Option.map fun r => (.handshake r.1, r.2)) := by
  rw [← h]
  rfl

namespace Client

def applyItem (c : Client) : Item → Client × List Out
  | .handshake h => applyHandshake c h
  | .message m => applyMessage c m

/-- Apply items in order. -/
def replay (c : Client) : List Item → Client × List Out
  | [] => (c, [])
  | i :: rest =>
    let r := applyItem c i
    let r' := replay r.1 rest
    (r'.1, r.2 ++ r'.2)

/-- The state and events a reading of the buffer leaves. -/
def conclude (c : Client) (r : Parse Bool UInt8 ProtoError Item) : Client × List Out :=
  let d := replay c r.items
  match r.err with
  | none => ({ d.1 with buf := r.rest }, d.2)
  | some e => ((fail d.1 e).1, d.2 ++ (fail d.1 e).2)

/-! ### What items leave alone -/

theorem applyItem_buf (c : Client) (b : List UInt8) (i : Item) :
    applyItem { c with buf := b } i =
      ({ (applyItem c i).1 with buf := b }, (applyItem c i).2) := by
  cases i with
  | handshake h => rfl
  | message m =>
    cases m with
    | videoFrame ptsUs keyframe nal =>
      simp only [applyItem, applyMessage]
      split <;> rfl
    | _ => rfl

theorem applyItem_frame (c : Client) (i : Item) :
    (applyItem c i).1.buf = c.buf ∧ (applyItem c i).1.fatal = c.fatal ∧
      (applyItem c i).1.rotation = c.rotation := by
  cases i with
  | handshake h => exact ⟨rfl, rfl, rfl⟩
  | message m =>
    cases m with
    | videoFrame ptsUs keyframe nal =>
      simp only [applyItem, applyMessage]
      split <;> exact ⟨rfl, rfl, rfl⟩
    | _ => exact ⟨rfl, rfl, rfl⟩

theorem applyMessage_handshake (c : Client) (m : Message) :
    (applyMessage c m).1.handshake = c.handshake := by
  cases m with
  | videoFrame ptsUs keyframe nal =>
    simp only [applyMessage]
    split <;> rfl
  | _ => rfl

theorem replay_buf (c : Client) (b : List UInt8) (is : List Item) :
    replay { c with buf := b } is = ({ (replay c is).1 with buf := b }, (replay c is).2) := by
  induction is generalizing c with
  | nil => rfl
  | cons i rest ih => simp only [replay, applyItem_buf, ih]

theorem conclude_buf (c : Client) (b : List UInt8) (r : Parse Bool UInt8 ProtoError Item) :
    conclude { c with buf := b } r = conclude c r := by
  unfold conclude
  rw [replay_buf]
  cases r.err <;> rfl

theorem conclude_cons (c : Client) (i : Item) (r : Parse Bool UInt8 ProtoError Item) :
    conclude c (r.cons i) =
      ((conclude (applyItem c i).1 r).1, (applyItem c i).2 ++ (conclude (applyItem c i).1 r).2) := by
  unfold conclude
  simp only [Parse.cons_items, Parse.cons_err, Parse.cons_rest, replay]
  cases r.err <;> simp

/-! ### The loop reads the buffer -/

theorem frameLoop_parse (fuel : Nat) : ∀ c : Client, c.buf.length < fuel → c.handshake = true →
    frameLoop fuel c = conclude c (wire.parse true c.buf) := by
  induction fuel with
  | zero => intro c h; omega
  | succ fuel ih =>
    intro c hlen hc
    rw [frameLoop]
    cases hd : tryDecodeFrame c.buf with
    | error e =>
      have hw : wire.decode true c.buf = .error e := wire_frame hd
      rw [wire.parse_error hw]
      rfl
    | ok o =>
      cases o with
      | none =>
        have hw : wire.decode true c.buf = .ok none := wire_frame hd
        rw [wire.parse_none hw]
        rfl
      | some mn =>
        obtain ⟨m, n⟩ := mn
        have hw : wire.decode true c.buf = .ok (some (.message m, n)) := wire_frame hd
        obtain ⟨hpos, hle⟩ := wire.takes hw
        have hbuf := applyItem_buf c (c.buf.drop n) (.message m)
        have hloop := ih (applyItem { c with buf := c.buf.drop n } (.message m)).1
          (by rw [hbuf]; simp; omega) (by rw [hbuf]; exact (applyMessage_handshake c m).trans hc)
        rw [wire.parse_some hw, conclude_cons]
        show ((frameLoop fuel (applyItem { c with buf := c.buf.drop n } (.message m)).1).1,
          (applyItem { c with buf := c.buf.drop n } (.message m)).2 ++
            (frameLoop fuel (applyItem { c with buf := c.buf.drop n } (.message m)).1).2) = _
        rw [hloop, hbuf]
        simp only [conclude_buf]
        rfl

theorem onBytes_fatal {c : Client} (h : c.fatal = true) (chunk : List UInt8) :
    onBytes c chunk = (c, []) := by
  rw [onBytes, if_pos h]

/-- `on_bytes` applies what the buffered bytes and the chunk read as. -/
theorem onBytes_parse {c : Client} (h : c.fatal = false) (chunk : List UInt8) :
    onBytes c chunk = conclude c (wire.parse c.handshake (c.buf ++ chunk)) := by
  rw [onBytes, if_neg (by simp [h])]
  simp only
  by_cases hc : c.handshake = true
  · rw [if_pos hc, frameLoop_parse _ { c with buf := c.buf ++ chunk } (Nat.lt_succ_self _) hc]
    exact (conclude_buf c _ _).trans (by rw [hc])
  · have hphase : wire.parse c.handshake = wire.parse false := by rw [Bool.eq_false_iff.mpr hc]
    rw [if_neg hc, hphase]
    generalize c.buf ++ chunk = b
    cases hd : tryDecodeHandshake b with
    | error e =>
      have hw : wire.decode false b = .error e := wire_handshake hd
      rw [wire.parse_error hw]
      rfl
    | ok o =>
      cases o with
      | none =>
        have hw : wire.decode false b = .ok none := wire_handshake hd
        rw [wire.parse_none hw]
        rfl
      | some hn =>
        obtain ⟨hs, n⟩ := hn
        have hw : wire.decode false b = .ok (some (.handshake hs, n)) := wire_handshake hd
        have hloop := frameLoop_parse _ (applyHandshake { c with buf := b.drop n } hs).1
          (Nat.lt_succ_self _) rfl
        rw [wire.parse_some hw, conclude_cons]
        simp only
        rw [hloop]
        have hbuf : (applyHandshake { c with buf := b.drop n } hs).1 =
            { (applyItem c (.handshake hs)).1 with buf := b.drop n } := rfl
        rw [hbuf, conclude_buf]
        rfl

/-! ### Chunks compose -/

/-- The handshake flag follows the grammar's phase. -/
theorem replay_phase {p : Bool} {b : List UInt8} : ∀ c : Client, c.handshake = p →
    (replay c (wire.parse p b).items).1.handshake = (wire.parse p b).phase := by
  induction p, b using wire.parse_induction with
  | none p b hd => intro c hc; rw [wire.parse_none hd]; exact hc
  | error p b e hd => intro c hc; rw [wire.parse_error hd]; exact hc
  | some p b i n hd ih =>
    intro c hc
    rw [wire.parse_some hd]
    refine ih (applyItem c i).1 ?_
    rcases decodeItem_some hd with ⟨m, hp, rfl, _⟩ | ⟨hs, _, rfl, _⟩
    · exact (applyMessage_handshake c m).trans (hc.trans hp)
    · rfl

theorem replay_frame (c : Client) (is : List Item) :
    (replay c is).1.fatal = c.fatal ∧ (replay c is).1.rotation = c.rotation := by
  induction is generalizing c with
  | nil => exact ⟨rfl, rfl⟩
  | cons i rest ih =>
    obtain ⟨_, hf, hr⟩ := applyItem_frame c i
    exact ⟨(ih _).1.trans hf, (ih _).2.trans hr⟩

theorem conclude_after (c : Client) (is : List Item) (r : Parse Bool UInt8 ProtoError Item) :
    conclude c (r.after is) =
      ((conclude (replay c is).1 r).1, (replay c is).2 ++ (conclude (replay c is).1 r).2) := by
  induction is generalizing c with
  | nil => simp [replay]
  | cons i rest ih =>
    rw [← Parse.cons_after, conclude_cons, ih]
    simp [replay]

theorem conclude_ok (c : Client) {r : Parse Bool UInt8 ProtoError Item} (he : r.err = none) :
    conclude c r = ({ (replay c r.items).1 with buf := r.rest }, (replay c r.items).2) := by
  rw [conclude, he]

theorem onBytes_buf {c : Client} (h : c.fatal = false) (rest chunk : List UInt8) :
    onBytes { c with buf := rest } chunk = conclude c (wire.parse c.handshake (rest ++ chunk)) :=
  (onBytes_parse (c := { c with buf := rest }) h chunk).trans (conclude_buf c rest _)

/-- One call with two chunks' bytes is two calls. -/
theorem onBytes_append (c : Client) (a b : List UInt8) :
    onBytes c (a ++ b) =
      ((onBytes (onBytes c a).1 b).1, (onBytes c a).2 ++ (onBytes (onBytes c a).1 b).2) := by
  cases hf : c.fatal with
  | true => simp [onBytes_fatal hf]
  | false =>
    rw [onBytes_parse hf, onBytes_parse hf, ← List.append_assoc]
    cases he : (wire.parse c.handshake (c.buf ++ a)).err with
    | none =>
      have hphase := replay_phase (p := c.handshake) (b := c.buf ++ a) c rfl
      have hfatal := (replay_frame c (wire.parse c.handshake (c.buf ++ a)).items).1.trans hf
      have hrest := onBytes_buf hfatal (wire.parse c.handshake (c.buf ++ a)).rest b
      rw [wire.parse_append b he, conclude_after, conclude_ok c he, ← hphase, ← hrest]
    | some e =>
      obtain ⟨herr, hitems⟩ := wire.parse_append_error b he
      have hsame : conclude c (wire.parse c.handshake (c.buf ++ a ++ b)) =
          conclude c (wire.parse c.handshake (c.buf ++ a)) := by
        rw [conclude, conclude, herr, he, hitems]
      have hfatal : (conclude c (wire.parse c.handshake (c.buf ++ a))).1.fatal = true := by
        rw [conclude, he]; rfl
      rw [hsame, onBytes_fatal hfatal, List.append_nil]

/-- Nothing is left in the buffer that could be decoded. -/
def Settled (c : Client) : Prop := c.fatal = true ∨ wire.decode c.handshake c.buf = .ok none

theorem settled_new : Settled new := .inr rfl

theorem onBytes_settled (c : Client) (chunk : List UInt8) : Settled (onBytes c chunk).1 := by
  cases hf : c.fatal with
  | true => rw [onBytes_fatal hf]; exact .inl hf
  | false =>
    rw [onBytes_parse hf, conclude]
    cases he : (wire.parse c.handshake (c.buf ++ chunk)).err with
    | none =>
      right
      show wire.decode (replay c _).1.handshake _ = _
      rw [replay_phase c rfl]
      exact wire.decode_rest he
    | some e => exact .inl rfl

theorem onBytes_nil {c : Client} (h : Settled c) : onBytes c [] = (c, []) := by
  rcases h with hf | hd
  · exact onBytes_fatal hf []
  · cases hf : c.fatal with
    | true => exact onBytes_fatal hf []
    | false =>
      rw [onBytes_parse hf, List.append_nil, wire.parse_none hd]
      rfl

/-- Feeding chunks is feeding their concatenation at once. -/
theorem feed_flatten {c : Client} (h : Settled c) (chunks : List (List UInt8)) :
    feed c chunks = onBytes c chunks.flatten := by
  induction chunks generalizing c with
  | nil => rw [List.flatten_nil, onBytes_nil h]; rfl
  | cons chunk rest ih =>
    rw [feed, ih (onBytes_settled c chunk), List.flatten_cons, onBytes_append]

/-- The event a bad handshake or frame ends the stream with. -/
def errorEvent : Option ProtoError → List Out
  | none => []
  | some e => [.error e.toString]

theorem feed_new (chunks : List (List UInt8)) :
    feed new chunks = conclude new (wire.parse false chunks.flatten) := by
  rw [feed_flatten settled_new, onBytes_parse rfl]
  rfl

theorem conclude_events (c : Client) (r : Parse Bool UInt8 ProtoError Item) :
    (conclude c r).2 = (replay c r.items).2 ++ errorEvent r.err := by
  unfold conclude
  cases r.err with
  | none => exact (List.append_nil _).symm
  | some e => rfl

/-- **The cuts do not matter.** Two ways of cutting one byte string give the
same client and the same events: those of every item completed before the
first bad one, then the error, and nothing for anything fed after it. -/
theorem feed_cuts (cs ds : List (List UInt8)) (h : cs.flatten = ds.flatten) :
    feed new cs = feed new ds ∧
      (feed new cs).2 = (replay new (wire.parse false cs.flatten).items).2 ++
        errorEvent (wire.parse false cs.flatten).err ∧
      ∀ more, (wire.parse false cs.flatten).err ≠ none → feed new (cs ++ more) = feed new cs := by
  refine ⟨by rw [feed_new, feed_new, h], by rw [feed_new, conclude_events], ?_⟩
  intro more he
  obtain ⟨e, he⟩ := Option.ne_none_iff_exists'.mp he
  obtain ⟨herr, hitems⟩ := wire.parse_append_error more.flatten he
  rw [feed_new, feed_new, List.flatten_append, conclude, conclude, herr, he, hitems]

/-- A handshake of another version, cut in the middle of its magic or not. -/
theorem feed_cuts_version :
    feed new [[0x44, 0x4D], [], [0x49, 0x52, 2, 1, 0, 0, 0, 0, 0, 0]] =
      feed new [[0x44, 0x4D, 0x49, 0x52, 2, 1, 0, 0, 0, 0], [0, 0]] :=
  (feed_cuts [[0x44, 0x4D], [], [0x49, 0x52, 2, 1, 0, 0, 0, 0, 0, 0]]
    [[0x44, 0x4D, 0x49, 0x52, 2, 1, 0, 0, 0, 0], [0, 0]] rfl).1

end Client

end DroidMirror
