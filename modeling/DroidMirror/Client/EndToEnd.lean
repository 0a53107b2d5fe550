import DroidMirror.Client.Core
import Mathlib.Data.List.Forall2

/-! # Server to client

What a client makes of an encoded stream, however it is cut and wherever skips
are requested. A request takes effect on the item whose bytes are then
incomplete (`run_deliver`); so a frame is left out by a request made before its
last byte was fed, unless a keyframe was completed in between (`run_new`). -/
namespace DroidMirror.Client
open DroidMirror.Proto DroidMirror.Lib.Incremental

/-- What a caller does with a client. -/
inductive Action where
  | chunk (bytes : List UInt8)
  | skip

def run (c : Client) : List Action → Client × List Out
  | [] => (c, [])
  | .chunk bytes :: rest =>
    let r := onBytes c bytes
    let r' := run r.1 rest
    (r'.1, r.2 ++ r'.2)
  | .skip :: rest => run (requestKeyframeSkip c) rest

def fed : List Action → List UInt8
  | [] => []
  | .chunk bytes :: rest => bytes ++ fed rest
  | .skip :: rest => fed rest

/-- How many bytes had been fed when each skip was requested, `pos` of them
before the first action. -/
def skipsAt (pos : Nat) : List Action → List Nat
  | [] => []
  | .chunk bytes :: rest => skipsAt (pos + bytes.length) rest
  | .skip :: rest => pos :: skipsAt pos rest

theorem le_of_mem_skipsAt {p : Nat} (acts : List Action) : ∀ {pos}, p ∈ skipsAt pos acts → pos ≤ p := by
  induction acts with
  | nil => intro pos h; cases h
  | cons a rest ih =>
    intro pos h
    cases a with
    | chunk bytes => exact Nat.le_trans (Nat.le_add_right _ _) (ih h)
    | skip =>
      rcases List.mem_cons.mp h with rfl | h
      · exact Nat.le_refl _
      · exact ih h

/-! ## Requests land on item boundaries -/

/-- The requests made while an item's bytes are fed take effect before it. -/
def deliver (skips : List Nat) (c : Client) (start : Nat) : List (List UInt8 × Item) → List Out
  | [] => []
  | (enc, i) :: rest =>
    let c := if ∃ p ∈ skips, start ≤ p ∧ p < start + enc.length then requestKeyframeSkip c else c
    (applyItem c i).2 ++ deliver skips (applyItem c i).1 (start + enc.length) rest

theorem deliver_buf (skips : List Nat) (c : Client) (b : List UInt8) (start : Nat)
    (l : List (List UInt8 × Item)) :
    deliver skips { c with buf := b } start l = deliver skips c start l := by
  induction l generalizing c start with
  | nil => rfl
  | cons x rest ih =>
    obtain ⟨enc, i⟩ := x
    simp only [deliver]
    split
    · have h := applyItem_buf (requestKeyframeSkip c) b i
      rw [show requestKeyframeSkip { c with buf := b } = { requestKeyframeSkip c with buf := b } from rfl,
        h, ih]
    · rw [applyItem_buf c b i, ih]

/-- Items that were complete before any of the requests. -/
theorem deliver_replay {skips : List Nat} {l₁ : List (List UInt8 × Item)} (l₂ : List (List UInt8 × Item))
    (c : Client) (start : Nat) (h : ∀ p ∈ skips, start + (l₁.map Prod.fst).flatten.length ≤ p) :
    deliver skips c start (l₁ ++ l₂) = (replay c (l₁.map Prod.snd)).2 ++
      deliver skips (replay c (l₁.map Prod.snd)).1 (start + (l₁.map Prod.fst).flatten.length) l₂ := by
  induction l₁ generalizing c start with
  | nil => rfl
  | cons x rest ih =>
    obtain ⟨enc, i⟩ := x
    simp only [List.map_cons, List.flatten_cons, List.length_append] at h
    have hno : ¬ ∃ p ∈ skips, start ≤ p ∧ p < start + enc.length := by
      rintro ⟨p, hp, _, hlt⟩
      have := h p hp
      omega
    have hrest := ih (applyItem c i).1 (start + enc.length)
      (fun p hp => by have := h p hp; omega)
    rw [List.cons_append, deliver, if_neg hno]
    simp only [hrest, List.map_cons, List.flatten_cons, List.length_append, replay, List.append_assoc,
      Nat.add_assoc]

theorem deliver_past {q : Nat} (skips : List Nat) (c : Client) {start : Nat} (h : q < start)
    (l : List (List UInt8 × Item)) : deliver (q :: skips) c start l = deliver skips c start l := by
  induction l generalizing c start with
  | nil => rfl
  | cons x rest ih =>
    obtain ⟨enc, i⟩ := x
    have hsame : (∃ p ∈ q :: skips, start ≤ p ∧ p < start + enc.length) ↔
        ∃ p ∈ skips, start ≤ p ∧ p < start + enc.length := by
      rw [List.exists_mem_cons_iff]
      exact or_iff_right (by omega)
    simp only [deliver, hsame]
    rw [ih _ (by omega)]

/-- A request made while the first item is incomplete is one made before it. -/
theorem deliver_skip {q : Nat} (skips : List Nat) (c : Client) {start : Nat} (h : start ≤ q)
    {l : List (List UInt8 × Item)} (hlt : ∀ enc i l', l = (enc, i) :: l' → q < start + enc.length) :
    deliver (q :: skips) c start l = deliver skips (requestKeyframeSkip c) start l := by
  cases l with
  | nil => rfl
  | cons x rest =>
    obtain ⟨enc, i⟩ := x
    have hq := hlt enc i rest rfl
    have hone : ∃ p ∈ q :: skips, start ≤ p ∧ p < start + enc.length :=
      ⟨q, List.mem_cons_self, h, hq⟩
    have htwice : requestKeyframeSkip (requestKeyframeSkip c) = requestKeyframeSkip c := rfl
    rw [deliver, deliver, if_pos hone, htwice, ite_self, deliver_past skips _ hq]

theorem run_deliver (acts : List Action) : ∀ (c : Client) (start : Nat) {l : List (List UInt8 × Item)},
    c.fatal = false → wire.Spelled c.handshake l → c.buf ++ fed acts = (l.map Prod.fst).flatten →
    (∀ enc i l', l = (enc, i) :: l' → c.buf.length < enc.length) →
    (run c acts).2 = deliver (skipsAt (start + c.buf.length) acts) c start l := by
  induction acts with
  | nil =>
    intro c start l hf hl hbytes hhead
    cases l with
    | nil => rfl
    | cons x rest =>
      obtain ⟨enc, i⟩ := x
      have hlt := hhead enc i rest rfl
      have hlen := congrArg List.length hbytes
      simp only [fed, List.append_nil, List.map_cons, List.flatten_cons, List.length_append] at hlen
      omega
  | cons a rest ih =>
    intro c start l hf hl hbytes hhead
    cases a with
    | chunk bytes =>
      rw [fed, ← List.append_assoc] at hbytes
      obtain ⟨l₁, l₂, q, r, rfl, hread, hrest, hhead', hq, hparse⟩ :=
        hl.parse_cut (by intro p; cases p <;> rfl) hbytes
      have hphase := replay_phase (p := c.handshake) (b := c.buf ++ bytes) c rfl
      have hfatal := (replay_frame c (l₁.map Prod.snd)).1.trans hf
      have hlen := congrArg List.length hread
      rw [List.length_append, List.length_append] at hlen
      rw [hparse] at hphase
      rw [run, onBytes_parse hf, hparse, conclude_ok c rfl]
      simp only
      rw [ih { (replay c (l₁.map Prod.snd)).1 with buf := r }
          (start + (l₁.map Prod.fst).flatten.length) hfatal (hphase ▸ hq) hrest hhead',
        deliver_buf, deliver_replay l₂ c start, skipsAt]
      · rw [show start + (l₁.map Prod.fst).flatten.length + r.length = start + c.buf.length + bytes.length
          by omega]
      · intro p hp
        rw [skipsAt] at hp
        have := le_of_mem_skipsAt rest hp
        omega
    | skip =>
      rw [run, ih (requestKeyframeSkip c) start hf hl hbytes hhead, skipsAt, deliver_skip]
      · rfl
      · omega
      · intro enc i l' heq
        have := hhead enc i l' heq
        omega

/-! ## Which frames are left out -/

def isKeyframe : Message → Bool
  | .videoFrame _ keyframe _ => keyframe
  | _ => false

def isDelta : Message → Bool
  | .videoFrame _ keyframe _ => !keyframe
  | _ => false

/-- The messages a server sends. -/
def ServerSent : Message → Prop
  | .videoFrame .. | .configure .. => True
  | .reserved tag _ => tag ∉ interpretedTags
  | _ => False

/-- The event a message gives, `Reserved` none. -/
def event : Message → List Out
  | .videoFrame ptsUs keyframe nal => [.frame ptsUs keyframe nal]
  | .configure codec width height csd => [.configure codec csd width height]
  | _ => []

/-- A delta frame that ends at `e` is left out when a skip was requested before
its last byte was fed and every earlier keyframe was complete by then. -/
def Omitted (skips : List Nat) (earlier : List (Message × Nat)) (m : Message) (e : Nat) : Prop :=
  isDelta m = true ∧ ∃ p ∈ skips, p < e ∧ ∀ x ∈ earlier, isKeyframe x.1 = true → x.2 ≤ p

instance (skips : List Nat) (earlier : List (Message × Nat)) (m : Message) (e : Nat) :
    Decidable (Omitted skips earlier m e) := by
  unfold Omitted; infer_instance

/-- One event a message in order, those of the frames left out missing. -/
def expected (skips : List Nat) : List (Message × Nat) → List (Message × Nat) → List Out
  | _, [] => []
  | earlier, (m, e) :: rest =>
    (if Omitted skips earlier m e then [] else event m) ++ expected skips (earlier ++ [(m, e)]) rest

/-- Each message with the offset its encoding ends at. -/
def placed (pos : Nat) : List (List UInt8 × Message) → List (Message × Nat)
  | [] => []
  | (enc, m) :: rest => (m, pos + enc.length) :: placed (pos + enc.length) rest

theorem applyMessage_event (c : Client) {m : Message} (h : ServerSent m) :
    (applyMessage c m).2 = (if isDelta m = true ∧ c.skipUntilKey = true then [] else event m) ∧
      ((applyMessage c m).1.skipUntilKey = true ↔ c.skipUntilKey = true ∧ isKeyframe m = false) := by
  cases m with
  | videoFrame ptsUs keyframe nal =>
    cases keyframe <;> cases hs : c.skipUntilKey <;>
      simp [applyMessage, isDelta, isKeyframe, event, hs]
  | configure => simp [applyMessage, isDelta, isKeyframe, event]
  | reserved => simp [applyMessage, isDelta, isKeyframe, event]
  | _ => exact h.elim

/-- A skip was requested before `e`, and every earlier keyframe was complete by
then. -/
def Pending (skips : List Nat) (earlier : List (Message × Nat)) (e : Nat) : Prop :=
  ∃ p ∈ skips, p < e ∧ ∀ x ∈ earlier, isKeyframe x.1 = true → x.2 ≤ p

/-- The flag as an item between `start` and `stop` finds it. -/
theorem pending_request {skips : List Nat} {earlier : List (Message × Nat)} {c : Client}
    {start stop : Nat} (hle : start ≤ stop) (hpast : ∀ x ∈ earlier, x.2 ≤ start)
    (hflag : c.skipUntilKey = true ↔ Pending skips earlier start) :
    (if ∃ p ∈ skips, start ≤ p ∧ p < stop then requestKeyframeSkip c else c).skipUntilKey = true ↔
      Pending skips earlier stop := by
  constructor
  · intro h
    split at h
    · rename_i hnew
      obtain ⟨p, hp, hstart, hstop⟩ := hnew
      exact ⟨p, hp, hstop, fun x hx _ => Nat.le_trans (hpast x hx) hstart⟩
    · obtain ⟨p, hp, hlt, hkeys⟩ := hflag.mp h
      exact ⟨p, hp, Nat.lt_of_lt_of_le hlt hle, hkeys⟩
  · intro h
    obtain ⟨p, hp, hlt, hkeys⟩ := h
    split
    · rfl
    · rename_i hnew
      have hold : p < start := Nat.lt_of_not_le fun hstart => hnew ⟨p, hp, hstart, hlt⟩
      exact hflag.mpr ⟨p, hp, hold, hkeys⟩

/-- A keyframe that ends at `e` settles the requests before `e`. -/
theorem pending_snoc {skips : List Nat} {earlier : List (Message × Nat)} {m : Message} {e : Nat} :
    Pending skips (earlier ++ [(m, e)]) e ↔ Pending skips earlier e ∧ isKeyframe m = false := by
  constructor
  · intro h
    obtain ⟨p, hp, hlt, hkeys⟩ := h
    refine ⟨⟨p, hp, hlt, fun x hx => hkeys x (List.mem_append_left _ hx)⟩, ?_⟩
    by_contra hm
    have hle := hkeys (m, e) (by simp) (by simpa using hm)
    exact absurd hlt (Nat.not_lt.mpr hle)
  · intro h
    obtain ⟨⟨p, hp, hlt, hkeys⟩, hm⟩ := h
    refine ⟨p, hp, hlt, ?_⟩
    intro x hx hk
    rcases List.mem_append.mp hx with hx | hx
    · exact hkeys x hx hk
    · obtain rfl := List.mem_singleton.mp hx
      rw [hm] at hk
      cases hk

/-- What is delivered is what the requests' positions say. -/
theorem deliver_expected (skips : List Nat) (l : List (List UInt8 × Message)) :
    ∀ {c : Client} {start : Nat} {earlier : List (Message × Nat)}, (∀ x ∈ l, ServerSent x.2) →
    (c.skipUntilKey = true ↔ Pending skips earlier start) → (∀ x ∈ earlier, x.2 ≤ start) →
    deliver skips c start (l.map fun x => (x.1, .message x.2)) =
      expected skips earlier (placed start l) := by
  induction l with
  | nil => intros; rfl
  | cons x rest ih =>
    intro c start earlier hsent hflag hpast
    obtain ⟨enc, m⟩ := x
    have hflag' := pending_request (Nat.le_add_right start enc.length) hpast hflag
    -- the client as the message finds it
    generalize hc : (if ∃ p ∈ skips, start ≤ p ∧ p < start + enc.length then requestKeyframeSkip c
      else c) = c'
    rw [hc] at hflag'
    obtain ⟨hout, hnext⟩ := applyMessage_event c' (hsent _ List.mem_cons_self)
    have homit : Omitted skips earlier m (start + enc.length) ↔
        isDelta m = true ∧ c'.skipUntilKey = true := and_congr_right' hflag'.symm
    have hkeep : (applyMessage c' m).1.skipUntilKey = true ↔
        Pending skips (earlier ++ [(m, start + enc.length)]) (start + enc.length) := by
      rw [hnext, hflag', pending_snoc]
    have hpast' : ∀ x ∈ earlier ++ [(m, start + enc.length)], x.2 ≤ start + enc.length := by
      intro x hx
      rcases List.mem_append.mp hx with hx | hx
      · exact Nat.le_trans (hpast x hx) (Nat.le_add_right _ _)
      · obtain rfl := List.mem_singleton.mp hx
        exact Nat.le_refl _
    rw [List.map_cons, deliver, hc]
    show (applyMessage c' m).2 ++ deliver skips (applyMessage c' m).1 (start + enc.length) _ = _
    rw [hout, ih (fun x hx => hsent x (List.mem_cons_of_mem _ hx)) hkeep hpast', placed, expected]
    simp only [homit]

theorem expected_no_error (skips : List Nat) (l : List (Message × Nat)) (earlier : List (Message × Nat))
    (text : String) : .error text ∉ expected skips earlier l := by
  induction l generalizing earlier with
  | nil => exact List.not_mem_nil
  | cons x rest ih =>
    obtain ⟨m, e⟩ := x
    rw [expected, List.mem_append, not_or]
    refine ⟨?_, ih _⟩
    split
    · exact List.not_mem_nil
    · cases m <;> simp [event]

/-! ## A whole run -/

theorem fits_of_encode {m : Message} {b : List UInt8} (hs : ServerSent m)
    (hlen : 1 + m.payloadLen ≤ MAX_FRAME_LEN.toNat) (he : m.encode = .ok b) : m.Fits := by
  refine ⟨hlen, ?_⟩
  cases m with
  | configure codec width height csd =>
    obtain ⟨p, hp, _⟩ := bind_ok he
    simp only [Message.encodePayload, encodeConfig] at hp
    split at hp
    · cases hp
    · simp only [Message.FieldsFit]
      omega
  | reserved tag payload => exact hs
  | videoFrame => trivial
  | _ => exact hs.elim

theorem handshake_spells {h : Handshake} {hb : List UInt8} (hv : h.version = VERSION)
    (hh : encodeHandshake h = .ok hb) : wire.Spells false hb (.handshake h) := by
  obtain ⟨hwhole, hwait⟩ := encodeHandshake_spells hv hh
  exact ⟨fun s => wire_handshake (hwhole s), fun s hs hne => wire_handshake (hwait s hs hne)⟩

theorem message_spells {m : Message} {b : List UInt8} (hm : m.Fits) (he : m.encode = .ok b) :
    wire.Spells true b (.message m) := by
  obtain ⟨b', he', hwhole, hwait⟩ := encode_spells hm
  obtain rfl : b' = b := Except.ok.inj (he'.symm.trans he)
  exact ⟨fun s => wire_frame (hwhole s), fun s hs hne => wire_frame (hwait s hs hne)⟩

theorem messages_spelled {ms : List Message} {encs : List (List UInt8)}
    (hs : ∀ m ∈ ms, ServerSent m ∧ 1 + m.payloadLen ≤ MAX_FRAME_LEN.toNat)
    (he : List.Forall₂ (fun m b => m.encode = .ok b) ms encs) :
    wire.Spelled true ((encs.zip ms).map fun x => (x.1, .message x.2)) := by
  induction he with
  | nil => exact .nil true
  | cons hm _ ih =>
    obtain ⟨hsent, hlen⟩ := hs _ List.mem_cons_self
    exact .cons (message_spells (fits_of_encode hsent hlen hm) hm)
      (ih fun m hm => hs m (List.mem_cons_of_mem _ hm))

/-- **Server to client.** A handshake and messages, encoded, cut into chunks in
any way and fed with skip requests anywhere in between: the device name, the
configuration and one event a message come out in order, but for the delta
frames left out by a request, and no error does. -/
theorem run_stream (h : Handshake) (hb : List UInt8) (ms : List Message) (encs : List (List UInt8))
    (acts : List Action) (hv : h.version = VERSION) (hh : encodeHandshake h = .ok hb)
    (hs : ∀ m ∈ ms, ServerSent m ∧ 1 + m.payloadLen ≤ MAX_FRAME_LEN.toNat)
    (he : List.Forall₂ (fun m b => m.encode = .ok b) ms encs)
    (hacts : fed acts = hb ++ encs.flatten) :
    (run new acts).2 = [.deviceName h.deviceName, .configure h.codec h.csd h.width h.height] ++
        expected (skipsAt 0 acts) [] (placed hb.length (encs.zip ms)) ∧
      ∀ text, .error text ∉ (run new acts).2 := by
  have hfst : ((encs.zip ms).map fun x => (x.1, Item.message x.2)).map Prod.fst = encs := by
    rw [List.map_map]
    exact List.map_fst_zip (Nat.le_of_eq he.length_eq.symm)
  have hspelled : wire.Spelled false ((hb, .handshake h) ::
      (encs.zip ms).map fun x => (x.1, Item.message x.2)) :=
    .cons (handshake_spells hv hh) (messages_spelled hs he)
  have hrun := run_deliver acts new 0 rfl hspelled
    (by rw [List.map_cons, hfst, List.flatten_cons, ← hacts]; rfl)
    (by rintro enc i l' heq; cases heq; exact (handshake_spells hv hh).length_pos)
  generalize hskips : skipsAt 0 acts = skips
  -- a request made before the handshake is complete sets the flag all the same
  have hflag : (applyHandshake (if ∃ p ∈ skips, 0 ≤ p ∧ p < 0 + hb.length then requestKeyframeSkip new
      else new) h).1.skipUntilKey = true ↔ Pending skips [] (0 + hb.length) := by
    have hpast : ∀ x ∈ ([] : List (Message × Nat)), x.2 ≤ 0 := fun x hx => nomatch hx
    apply pending_request (Nat.le_add_right 0 hb.length) hpast
    refine iff_of_false Bool.false_ne_true ?_
    intro hnone
    obtain ⟨p, _, hlt, _⟩ := hnone
    exact Nat.not_lt_zero p hlt
  have hrest := deliver_expected skips (encs.zip ms)
    (fun x hx => (hs x.2 (List.of_mem_zip hx).2).1) hflag (fun x hx => nomatch hx)
  have hout : (run new acts).2 = [.deviceName h.deviceName, .configure h.codec h.csd h.width h.height] ++
      expected skips [] (placed hb.length (encs.zip ms)) := by
    rw [hrun, show 0 + new.buf.length = 0 from rfl, hskips, deliver]
    show _ ++ deliver skips (applyHandshake _ h).1 (0 + hb.length) _ = _
    rw [hrest, Nat.zero_add]
    rfl
  refine ⟨hout, fun text => ?_⟩
  rw [hout, List.mem_append, not_or]
  exact ⟨by simp, expected_no_error skips _ [] text⟩

/-- A request in the middle of the handshake: the delta frame is left out. -/
theorem run_stream_skip :
    (run new [.chunk [0x44, 0x4D, 0x49], .skip, .chunk ([0x52, 1, 1, 2, 0, 3, 0, 0, 0, 0, 0, 0] ++
      [15, 0, 0, 0, 1, 7, 0, 0, 0, 0, 0, 0, 0, 0, 1, 0, 0, 0, 8] ++
      [15, 0, 0, 0, 1, 9, 0, 0, 0, 0, 0, 0, 0, 1, 1, 0, 0, 0, 8])]).2 =
      [.deviceName "", .configure .h264 [] 2 3, .frame 9 true [8]] :=
  (run_stream ⟨1, .h264, 2, 3, [], "", 0⟩ [0x44, 0x4D, 0x49, 0x52, 1, 1, 2, 0, 3, 0, 0, 0, 0, 0, 0]
    [.videoFrame 7 false [8], .videoFrame 9 true [8]]
    [[15, 0, 0, 0, 1, 7, 0, 0, 0, 0, 0, 0, 0, 0, 1, 0, 0, 0, 8],
      [15, 0, 0, 0, 1, 9, 0, 0, 0, 0, 0, 0, 0, 1, 1, 0, 0, 0, 8]]
    [.chunk [0x44, 0x4D, 0x49], .skip, .chunk ([0x52, 1, 1, 2, 0, 3, 0, 0, 0, 0, 0, 0] ++
      [15, 0, 0, 0, 1, 7, 0, 0, 0, 0, 0, 0, 0, 0, 1, 0, 0, 0, 8] ++
      [15, 0, 0, 0, 1, 9, 0, 0, 0, 0, 0, 0, 0, 1, 1, 0, 0, 0, 8])]
    rfl rfl (by simp +decide [ServerSent, Message.payloadLen]) (.cons rfl (.cons rfl .nil)) rfl).1.trans
    (by decide)

end DroidMirror.Client
