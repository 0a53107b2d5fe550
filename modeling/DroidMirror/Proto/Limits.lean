import DroidMirror.Proto.Handshake

/-! # The declared limits

`MAX_FRAME_LEN`, `MAX_CSD_LEN`, `MAX_NAME_LEN` and `MAX_TEXT_LEN` at both ends
of the wire, and the length fields of what is written. Two things break them:
neither end checks a text against `MAX_TEXT_LEN`, and `encode_frame` narrows the
payload's length to a `u32` before it compares it with the cap (`limits_iff`). -/
namespace DroidMirror.Proto
open DroidMirror.Lib.LittleEndian

/-! ## Length fields -/

/-- The length in the `w` bytes at `i`. -/
def lenField (out : List UInt8) (i w : Nat) : Nat := ofLE (slice out i (i + w))

/-- The length field at `i` is the length of what follows it. -/
def CountsRest (out : List UInt8) (i w : Nat) : Prop :=
  lenField out i w = (out.drop (i + w)).length

/-- The length field of a message's payload: its offset there and its width. -/
def Message.lenFieldAt : Message → Option (Nat × Nat)
  | .videoFrame .. => some (9, 4)
  | .configure .. => some (5, 2)
  | .text _ => some (0, 2)
  | _ => none

/-- A length field written between what is in front of it and what it counts. -/
theorem countsRest_middle {a f r : List UInt8} {i w : Nat} (ha : a.length = i) (hf : f.length = w)
    (hn : ofLE f = r.length) : CountsRest (a ++ f ++ r) i w := by
  have hdrop : (a ++ f ++ r).drop (i + w) = r := List.drop_left' (by simp [ha, hf])
  rw [CountsRest, lenField, slice_middle ha (by rw [hf]), hdrop, hn]

theorem encodePayload_countsRest {m : Message} {p : List UInt8} (h : m.encodePayload = .ok p)
    {i w : Nat} (hat : m.lenFieldAt = some (i, w)) : CountsRest p i w := by
  have hmax := max_frame_len_toNat
  cases m with
  | videoFrame ptsUs keyframe nal =>
    cases hat
    obtain ⟨hlen, h⟩ := of_guard h
    cases h
    refine countsRest_middle (by simp) (by simp) ?_
    rw [ofLE_leU32, toNat_ofNat_u32 (by omega)]
  | configure codec width height csd =>
    cases hat
    obtain ⟨hlen, h⟩ := of_guard h
    cases h
    refine countsRest_middle (by simp) (by simp) ?_
    rw [ofLE_leU16, toNat_ofNat_u16 (by omega)]
  | text s =>
    cases hat
    obtain ⟨hlen, h⟩ := of_guard h
    cases h
    refine countsRest_middle (a := []) (f := leU16 _) rfl (by simp) ?_
    rw [ofLE_leU16, toNat_ofNat_u16 (by omega)]
  | _ => cases hat

/-- A payload's length field keeps counting in the frame around it. -/
theorem frameBytes_countsRest (tag : UInt8) {p : List UInt8} {i w : Nat} (h : CountsRest p i w) :
    CountsRest (frameBytes tag p) (5 + i) w := by
  have hfront : (leU32 (.ofNat (1 + p.length)) ++ [tag]).length = 5 := by simp
  have hdrop : (frameBytes tag p).drop (5 + i + w) = p.drop (i + w) := by
    rw [frameBytes, List.drop_append, List.drop_of_length_le (by omega), List.nil_append, hfront]
    congr 1
    omega
  have hslice : slice (frameBytes tag p) (5 + i) (5 + i + w) = slice p i (i + w) := by
    rw [frameBytes, slice_append_right (by omega), hfront]
    congr 1 <;> omega
  rw [CountsRest, lenField] at h ⊢
  rw [hdrop, hslice, h]

/-! ## `encode_frame` -/

/-- The frame's own length field, when it is accepted. -/
theorem frameBytes_total {tag : UInt8} {p : List UInt8} :
    CountsRest (frameBytes tag p) 0 4 ↔ 1 + p.length < 2 ^ 32 := by
  have hdrop : (frameBytes tag p).drop 4 = [tag] ++ p := by
    rw [frameBytes, List.append_assoc]
    exact List.drop_left' (by simp)
  have hfield : lenField (frameBytes tag p) 0 4 = (1 + p.length) % 2 ^ 32 := by
    have hslice : slice (frameBytes tag p) 0 (0 + 4) = leU32 (.ofNat (1 + p.length)) := by
      rw [frameBytes, List.append_assoc]
      exact slice_middle (a := []) rfl (by simp)
    rw [lenField, hslice, ofLE_leU32]
    simp
  rw [CountsRest, hfield, hdrop, List.length_append, List.length_singleton]
  omega

/-- The payloads `encode_frame` does not accept by their length modulo 2^32 alone. -/
def NotWrapped (p : List UInt8) : Prop :=
  p.length < 2 ^ 32 ∨ MAX_FRAME_LEN.toNat ≤ p.length % 2 ^ 32

theorem encodeFrame_limits_iff (tag : UInt8) (p : List UInt8) :
    (∀ out, encodeFrame tag p = .ok out →
      CountsRest out 0 4 ∧ (out.drop 4).length ≤ MAX_FRAME_LEN.toNat) ↔ NotWrapped p := by
  have hmax := max_frame_len_toNat
  have hrest : ((frameBytes tag p).drop 4).length = 1 + p.length := by simp; omega
  constructor
  · intro h
    by_cases hcap : 1 + p.length % 2 ^ 32 ≤ MAX_FRAME_LEN.toNat
    · have htrue := frameBytes_total.mp (h _ (encodeFrame_iff.mpr ⟨hcap, rfl⟩)).1
      exact .inl (by omega)
    · exact .inr (by omega)
  · intro h out hout
    obtain ⟨hcap, rfl⟩ := encodeFrame_iff.mp hout
    have hlt : p.length < 2 ^ 32 := h.resolve_right (by omega)
    rw [Nat.mod_eq_of_lt hlt] at hcap
    exact ⟨frameBytes_total.mpr (by omega), by omega⟩

/-! ## Messages -/

/-- The declared limits on what a message carries. -/
def Message.ContentFits : Message → Prop
  | .configure _ _ _ csd => csd.length ≤ MAX_CSD_LEN
  | .text s => (asBytes s).length ≤ MAX_TEXT_LEN
  | _ => True

/-- What is asked of the frame written for a message. -/
structure FrameSound (m : Message) (out : List UInt8) : Prop where
  total : CountsRest out 0 4
  inner : ∀ i w, m.lenFieldAt = some (i, w) → CountsRest out (5 + i) w
  framed : (out.drop 4).length ≤ MAX_FRAME_LEN.toNat
  content : m.ContentFits

/-- The messages that `encode` refuses or writes within the limits. -/
def Message.EncodesWithin : Message → Prop
  | .text s => (asBytes s).length ≤ MAX_TEXT_LEN ∨ 65535 < (asBytes s).length
  | .reserved _ payload => NotWrapped payload
  | _ => True

theorem encode_iff {m : Message} {out : List UInt8} :
    m.encode = .ok out ↔ ∃ p, m.encodePayload = .ok p ∧ encodeFrame m.tag p = .ok out := by
  constructor
  · exact bind_ok
  · rintro ⟨p, hp, hout⟩
    rw [Message.encode, hp]
    exact hout

theorem encodePayload_text {s : String} (h : (asBytes s).length ≤ 65535) :
    (Message.text s).encodePayload = .ok (leU16 (.ofNat (asBytes s).length) ++ asBytes s) :=
  if_neg (by omega)

/-- Every text that a `u16` can count is written. -/
theorem encode_text {s : String} (h : (asBytes s).length ≤ 65535) :
    ∃ out, (Message.text s).encode = .ok out := by
  have hmax := max_frame_len_toNat
  refine ⟨_, encode_iff.mpr ⟨_, encodePayload_text h, encodeFrame_iff.mpr ⟨?_, rfl⟩⟩⟩
  rw [List.length_append, length_leU16]
  omega

/-- Only a reserved payload can be of any length. -/
theorem encodePayload_notWrapped {m : Message} {p : List UInt8} (hm : m.EncodesWithin)
    (h : m.encodePayload = .ok p) : NotWrapped p := by
  have hmax := max_frame_len_toNat
  cases m with
  | reserved tag payload =>
    cases h
    exact hm
  | videoFrame ptsUs keyframe nal =>
    obtain ⟨hlen, h⟩ := of_guard h
    cases h
    left
    simp
    omega
  | configure codec width height csd =>
    obtain ⟨hlen, h⟩ := of_guard h
    cases h
    left
    simp
    omega
  | text s =>
    obtain ⟨hlen, h⟩ := of_guard h
    cases h
    left
    rw [List.length_append, length_leU16]
    omega
  | _ =>
    left
    cases h
    simp

theorem encode_content {m : Message} {p : List UInt8} (hm : m.EncodesWithin)
    (h : m.encodePayload = .ok p) : m.ContentFits := by
  cases m with
  | configure codec width height csd =>
    exact Nat.le_of_not_lt (not_or.mp (of_guard h).1).1
  | text s =>
    have hlen := (of_guard h).1
    exact hm.resolve_right (by omega)
  | _ => trivial

theorem encode_limits_iff (m : Message) :
    (∀ out, m.encode = .ok out → FrameSound m out) ↔ m.EncodesWithin := by
  constructor
  · intro h
    cases m with
    | text s =>
      by_cases hlen : (asBytes s).length ≤ 65535
      · obtain ⟨out, hout⟩ := encode_text hlen
        exact .inl (h out hout).content
      · exact .inr (by omega)
    | reserved tag payload =>
      refine (encodeFrame_limits_iff tag payload).mp fun out hout => ?_
      have hsound := h out (encode_iff.mpr ⟨payload, rfl, hout⟩)
      exact ⟨hsound.total, hsound.framed⟩
    | _ => trivial
  · intro hm out hout
    obtain ⟨p, hp, hframe⟩ := encode_iff.mp hout
    obtain ⟨htotal, hframed⟩ :=
      (encodeFrame_limits_iff m.tag p).mpr (encodePayload_notWrapped hm hp) out hframe
    obtain ⟨_, rfl⟩ := encodeFrame_iff.mp hframe
    refine ⟨htotal, ?_, hframed, encode_content hm hp⟩
    intro i w hat
    exact frameBytes_countsRest m.tag (encodePayload_countsRest hp hat)

/-! ## The handshake -/

/-- What is asked of the bytes written for a handshake. -/
structure HandshakeSound (h : Handshake) (out : List UInt8) : Prop where
  csd : slice out 12 (12 + lenField out 10 2) = h.csd
  name : slice out (12 + h.csd.length + 2)
    (12 + h.csd.length + 2 + lenField out (12 + h.csd.length) 2) = asBytes h.deviceName
  whole : out.length = 12 + lenField out 10 2 + 2 + lenField out (12 + h.csd.length) 2 + 1
  csdMax : h.csd.length ≤ MAX_CSD_LEN
  nameMax : (asBytes h.deviceName).length ≤ MAX_NAME_LEN

theorem Handshake.Fits.csdMax {h : Handshake} (hf : h.Fits) : h.csd.length ≤ MAX_CSD_LEN :=
  Nat.le_trans hf.csd (by decide)

theorem encodeHandshake_sound {h : Handshake} {out : List UInt8}
    (he : encodeHandshake h = .ok out) : HandshakeSound h out := by
  obtain ⟨hf, rfl⟩ := encodeHandshake_iff.mp he
  have hcsd : lenField h.bytes 10 2 = h.csd.length := by
    rw [lenField, ← List.append_nil h.bytes, bytes_csdLen, ofLE_leU16, toNat_ofNat_u16 hf.csd]
  have hname : lenField h.bytes (12 + h.csd.length) 2 = (asBytes h.deviceName).length := by
    have hmax : MAX_NAME_LEN = 256 := rfl
    have hfit := hf.name
    rw [lenField, ← List.append_nil h.bytes, bytes_nameLen, ofLE_leU16, toNat_ofNat_u16 (by omega)]
  refine ⟨?_, ?_, ?_, hf.csdMax, hf.name⟩
  · rw [hcsd, ← List.append_nil h.bytes, bytes_csd]
  · rw [hname, ← List.append_nil h.bytes, bytes_name]
  · rw [hcsd, hname, Handshake.length_bytes]

/-! ## What is accepted -/

/-- The bytes start with the frame of a text longer than `MAX_TEXT_LEN`. -/
def LongTextInFront (b : List UInt8) : Prop :=
  ∃ s : String, MAX_TEXT_LEN < (asBytes s).length ∧ (asBytes s).length ≤ 65535 ∧
    frameBytes TAG_TEXT (leU16 (.ofNat (asBytes s).length) ++ asBytes s) <+: b

theorem decode_limits_iff (b : List UInt8) :
    (∀ m n, tryDecodeFrame b = .ok (some (m, n)) →
      n = 4 + (1 + m.payloadLen) ∧ 1 + m.payloadLen ≤ MAX_FRAME_LEN.toNat ∧ m.ContentFits) ↔
      ¬ LongTextInFront b := by
  have hmax := max_frame_len_toNat
  constructor
  · rintro h ⟨s, hlong, hlen, t, rfl⟩
    have hdec := tryDecodeFrame_frame TAG_TEXT
      (p := leU16 (.ofNat (asBytes s).length) ++ asBytes s) t
      (by rw [List.length_append, length_leU16]; omega)
    have htext : decodePayload TAG_TEXT (leU16 (.ofNat (asBytes s).length) ++ asBytes s) =
        .ok (.text s) := decodeText_encode hlen
    rw [htext] at hdec
    have hfits : (asBytes s).length ≤ MAX_TEXT_LEN := (h _ _ hdec).2.2
    omega
  · intro h m n hd
    obtain ⟨tag, p, hfit, hn, hle, hfront, hp⟩ := tryDecodeFrame_some hd
    obtain ⟨htag, hfields, hlen, hbytes⟩ := decodePayload_reencodes hp
    refine ⟨by omega, by omega, ?_⟩
    cases m with
    | configure codec width height csd =>
      have hcsd : csd.length ≤ 65535 := hfields
      exact Nat.le_trans hcsd (by decide)
    | text s =>
      have hshort : (asBytes s).length ≤ 65535 := hfields
      refine Nat.le_of_not_lt fun hlong => h ⟨s, hlong, hshort, ?_⟩
      have hpayload : leU16 (.ofNat (asBytes s).length) ++ asBytes s = p :=
        List.ext_getElem? fun i => hbytes _ (encodePayload_text hshort) i (Option.some_ne_none _).symm
      rw [hpayload, show TAG_TEXT = tag from htag, ← hfront]
      exact List.take_prefix n b
    | _ => trivial

/-- **When the declared limits hold.** A message is written within them unless it is a text of
more than `MAX_TEXT_LEN` bytes that a `u16` can still count, or a reserved payload whose length
modulo 2^32 passes the cap; a payload handed to `encode_frame` likewise, a handshake always. A frame
is accepted within them unless it is that of a longer text, a handshake always. -/
theorem limits_iff (m : Message) (h : Handshake) (tag : UInt8) (p b : List UInt8) :
    ((∀ out, m.encode = .ok out → FrameSound m out) ↔ m.EncodesWithin) ∧
      ((∀ out, encodeFrame tag p = .ok out →
        CountsRest out 0 4 ∧ (out.drop 4).length ≤ MAX_FRAME_LEN.toNat) ↔ NotWrapped p) ∧
      (∀ out, encodeHandshake h = .ok out → HandshakeSound h out) ∧
      ((∀ m n, tryDecodeFrame b = .ok (some (m, n)) →
        n = 4 + (1 + m.payloadLen) ∧ 1 + m.payloadLen ≤ MAX_FRAME_LEN.toNat ∧ m.ContentFits) ↔
        ¬ LongTextInFront b) ∧
      ∀ h n, tryDecodeHandshake b = .ok (some (h, n)) →
        h.csd.length ≤ MAX_CSD_LEN ∧ (asBytes h.deviceName).length ≤ MAX_NAME_LEN := by
  refine ⟨encode_limits_iff m, encodeFrame_limits_iff tag p, fun out => encodeHandshake_sound,
    decode_limits_iff b, ?_⟩
  intro h n hd
  obtain ⟨_, hf, _⟩ := tryDecodeHandshake_some hd
  exact ⟨hf.csdMax, hf.name⟩

theorem length_asBytes_replicate (n : Nat) :
    (asBytes (String.ofList (List.replicate n 'a'))).length = n := by
  show (List.replicate n 'a').utf8Encode.size = n
  induction n with
  | zero => rfl
  | succ n ih =>
    have ha : 'a'.utf8Size = 1 := by decide
    rw [List.replicate_succ, List.utf8Encode_cons, ByteArray.size_append, ih,
      List.utf8Encode_singleton]
    simp [ha]
    omega

/-- A text of one byte too many is written all the same. -/
theorem long_text_written :
    ¬ ∀ m out, Message.encode m = .ok out → FrameSound m out := by
  intro h
  have hlen := length_asBytes_replicate 4097
  obtain ⟨out, hout⟩ := encode_text (s := String.ofList (List.replicate 4097 'a')) (by omega)
  have hfits : (asBytes (String.ofList (List.replicate 4097 'a'))).length ≤ 4096 := (h _ out hout).content
  omega

end DroidMirror.Proto
