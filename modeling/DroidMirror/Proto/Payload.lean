import DroidMirror.Proto.Message

/-! # Message payloads

`encode_payload` and `decode_payload`. A message that fits is encoded to a
payload that decodes to it (`encodePayload_decode`), and what a payload decodes
to is encoded to that payload again, up to the two bytes of which only one bit
is read (`decodePayload_reencodes`). -/
namespace DroidMirror.Proto
open DroidMirror.Lib.LittleEndian

/-! ## Encoding -/

def encodeConfig (codec : Codec) (width height : UInt16) (csd : List UInt8) :
    Except ProtoError (List UInt8) :=
  if csd.length > MAX_CSD_LEN ∨ csd.length > 65535 then .error (.badLength (.ofNat csd.length))
  else .ok ([codec.toU8] ++ leU16 width ++ leU16 height ++ leU16 (.ofNat csd.length) ++ csd)

def Message.encodePayload : Message → Except ProtoError (List UInt8)
  | .videoFrame ptsUs keyframe nal =>
    if nal.length > MAX_FRAME_LEN.toNat then .error (.badLength (.ofNat nal.length))
    else .ok (leU64 ptsUs ++ [if keyframe then FLAG_KEYFRAME else 0] ++
      leU32 (.ofNat nal.length) ++ nal)
  | .configure codec width height csd => encodeConfig codec width height csd
  | .touch action pointerId x y pressure =>
    .ok ([action] ++ [pointerId] ++ leI32 x ++ leI32 y ++ leU16 pressure)
  | .key action keycode metaState => .ok ([action] ++ leU32 keycode ++ leU32 metaState)
  | .text s =>
    let b := asBytes s
    if b.length > 65535 then .error (.badLength (.ofNat b.length))
    else .ok (leU16 (.ofNat b.length) ++ b)
  | .scroll x y h v => .ok (leI32 x ++ leI32 y ++ leI32 h ++ leI32 v)
  | .setEncoding bitrate maxFps maxSize => .ok (leU32 bitrate ++ leU32 maxFps ++ leU16 maxSize)
  | .keySyn keycode action => .ok (leU32 keycode ++ [action])
  | .pauseResume on => .ok [if on then 1 else 0]
  | .reserved _ payload => .ok payload

/-! ## Decoding -/

def decodeVideoFrame (payload : List UInt8) : Except ProtoError Message :=
  if payload.length < 13 then .error (.malformed TAG_VIDEO_FRAME)
  else
    let flags := byteAt payload 8
    let nalLen := (readU32 (slice payload 9 13)).toNat
    if payload.length ≠ 13 + nalLen then .error (.malformed TAG_VIDEO_FRAME)
    else .ok (.videoFrame (readU64 (slice payload 0 8)) (decide (flags &&& FLAG_KEYFRAME ≠ 0))
      (payload.drop 13))

def decodeConfigure (payload : List UInt8) : Except ProtoError Message :=
  if payload.length < 7 then .error (.malformed TAG_CONFIGURE)
  else
    match Codec.fromU8 (byteAt payload 0) with
    | none => .error (.badCodec (byteAt payload 0))
    | some codec =>
      let csdLen := (readU16 (slice payload 5 7)).toNat
      if csdLen > MAX_CSD_LEN ∨ payload.length ≠ 7 + csdLen then .error (.malformed TAG_CONFIGURE)
      else .ok (.configure codec (readU16 (slice payload 1 3)) (readU16 (slice payload 3 5))
        (payload.drop 7))

def decodeText (payload : List UInt8) : Except ProtoError Message :=
  if payload.length < 2 then .error (.malformed TAG_TEXT)
  else
    let n := (readU16 (slice payload 0 2)).toNat
    if payload.length ≠ 2 + n then .error (.malformed TAG_TEXT)
    else
      match fromUtf8 (payload.drop 2) with
      | none => .error .badUtf8
      | some s => .ok (.text s)

/-- The arms that accept one payload length and read fixed fields. -/
def decodeFixed (tag : UInt8) (len : Nat) (read : List UInt8 → Message) (payload : List UInt8) :
    Except ProtoError Message :=
  if payload.length ≠ len then .error (.malformed tag) else .ok (read payload)

def decodeTouch : List UInt8 → Except ProtoError Message :=
  decodeFixed TAG_TOUCH 12 fun p => .touch (byteAt p 0) (byteAt p 1)
    (readI32 (slice p 2 6)) (readI32 (slice p 6 10)) (readU16 (slice p 10 12))

def decodeKey : List UInt8 → Except ProtoError Message :=
  decodeFixed TAG_KEY 9 fun p => .key (byteAt p 0) (readU32 (slice p 1 5)) (readU32 (slice p 5 9))

def decodeScrollMsg : List UInt8 → Except ProtoError Message :=
  decodeFixed TAG_SCROLL 16 fun p => .scroll (readI32 (slice p 0 4)) (readI32 (slice p 4 8))
    (readI32 (slice p 8 12)) (readI32 (slice p 12 16))

def decodeSetEncoding : List UInt8 → Except ProtoError Message :=
  decodeFixed TAG_SET_ENCODING 10 fun p => .setEncoding (readU32 (slice p 0 4))
    (readU32 (slice p 4 8)) (readU16 (slice p 8 10))

def decodeKeySyn : List UInt8 → Except ProtoError Message :=
  decodeFixed TAG_KEY_SYN 5 fun p => .keySyn (readU32 (slice p 0 4)) (byteAt p 4)

def decodePause : List UInt8 → Except ProtoError Message :=
  decodeFixed TAG_PAUSE 1 fun p => .pauseResume (decide (byteAt p 0 ≠ 0))

def decodePayload (tag : UInt8) (payload : List UInt8) : Except ProtoError Message :=
  if tag = TAG_VIDEO_FRAME then decodeVideoFrame payload
  else if tag = TAG_CONFIGURE then decodeConfigure payload
  else if tag = TAG_TOUCH then decodeTouch payload
  else if tag = TAG_KEY then decodeKey payload
  else if tag = TAG_TEXT then decodeText payload
  else if tag = TAG_SCROLL then decodeScrollMsg payload
  else if tag = TAG_SET_ENCODING then decodeSetEncoding payload
  else if tag = TAG_KEY_SYN then decodeKeySyn payload
  else if tag = TAG_PAUSE then decodePause payload
  else .ok (.reserved tag payload)

/-! ## What a frame carries -/

/-- The tags `decode_payload` interprets. -/
def interpretedTags : List UInt8 :=
  [TAG_VIDEO_FRAME, TAG_CONFIGURE, TAG_TOUCH, TAG_KEY, TAG_TEXT, TAG_SCROLL, TAG_SET_ENCODING,
    TAG_KEY_SYN, TAG_PAUSE]

/-- The payload's length, the tag byte not counted. -/
def Message.payloadLen : Message → Nat
  | .videoFrame _ _ nal => 13 + nal.length
  | .configure _ _ _ csd => 7 + csd.length
  | .touch .. => 12
  | .key .. => 9
  | .text s => 2 + (asBytes s).length
  | .scroll .. => 16
  | .setEncoding .. => 10
  | .keySyn .. => 5
  | .pauseResume _ => 1
  | .reserved _ payload => payload.length

/-- The `u16` length fields are not exceeded, and a reserved tag is one the
decoder leaves alone. -/
def Message.FieldsFit : Message → Prop
  | .configure _ _ _ csd => csd.length ≤ 65535
  | .text s => (asBytes s).length ≤ 65535
  | .reserved tag _ => tag ∉ interpretedTags
  | _ => True

/-- What the frame format can carry. -/
structure Message.Fits (m : Message) : Prop where
  frame : 1 + m.payloadLen ≤ MAX_FRAME_LEN.toNat
  fields : m.FieldsFit

instance (m : Message) : Decidable m.FieldsFit := by
  cases m <;> unfold Message.FieldsFit <;> infer_instance

instance (m : Message) : Decidable m.Fits :=
  decidable_of_iff (1 + m.payloadLen ≤ MAX_FRAME_LEN.toNat ∧ m.FieldsFit)
    ⟨fun h => ⟨h.1, h.2⟩, fun h => ⟨h.frame, h.fields⟩⟩

/-! ## Payload round trips -/

theorem toNat_ofNat_u16 {n : Nat} (h : n ≤ 65535) : (UInt16.ofNat n).toNat = n := by
  simp; omega

theorem toNat_ofNat_u32 {n : Nat} (h : n < 2 ^ 32) : (UInt32.ofNat n).toNat = n := by
  simp; omega

theorem decodeVideoFrame_encode (ptsUs : UInt64) (keyframe : Bool) {nal : List UInt8}
    (h : nal.length < 2 ^ 32) :
    decodeVideoFrame (leU64 ptsUs ++ [if keyframe then FLAG_KEYFRAME else 0] ++
      leU32 (.ofNat nal.length) ++ nal) = .ok (.videoFrame ptsUs keyframe nal) := by
  have hdrop : (leU64 ptsUs ++ [if keyframe then FLAG_KEYFRAME else 0] ++
      leU32 (.ofNat nal.length) ++ nal).drop 13 = nal := List.drop_left' (by simp)
  have hnal : (UInt32.ofNat nal.length).toNat = nal.length := toNat_ofNat_u32 h
  unfold decodeVideoFrame
  rw [hdrop, if_neg (by simp; omega), if_neg (by simp; omega)]
  cases keyframe <;> simp [FLAG_KEYFRAME]

theorem decodeConfigure_encode (codec : Codec) (width height : UInt16) {csd : List UInt8}
    (h : csd.length ≤ 65535) :
    decodeConfigure ([codec.toU8] ++ leU16 width ++ leU16 height ++ leU16 (.ofNat csd.length) ++ csd) =
      .ok (.configure codec width height csd) := by
  have hdrop : ([codec.toU8] ++ leU16 width ++ leU16 height ++ leU16 (.ofNat csd.length) ++
      csd).drop 7 = csd := List.drop_left' (by simp)
  have hcodec : byteAt ([codec.toU8] ++ leU16 width ++ leU16 height ++ leU16 (.ofNat csd.length) ++
      csd) 0 = codec.toU8 := rfl
  have hcsd : (UInt16.ofNat csd.length).toNat = csd.length := toNat_ofNat_u16 h
  unfold decodeConfigure
  rw [hdrop, hcodec, if_neg (by simp; omega), Codec.fromU8_toU8]
  simp only
  rw [if_neg (by simp [MAX_CSD_LEN]; omega)]
  simp

theorem decodeText_encode {s : String} (h : (asBytes s).length ≤ 65535) :
    decodeText (leU16 (.ofNat (asBytes s).length) ++ asBytes s) = .ok (.text s) := by
  have hdrop : (leU16 (.ofNat (asBytes s).length) ++ asBytes s).drop 2 = asBytes s :=
    List.drop_left' (by simp)
  have hn : (UInt16.ofNat (asBytes s).length).toNat = (asBytes s).length := toNat_ofNat_u16 h
  unfold decodeText
  rw [hdrop, if_neg (by rw [List.length_append, length_leU16]; omega), if_neg (by simp; omega),
    fromUtf8_asBytes]

/-- A message that fits is encoded to a payload of its length that decodes to it. -/
theorem encodePayload_decode {m : Message} (h : m.Fits) :
    ∃ p, m.encodePayload = .ok p ∧ p.length = m.payloadLen ∧ decodePayload m.tag p = .ok m := by
  have hframe := h.frame
  have hfields := h.fields
  have hmax : MAX_FRAME_LEN.toNat = 8388608 := by decide
  cases m with
  | videoFrame ptsUs keyframe nal =>
    simp only [Message.payloadLen, hmax] at hframe
    refine ⟨_, if_neg (by omega), by simp [Message.payloadLen]; omega, ?_⟩
    exact decodeVideoFrame_encode ptsUs keyframe (by omega)
  | configure codec width height csd =>
    simp only [Message.FieldsFit] at hfields
    refine ⟨_, if_neg (by simp [MAX_CSD_LEN]; omega), by simp [Message.payloadLen]; omega, ?_⟩
    exact decodeConfigure_encode codec width height hfields
  | text s =>
    simp only [Message.FieldsFit] at hfields
    exact ⟨_, if_neg (by omega), by simp [Message.payloadLen], decodeText_encode hfields⟩
  | touch action pointerId x y pressure =>
    refine ⟨_, rfl, by simp [Message.payloadLen], ?_⟩
    simp +decide [decodePayload, Message.tag, decodeTouch, decodeFixed]
  | key action keycode metaState =>
    refine ⟨_, rfl, by simp [Message.payloadLen], ?_⟩
    simp +decide [decodePayload, Message.tag, decodeKey, decodeFixed]
  | scroll x y h v =>
    refine ⟨_, rfl, by simp [Message.payloadLen], ?_⟩
    simp +decide [decodePayload, Message.tag, decodeScrollMsg, decodeFixed]
  | setEncoding bitrate maxFps maxSize =>
    refine ⟨_, rfl, by simp [Message.payloadLen], ?_⟩
    simp +decide [decodePayload, Message.tag, decodeSetEncoding, decodeFixed]
  | keySyn keycode action =>
    refine ⟨_, rfl, by simp [Message.payloadLen], ?_⟩
    simp +decide [decodePayload, Message.tag, decodeKeySyn, decodeFixed]
  | pauseResume on =>
    refine ⟨_, rfl, by simp [Message.payloadLen], ?_⟩
    cases on <;> decide
  | reserved tag payload =>
    refine ⟨_, rfl, rfl, ?_⟩
    simp only [Message.FieldsFit, interpretedTags, List.mem_cons, not_or] at hfields
    simp +decide [decodePayload, Message.tag, hfields]

/-! ## Accepted payloads re-encode -/

/-- What is accepted has passed the check in front. -/
theorem of_guard {ε α : Type} {c : Prop} [Decidable c] {e : ε} {x : Except ε α} {a : α}
    (h : (if c then .error e else x) = .ok a) : ¬ c ∧ x = .ok a := by
  split at h
  · cases h
  · exact ⟨‹_›, h⟩

/-- The frame offset of the byte of which the decoder reads one bit only. -/
def Message.looseAt : Message → Option Nat
  | .videoFrame .. => some 13
  | .pauseResume _ => some 5
  | _ => none

/-- What decoding a payload says about the message: it has the payload's tag
and length, and any encoding of it is the payload again but for the loose byte. -/
structure Reencodes (tag : UInt8) (p : List UInt8) (m : Message) : Prop where
  tag_eq : m.tag = tag
  fields : m.FieldsFit
  len : m.payloadLen = p.length
  bytes : ∀ p', m.encodePayload = .ok p' → ∀ i, m.looseAt ≠ some (5 + i) → p'[i]? = p[i]?

theorem decodeVideoFrame_reencodes {p : List UInt8} {m : Message}
    (h : decodeVideoFrame p = .ok m) : Reencodes TAG_VIDEO_FRAME p m := by
  obtain ⟨hmin, h⟩ := of_guard h
  obtain ⟨hlen, h⟩ := of_guard h
  cases h
  have hlen : p.length = 13 + (readU32 (slice p 9 13)).toNat := not_not.mp hlen
  have hnal : UInt32.ofNat (p.drop 13).length = readU32 (slice p 9 13) := by
    rw [List.length_drop, hlen, Nat.add_sub_cancel_left, UInt32.ofNat_toNat]
  refine ⟨rfl, trivial, by simp [Message.payloadLen]; omega, ?_⟩
  intro p' hp' i hi
  have hi : i ≠ 8 := by rintro rfl; exact hi rfl
  have hp' := Except.ok.inj (of_guard hp').2
  have hp : p = slice p 0 8 ++ [byteAt p 8] ++ slice p 9 p.length := by
    rw [singleton_byteAt (by omega), slice_glue p (by omega) (by omega),
      slice_glue p (by omega) (by omega), slice_all (Nat.le_refl _)]
  rw [← hp', hnal, leU32_slice (by omega), leU64_slice (i := 0) (by omega), ← slice_to_end,
    List.append_assoc, slice_glue p (by omega) (by omega)]
  conv => rhs; rw [hp]
  exact getElem?_around (by simp; omega)

theorem decodeConfigure_reencodes {p : List UInt8} {m : Message}
    (h : decodeConfigure p = .ok m) : Reencodes TAG_CONFIGURE p m := by
  obtain ⟨hmin, h⟩ := of_guard h
  split at h
  · cases h
  rename_i codec hcodec
  obtain ⟨hlen, h⟩ := of_guard h
  cases h
  have hlen : p.length = 7 + (readU16 (slice p 5 7)).toNat := not_not.mp (not_or.mp hlen).2
  have hle : (readU16 (slice p 5 7)).toNat < 65536 := UInt16.toNat_lt _
  have hcsd : UInt16.ofNat (p.drop 7).length = readU16 (slice p 5 7) := by
    rw [List.length_drop, hlen, Nat.add_sub_cancel_left, UInt16.ofNat_toNat]
  refine ⟨rfl, by simp [Message.FieldsFit]; omega, by simp [Message.payloadLen]; omega, ?_⟩
  intro p' hp' i _
  have hp' := Except.ok.inj (of_guard hp').2
  rw [← hp', Codec.toU8_fromU8 hcodec, hcsd, leU16_slice (by omega), leU16_slice (by omega),
    leU16_slice (by omega), singleton_byteAt (by omega), ← slice_to_end,
    slice_glue p (by omega) (by omega), slice_glue p (by omega) (by omega),
    slice_glue p (by omega) (by omega), slice_glue p (by omega) (by omega),
    slice_all (Nat.le_refl _)]

theorem decodeText_reencodes {p : List UInt8} {m : Message}
    (h : decodeText p = .ok m) : Reencodes TAG_TEXT p m := by
  obtain ⟨hmin, h⟩ := of_guard h
  obtain ⟨hlen, h⟩ := of_guard h
  have hlen : p.length = 2 + (readU16 (slice p 0 2)).toNat := not_not.mp hlen
  have hle : (readU16 (slice p 0 2)).toNat < 65536 := UInt16.toNat_lt _
  split at h
  · cases h
  rename_i s hs
  cases h
  have hb : asBytes s = p.drop 2 := asBytes_fromUtf8 hs
  have hn : UInt16.ofNat (p.drop 2).length = readU16 (slice p 0 2) := by
    rw [List.length_drop, hlen, Nat.add_sub_cancel_left, UInt16.ofNat_toNat]
  refine ⟨rfl, by simp [Message.FieldsFit, hb]; omega, by simp [Message.payloadLen, hb]; omega, ?_⟩
  intro p' hp' i _
  have hp' := Except.ok.inj (of_guard hp').2
  rw [← hp', hb, hn, leU16_slice (i := 0) (by omega), ← slice_to_end,
    slice_glue p (by omega) (by omega), slice_all (Nat.le_refl _)]

/-- An arm of fixed length re-encodes when its fields are the payload's ranges. -/
theorem decodeFixed_reencodes {tag : UInt8} {len : Nat} {read : List UInt8 → Message}
    {p : List UInt8} {m : Message} (h : decodeFixed tag len read p = .ok m)
    (hread : p.length = len → Reencodes tag p (read p)) : Reencodes tag p m := by
  obtain ⟨hlen, h⟩ := of_guard h
  cases h
  exact hread (not_not.mp hlen)

/-- A message whose encoding is the payload itself. -/
theorem Reencodes.of_eq {tag : UInt8} {p : List UInt8} {m : Message} (ht : m.tag = tag)
    (hf : m.FieldsFit) (hl : m.payloadLen = p.length) (he : m.encodePayload = .ok p) :
    Reencodes tag p m := by
  refine ⟨ht, hf, hl, ?_⟩
  intro p' hp' i _
  rw [he] at hp'
  cases hp'
  rfl

theorem decodeTouch_reencodes {p : List UInt8} {m : Message} (h : decodeTouch p = .ok m) :
    Reencodes TAG_TOUCH p m := by
  refine decodeFixed_reencodes h fun hlen => .of_eq rfl trivial hlen.symm ?_
  simp only [Message.encodePayload]
  rw [leI32_slice (by omega), leI32_slice (by omega), leU16_slice (by omega),
    singleton_byteAt (by omega), singleton_byteAt (by omega), slice_glue p (by omega) (by omega),
    slice_glue p (by omega) (by omega), slice_glue p (by omega) (by omega),
    slice_glue p (by omega) (by omega), slice_all (by omega)]

theorem decodeKey_reencodes {p : List UInt8} {m : Message} (h : decodeKey p = .ok m) :
    Reencodes TAG_KEY p m := by
  refine decodeFixed_reencodes h fun hlen => .of_eq rfl trivial hlen.symm ?_
  simp only [Message.encodePayload]
  rw [leU32_slice (by omega), leU32_slice (by omega), singleton_byteAt (by omega),
    slice_glue p (by omega) (by omega), slice_glue p (by omega) (by omega), slice_all (by omega)]

theorem decodeScrollMsg_reencodes {p : List UInt8} {m : Message} (h : decodeScrollMsg p = .ok m) :
    Reencodes TAG_SCROLL p m := by
  refine decodeFixed_reencodes h fun hlen => .of_eq rfl trivial hlen.symm ?_
  simp only [Message.encodePayload]
  rw [leI32_slice (i := 0) (by omega), leI32_slice (by omega), leI32_slice (by omega),
    leI32_slice (by omega), slice_glue p (by omega) (by omega), slice_glue p (by omega) (by omega),
    slice_glue p (by omega) (by omega), slice_all (by omega)]

theorem decodeSetEncoding_reencodes {p : List UInt8} {m : Message}
    (h : decodeSetEncoding p = .ok m) : Reencodes TAG_SET_ENCODING p m := by
  refine decodeFixed_reencodes h fun hlen => .of_eq rfl trivial hlen.symm ?_
  simp only [Message.encodePayload]
  rw [leU32_slice (i := 0) (by omega), leU32_slice (by omega), leU16_slice (by omega),
    slice_glue p (by omega) (by omega), slice_glue p (by omega) (by omega), slice_all (by omega)]

theorem decodeKeySyn_reencodes {p : List UInt8} {m : Message} (h : decodeKeySyn p = .ok m) :
    Reencodes TAG_KEY_SYN p m := by
  refine decodeFixed_reencodes h fun hlen => .of_eq rfl trivial hlen.symm ?_
  simp only [Message.encodePayload]
  rw [leU32_slice (i := 0) (by omega), singleton_byteAt (by omega),
    slice_glue p (by omega) (by omega), slice_all (by omega)]

theorem decodePause_reencodes {p : List UInt8} {m : Message} (h : decodePause p = .ok m) :
    Reencodes TAG_PAUSE p m := by
  refine decodeFixed_reencodes h fun hlen => ⟨rfl, trivial, hlen.symm, ?_⟩
  intro p' hp' i hi
  have hi : 1 ≤ i := Nat.pos_of_ne_zero (by rintro rfl; exact hi rfl)
  cases hp'
  rw [List.getElem?_eq_none (by simpa using hi), List.getElem?_eq_none (by omega)]

theorem decodePayload_reencodes {tag : UInt8} {p : List UInt8} {m : Message}
    (h : decodePayload tag p = .ok m) : Reencodes tag p m := by
  unfold decodePayload at h
  split at h
  · rename_i ht; exact ht ▸ decodeVideoFrame_reencodes h
  split at h
  · rename_i ht; exact ht ▸ decodeConfigure_reencodes h
  split at h
  · rename_i ht; exact ht ▸ decodeTouch_reencodes h
  split at h
  · rename_i ht; exact ht ▸ decodeKey_reencodes h
  split at h
  · rename_i ht; exact ht ▸ decodeText_reencodes h
  split at h
  · rename_i ht; exact ht ▸ decodeScrollMsg_reencodes h
  split at h
  · rename_i ht; exact ht ▸ decodeSetEncoding_reencodes h
  split at h
  · rename_i ht; exact ht ▸ decodeKeySyn_reencodes h
  split at h
  · rename_i ht; exact ht ▸ decodePause_reencodes h
  cases h
  exact .of_eq rfl (by simp_all [Message.FieldsFit, interpretedTags]) rfl rfl

end DroidMirror.Proto
