import DroidMirror.Lib.Checked
import DroidMirror.Proto.Handshake

/-! # The decoders where overflow is checked

The decoders once more, with every addition, subtraction, index, range and
array conversion as a step that may panic: `none` is a panic, `some` what the
decoder returns. On a `usize` of 64 bits nothing panics. On one of 32 bits the
sum `13 + nal_len` of a video frame can overflow, and nothing else
(`decoders_panic_iff`); where they do not panic they give what the decoders of
the other modules give. -/
namespace DroidMirror.Proto.Checked
open DroidMirror.Lib.LittleEndian DroidMirror.Lib.Checked

/-- The `usize` of the build: 32 bits on `wasm32`. -/
inductive Usize where
  | bits32
  | bits64
  deriving DecidableEq

def Usize.width : Usize → Nat
  | .bits32 => 32
  | .bits64 => 64

/-! ## Payloads -/

def decodeVideoFrame (u : Usize) (payload : List UInt8) : Option (Except ProtoError Message) :=
  if payload.length < 13 then some (.error (.malformed TAG_VIDEO_FRAME))
  else do
    let ptsUs ← array 8 (← range payload 0 8)
    let flags ← index payload 8
    let nalLen ← array 4 (← range payload 9 13)
    let whole ← add u.width 13 (readU32 nalLen).toNat
    if payload.length ≠ whole then some (.error (.malformed TAG_VIDEO_FRAME))
    else do
      let nal ← rangeFrom payload 13
      some (.ok (.videoFrame (readU64 ptsUs) (decide (flags &&& FLAG_KEYFRAME ≠ 0)) nal))

def decodeConfigure (u : Usize) (payload : List UInt8) : Option (Except ProtoError Message) :=
  if payload.length < 7 then some (.error (.malformed TAG_CONFIGURE))
  else do
    let codec ← index payload 0
    match Codec.fromU8 codec with
    | none => some (.error (.badCodec codec))
    | some codec => do
      let width ← array 2 (← range payload 1 3)
      let height ← array 2 (← range payload 3 5)
      let csdLen ← array 2 (← range payload 5 7)
      if (readU16 csdLen).toNat > MAX_CSD_LEN then some (.error (.malformed TAG_CONFIGURE))
      else do
        let whole ← add u.width 7 (readU16 csdLen).toNat
        if payload.length ≠ whole then some (.error (.malformed TAG_CONFIGURE))
        else do
          let csd ← rangeFrom payload 7
          some (.ok (.configure codec (readU16 width) (readU16 height) csd))

def decodeText (u : Usize) (payload : List UInt8) : Option (Except ProtoError Message) :=
  if payload.length < 2 then some (.error (.malformed TAG_TEXT))
  else do
    let n ← array 2 (← range payload 0 2)
    let whole ← add u.width 2 (readU16 n).toNat
    if payload.length ≠ whole then some (.error (.malformed TAG_TEXT))
    else do
      match fromUtf8 (← rangeFrom payload 2) with
      | none => some (.error .badUtf8)
      | some s => some (.ok (.text s))

/-- The arms that accept one payload length and read fixed fields. -/
def decodeFixed (tag : UInt8) (len : Nat) (read : List UInt8 → Option Message)
    (payload : List UInt8) : Option (Except ProtoError Message) :=
  if payload.length ≠ len then some (.error (.malformed tag)) else (read payload).map .ok

def decodeTouch : List UInt8 → Option (Except ProtoError Message) :=
  decodeFixed TAG_TOUCH 12 fun p => do
    let action ← index p 0
    let pointerId ← index p 1
    let x ← array 4 (← range p 2 6)
    let y ← array 4 (← range p 6 10)
    let pressure ← array 2 (← range p 10 12)
    some (.touch action pointerId (readI32 x) (readI32 y) (readU16 pressure))

def decodeKey : List UInt8 → Option (Except ProtoError Message) :=
  decodeFixed TAG_KEY 9 fun p => do
    let action ← index p 0
    let keycode ← array 4 (← range p 1 5)
    let metaState ← array 4 (← range p 5 9)
    some (.key action (readU32 keycode) (readU32 metaState))

def decodeScrollMsg : List UInt8 → Option (Except ProtoError Message) :=
  decodeFixed TAG_SCROLL 16 fun p => do
    let x ← array 4 (← range p 0 4)
    let y ← array 4 (← range p 4 8)
    let h ← array 4 (← range p 8 12)
    let v ← array 4 (← range p 12 16)
    some (.scroll (readI32 x) (readI32 y) (readI32 h) (readI32 v))

def decodeSetEncoding : List UInt8 → Option (Except ProtoError Message) :=
  decodeFixed TAG_SET_ENCODING 10 fun p => do
    let bitrate ← array 4 (← range p 0 4)
    let maxFps ← array 4 (← range p 4 8)
    let maxSize ← array 2 (← range p 8 10)
    some (.setEncoding (readU32 bitrate) (readU32 maxFps) (readU16 maxSize))

def decodeKeySyn : List UInt8 → Option (Except ProtoError Message) :=
  decodeFixed TAG_KEY_SYN 5 fun p => do
    let keycode ← array 4 (← range p 0 4)
    let action ← index p 4
    some (.keySyn (readU32 keycode) action)

def decodePause : List UInt8 → Option (Except ProtoError Message) :=
  decodeFixed TAG_PAUSE 1 fun p => do
    let on ← index p 0
    some (.pauseResume (decide (on ≠ 0)))

def decodePayload (u : Usize) (tag : UInt8) (payload : List UInt8) : Option (Except ProtoError Message) :=
  if tag = TAG_VIDEO_FRAME then decodeVideoFrame u payload
  else if tag = TAG_CONFIGURE then decodeConfigure u payload
  else if tag = TAG_TOUCH then decodeTouch payload
  else if tag = TAG_KEY then decodeKey payload
  else if tag = TAG_TEXT then decodeText u payload
  else if tag = TAG_SCROLL then decodeScrollMsg payload
  else if tag = TAG_SET_ENCODING then decodeSetEncoding payload
  else if tag = TAG_KEY_SYN then decodeKeySyn payload
  else if tag = TAG_PAUSE then decodePause payload
  else some (.ok (.reserved tag payload))

/-! ## Frames and the handshake -/

def tryDecodeFrame (u : Usize) (buf : List UInt8) : Option (Except ProtoError (Option (Message × Nat))) :=
  if buf.length < 4 then some (.ok none)
  else do
    let totalLen ← front 4 (← range buf 0 4)
    if readU32 totalLen < 1 ∨ readU32 totalLen > MAX_FRAME_LEN then
      some (.error (.badLength (readU32 totalLen)))
    else do
      let whole ← add u.width 4 (readU32 totalLen).toNat
      if buf.length < whole then some (.ok none)
      else do
        let tag ← index buf 4
        let payload ← range buf 5 whole
        match ← decodePayload u tag payload with
        | .error e => some (.error e)
        | .ok msg => some (.ok (some (msg, whole)))

/-- `buf.len() >= 4 && &buf[0..4] != MAGIC`. -/
def wrongMagic (buf : List UInt8) : Option Bool :=
  if buf.length < 4 then some false
  else do
    let magic ← range buf 0 4
    some (decide (magic ≠ MAGIC))

def tryDecodeHandshake (u : Usize) (buf : List UInt8) :
    Option (Except ProtoError (Option (Handshake × Nat))) := do
  let wrong ← wrongMagic buf
  if wrong then some (.error .badMagic)
  else if buf.length < 12 then some (.ok none)
  else do
    let version ← index buf 4
    if version ≠ VERSION then some (.error (.badVersion version))
    else do
      let codec ← index buf 5
      match Codec.fromU8 codec with
      | none => some (.error (.badCodec codec))
      | some codec => do
        let width ← front 2 (← range buf 6 8)
        let height ← front 2 (← range buf 8 10)
        let csdField ← front 2 (← range buf 10 12)
        let csdLen := (readU16 csdField).toNat
        if csdLen > MAX_CSD_LEN then some (.error (.badLength (.ofNat csdLen)))
        else do
          let nameLenAt ← add u.width 12 csdLen
          let nameAt ← add u.width nameLenAt 2
          if buf.length < nameAt then some (.ok none)
          else do
            let nameField ← front 2 (← range buf nameLenAt nameAt)
            let nameLen := (readU16 nameField).toNat
            if nameLen > MAX_NAME_LEN then some (.error (.badLength (.ofNat nameLen)))
            else do
              let nameEnd ← add u.width nameAt nameLen
              let total ← add u.width nameEnd 1
              if buf.length < total then some (.ok none)
              else do
                let csd ← range buf 12 nameLenAt
                match fromUtf8 (← range buf nameAt nameEnd) with
                | none => some (.error .badUtf8)
                | some deviceName => do
                  let caps ← index buf (← sub total 1)
                  some (.ok (some (⟨version, codec, readU16 width, readU16 height, csd,
                    deviceName, caps⟩, total)))

/-! ## Where nothing panics -/

/-- Every `usize` holds the sum of a `u16` field and a few fixed bytes. -/
theorem small_lt (u : Usize) {n : Nat} (h : n < 2 ^ 32) : n < 2 ^ u.width := by
  cases u with
  | bits32 => exact h
  | bits64 => exact Nat.lt_trans h (by decide)

theorem decodeConfigure_eq (u : Usize) (p : List UInt8) :
    decodeConfigure u p = some (Proto.decodeConfigure p) := by
  unfold decodeConfigure Proto.decodeConfigure
  by_cases hmin : p.length < 7
  · rw [if_pos hmin, if_pos hmin]
  have hadd := add_ok (small_lt u (n := 7 + (readU16 (slice p 5 7)).toNat)
    (by have := (readU16 (slice p 5 7)).toNat_lt; omega))
  rw [if_neg hmin, if_neg hmin]
  simp (disch := omega) only [index_ok, range_ok, array_slice, rangeFrom_ok, hadd,
    Option.bind_eq_bind, Option.bind_some]
  cases Codec.fromU8 (byteAt p 0) with
  | none => rfl
  | some codec =>
    simp only
    by_cases hcsd : (readU16 (slice p 5 7)).toNat > MAX_CSD_LEN
    · rw [if_pos hcsd, if_pos (.inl hcsd)]
    · by_cases hlen : p.length ≠ 7 + (readU16 (slice p 5 7)).toNat
      · rw [if_neg hcsd, if_pos hlen, if_pos (.inr hlen)]
      · rw [if_neg hcsd, if_neg hlen, if_neg (not_or.mpr ⟨hcsd, hlen⟩)]

theorem decodeText_eq (u : Usize) (p : List UInt8) :
    decodeText u p = some (Proto.decodeText p) := by
  unfold decodeText Proto.decodeText
  by_cases hmin : p.length < 2
  · rw [if_pos hmin, if_pos hmin]
  have hadd := add_ok (small_lt u (n := 2 + (readU16 (slice p 0 2)).toNat)
    (by have := (readU16 (slice p 0 2)).toNat_lt; omega))
  rw [if_neg hmin, if_neg hmin]
  simp (disch := omega) only [range_ok, array_slice, rangeFrom_ok, hadd, Option.bind_eq_bind,
    Option.bind_some]
  by_cases hlen : p.length ≠ 2 + (readU16 (slice p 0 2)).toNat
  · rw [if_pos hlen, if_pos hlen]
  · rw [if_neg hlen, if_neg hlen]
    cases fromUtf8 (p.drop 2) <;> rfl

/-- An arm of fixed length does not panic when its reads do not. -/
theorem decodeFixed_eq {tag : UInt8} {len : Nat} {read : List UInt8 → Option Message}
    {read' : List UInt8 → Message} {p : List UInt8}
    (h : p.length = len → read p = some (read' p)) :
    decodeFixed tag len read p = some (Proto.decodeFixed tag len read' p) := by
  unfold decodeFixed Proto.decodeFixed
  by_cases hlen : p.length ≠ len
  · rw [if_pos hlen, if_pos hlen]
  · rw [if_neg hlen, if_neg hlen, h (not_not.mp hlen)]
    rfl

theorem decodeTouch_eq (p : List UInt8) : decodeTouch p = some (Proto.decodeTouch p) := by
  refine decodeFixed_eq fun hlen => ?_
  simp (disch := omega) only [index_ok, range_ok, array_slice, Option.bind_eq_bind, Option.bind_some]

theorem decodeKey_eq (p : List UInt8) : decodeKey p = some (Proto.decodeKey p) := by
  refine decodeFixed_eq fun hlen => ?_
  simp (disch := omega) only [index_ok, range_ok, array_slice, Option.bind_eq_bind, Option.bind_some]

theorem decodeScrollMsg_eq (p : List UInt8) :
    decodeScrollMsg p = some (Proto.decodeScrollMsg p) := by
  refine decodeFixed_eq fun hlen => ?_
  simp (disch := omega) only [range_ok, array_slice, Option.bind_eq_bind, Option.bind_some]

theorem decodeSetEncoding_eq (p : List UInt8) :
    decodeSetEncoding p = some (Proto.decodeSetEncoding p) := by
  refine decodeFixed_eq fun hlen => ?_
  simp (disch := omega) only [range_ok, array_slice, Option.bind_eq_bind, Option.bind_some]

theorem decodeKeySyn_eq (p : List UInt8) : decodeKeySyn p = some (Proto.decodeKeySyn p) := by
  refine decodeFixed_eq fun hlen => ?_
  simp (disch := omega) only [index_ok, range_ok, array_slice, Option.bind_eq_bind, Option.bind_some]

theorem decodePause_eq (p : List UInt8) : decodePause p = some (Proto.decodePause p) := by
  refine decodeFixed_eq fun hlen => ?_
  simp (disch := omega) only [index_ok, Option.bind_eq_bind, Option.bind_some]

/-! ## Where a video frame does -/

/-- The payload is that of a video frame whose length field, with the thirteen bytes in front of
the NAL unit, is past the largest `usize`. -/
def Overflows (u : Usize) (tag : UInt8) (p : List UInt8) : Prop :=
  tag = TAG_VIDEO_FRAME ∧ 13 ≤ p.length ∧ 2 ^ u.width ≤ 13 + (readU32 (slice p 9 13)).toNat

instance (u : Usize) (tag : UInt8) (p : List UInt8) : Decidable (Overflows u tag p) :=
  inferInstanceAs (Decidable (_ ∧ _ ∧ _))

theorem not_overflows_bits64 (tag : UInt8) (p : List UInt8) : ¬ Overflows .bits64 tag p := by
  rintro ⟨_, _, h⟩
  have hlt : (readU32 (slice p 9 13)).toNat < 2 ^ 32 := (readU32 (slice p 9 13)).toNat_lt
  have hwidth : Usize.bits64.width = 64 := rfl
  rw [hwidth] at h
  omega

theorem decodeVideoFrame_eq (u : Usize) (p : List UInt8) :
    decodeVideoFrame u p =
      if Overflows u TAG_VIDEO_FRAME p then none else some (Proto.decodeVideoFrame p) := by
  unfold decodeVideoFrame Proto.decodeVideoFrame
  by_cases hmin : p.length < 13
  · rw [if_pos hmin, if_pos hmin, if_neg fun h => absurd h.2.1 (by omega)]
  rw [if_neg hmin, if_neg hmin]
  simp (disch := omega) only [index_ok, range_ok, array_slice, Option.bind_eq_bind, Option.bind_some]
  by_cases hover : 2 ^ u.width ≤ 13 + (readU32 (slice p 9 13)).toNat
  · rw [add_overflow hover, if_pos ⟨rfl, by omega, hover⟩]
    rfl
  · rw [add_ok (Nat.not_le.mp hover), if_neg fun h => hover h.2.2]
    simp (disch := omega) only [rangeFrom_ok, Option.bind_some]
    by_cases hlen : p.length ≠ 13 + (readU32 (slice p 9 13)).toNat
    · rw [if_pos hlen, if_pos hlen]
    · rw [if_neg hlen, if_neg hlen]

/-- The arms panic on no payload but an overflowing video frame's. -/
theorem decodePayload_eq (u : Usize) (tag : UInt8) (p : List UInt8) :
    decodePayload u tag p =
      if Overflows u tag p then none else some (Proto.decodePayload tag p) := by
  unfold decodePayload Proto.decodePayload
  by_cases htag : tag = TAG_VIDEO_FRAME
  · rw [if_pos htag, if_pos htag, decodeVideoFrame_eq, htag]
  · have hno : ¬ Overflows u tag p := fun h => htag h.1
    rw [if_neg htag, if_neg htag, if_neg hno, decodeConfigure_eq, decodeTouch_eq, decodeKey_eq,
      decodeText_eq, decodeScrollMsg_eq, decodeSetEncoding_eq, decodeKeySyn_eq, decodePause_eq]
    simp only [apply_ite some]

/-- A whole frame stands in front, and its payload overflows. -/
def FrameOverflows (u : Usize) (b : List UInt8) : Prop :=
  4 ≤ b.length ∧ ¬ (readU32 (slice b 0 4) < 1 ∨ readU32 (slice b 0 4) > MAX_FRAME_LEN) ∧
    4 + (readU32 (slice b 0 4)).toNat ≤ b.length ∧
    Overflows u (byteAt b 4) (slice b 5 (4 + (readU32 (slice b 0 4)).toNat))

instance (u : Usize) (b : List UInt8) : Decidable (FrameOverflows u b) :=
  inferInstanceAs (Decidable (_ ∧ _ ∧ _ ∧ _))

theorem tryDecodeFrame_eq (u : Usize) (b : List UInt8) :
    tryDecodeFrame u b = if FrameOverflows u b then none else some (Proto.tryDecodeFrame b) := by
  unfold tryDecodeFrame Proto.tryDecodeFrame
  by_cases h4 : b.length < 4
  · rw [if_pos h4, if_pos h4, if_neg fun h => absurd h.1 (by omega)]
  rw [if_neg h4, if_neg h4]
  simp (disch := omega) only [range_ok, front_slice, Option.bind_eq_bind, Option.bind_some]
  by_cases hrange : readU32 (slice b 0 4) < 1 ∨ readU32 (slice b 0 4) > MAX_FRAME_LEN
  · rw [if_pos hrange, if_pos hrange, if_neg fun h => h.2.1 hrange]
  obtain ⟨hpos, hmax⟩ := frame_len_bounds hrange
  have hadd := add_ok (small_lt u (n := 4 + (readU32 (slice b 0 4)).toNat)
    (by rw [max_frame_len_toNat] at hmax; omega))
  rw [if_neg hrange, if_neg hrange, hadd, Option.bind_some]
  by_cases hshort : b.length < 4 + (readU32 (slice b 0 4)).toNat
  · rw [if_pos hshort, if_pos hshort, if_neg fun h => absurd h.2.2.1 (by omega)]
  rw [if_neg hshort, if_neg hshort]
  simp (disch := omega) only [index_ok, range_ok, Option.bind_some, decodePayload_eq]
  by_cases hover : Overflows u (byteAt b 4) (slice b 5 (4 + (readU32 (slice b 0 4)).toNat))
  · rw [if_pos hover, if_pos ⟨by omega, hrange, by omega, hover⟩]
    rfl
  · rw [if_neg hover, if_neg fun h => hover h.2.2.2, Option.bind_some]
    cases Proto.decodePayload (byteAt b 4) (slice b 5 (4 + (readU32 (slice b 0 4)).toNat)) <;> rfl

theorem wrongMagic_eq (b : List UInt8) :
    wrongMagic b = some (decide (4 ≤ b.length ∧ slice b 0 4 ≠ MAGIC)) := by
  unfold wrongMagic
  by_cases h4 : b.length < 4
  · rw [if_pos h4, decide_eq_false fun h => absurd h.1 (by omega)]
  · rw [if_neg h4]
    simp (disch := omega) only [range_ok, Option.bind_eq_bind, Option.bind_some]
    exact congrArg some (decide_eq_decide.mpr ⟨fun h => ⟨by omega, h⟩, And.right⟩)

/-- The handshake's sums stay below 2^17. -/
theorem tryDecodeHandshake_eq (u : Usize) (b : List UInt8) :
    tryDecodeHandshake u b = some (Proto.tryDecodeHandshake b) := by
  have hname : MAX_NAME_LEN = 256 := rfl
  unfold tryDecodeHandshake Proto.tryDecodeHandshake
  rw [bind_value (wrongMagic_eq b)]
  by_cases hfront : 4 ≤ b.length ∧ slice b 0 4 ≠ MAGIC
  · rw [if_pos (decide_eq_true hfront), if_pos hfront]
  rw [if_neg (mt of_decide_eq_true hfront), if_neg hfront]
  by_cases h12 : b.length < 12
  · rw [if_pos h12, if_pos h12]
  rw [if_neg h12, if_neg h12, bind_value (index_ok (by omega))]
  by_cases hversion : byteAt b 4 ≠ VERSION
  · rw [if_pos hversion, if_pos hversion]
  rw [if_neg hversion, if_neg hversion, bind_value (index_ok (by omega))]
  cases Codec.fromU8 (byteAt b 5) with
  | none => rfl
  | some codec =>
    dsimp only
    rw [bind_value (range_ok (by omega) (by omega)), bind_value (front_slice rfl (by omega)),
      bind_value (range_ok (by omega) (by omega)), bind_value (front_slice rfl (by omega)),
      bind_value (range_ok (by omega) (by omega)), bind_value (front_slice rfl (by omega))]
    have hcsd : (readU16 (slice b 10 12)).toNat < 65536 := UInt16.toNat_lt _
    generalize (readU16 (slice b 10 12)).toNat = c at *
    by_cases hmax : c > MAX_CSD_LEN
    · rw [if_pos hmax, if_pos hmax]
    rw [if_neg hmax, if_neg hmax, bind_value (add_ok (small_lt u (by omega))),
      bind_value (add_ok (small_lt u (by omega)))]
    by_cases hn : b.length < 12 + c + 2
    · rw [if_pos hn, if_pos hn]
    rw [if_neg hn, if_neg hn, bind_value (range_ok (by omega) (by omega)),
      bind_value (front_slice rfl (by omega))]
    generalize (readU16 (slice b (12 + c) (12 + c + 2))).toNat = k at *
    by_cases hlong : k > MAX_NAME_LEN
    · rw [if_pos hlong, if_pos hlong]
    rw [if_neg hlong, if_neg hlong, bind_value (add_ok (small_lt u (by omega))),
      bind_value (add_ok (small_lt u (by omega)))]
    by_cases hall : b.length < 12 + c + 2 + k + 1
    · rw [if_pos hall, if_pos hall]
    rw [if_neg hall, if_neg hall, bind_value (range_ok (by omega) (by omega)),
      bind_value (range_ok (by omega) (by omega))]
    cases fromUtf8 (slice b (12 + c + 2) (12 + c + 2 + k)) with
    | none => rfl
    | some deviceName =>
      dsimp only
      rw [bind_value (sub_ok (by omega)), bind_value (index_ok (by omega))]

/-! ## When no decoder panics -/

/-- Neither decoder panics on the bytes, nor `decode_payload` on them as a payload of any tag. -/
def NoPanic (u : Usize) (b : List UInt8) : Prop :=
  (∃ r, tryDecodeHandshake u b = some r) ∧ (∃ r, tryDecodeFrame u b = some r) ∧
    ∀ tag, ∃ r, decodePayload u tag b = some r

theorem ite_some_iff {α : Type} {c : Prop} [Decidable c] {a : α} :
    (∃ r, (if c then none else some a) = some r) ↔ ¬ c := by
  by_cases h : c <;> simp [h]

theorem eq_of_ite_some {α : Type} {c : Prop} [Decidable c] {a r : α}
    (h : (if c then none else some a) = some r) : r = a := by
  split at h
  · cases h
  · exact (Option.some.inj h).symm

theorem noPanic_iff (u : Usize) (b : List UInt8) :
    NoPanic u b ↔ ¬ FrameOverflows u b ∧ ¬ Overflows u TAG_VIDEO_FRAME b := by
  have hframe : (∃ r, tryDecodeFrame u b = some r) ↔ ¬ FrameOverflows u b := by
    rw [tryDecodeFrame_eq, ite_some_iff]
  have hpayload (tag : UInt8) : (∃ r, decodePayload u tag b = some r) ↔ ¬ Overflows u tag b := by
    rw [decodePayload_eq, ite_some_iff]
  constructor
  · intro h
    exact ⟨hframe.mp h.2.1, (hpayload _).mp (h.2.2 _)⟩
  · intro h
    refine ⟨⟨_, tryDecodeHandshake_eq u b⟩, hframe.mpr h.1, fun tag => (hpayload tag).mpr ?_⟩
    intro hover
    exact h.2 (hover.1 ▸ hover)

/-- **Where overflow is checked.** No decoder panics exactly on the bytes that are neither a video
frame's payload nor start with its frame, of a length field past the largest `usize`, so on every
input with 64 bits; and a decoder that does not panic returns what the unchecked one returns. -/
theorem decoders_panic_iff (u : Usize) (b : List UInt8) :
    (NoPanic u b ↔ ¬ FrameOverflows u b ∧ ¬ Overflows u TAG_VIDEO_FRAME b) ∧ NoPanic .bits64 b ∧
      (∀ r, tryDecodeHandshake u b = some r → r = Proto.tryDecodeHandshake b) ∧
      (∀ r, tryDecodeFrame u b = some r → r = Proto.tryDecodeFrame b) ∧
      ∀ tag r, decodePayload u tag b = some r → r = Proto.decodePayload tag b := by
  refine ⟨noPanic_iff u b, (noPanic_iff .bits64 b).mpr ?_, ?_, ?_, ?_⟩
  · exact ⟨fun h => not_overflows_bits64 _ _ h.2.2.2, not_overflows_bits64 _ _⟩
  · intro r h
    rw [tryDecodeHandshake_eq] at h
    exact (Option.some.inj h).symm
  · intro r h
    exact eq_of_ite_some (tryDecodeFrame_eq u b ▸ h)
  · intro tag r h
    exact eq_of_ite_some (decodePayload_eq u tag b ▸ h)

/-- The shortest video frame whose length field is `u32::MAX`, on `wasm32`. -/
theorem video_frame_panics : ¬ ∀ u b, b.length < 2 ^ 32 → NoPanic u b := by
  intro h
  obtain ⟨_, ⟨r, hr⟩, _⟩ := h .bits32
    [14, 0, 0, 0, 0x01, 0, 0, 0, 0, 0, 0, 0, 0, 0, 0xFF, 0xFF, 0xFF, 0xFF] (by decide)
  have hpanic : tryDecodeFrame .bits32
      [14, 0, 0, 0, 0x01, 0, 0, 0, 0, 0, 0, 0, 0, 0, 0xFF, 0xFF, 0xFF, 0xFF] = none := by
    rw [tryDecodeFrame_eq, if_pos (by decide)]
  rw [hpanic] at hr
  cases hr

end DroidMirror.Proto.Checked
