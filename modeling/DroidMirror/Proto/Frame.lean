import DroidMirror.Proto.Payload
import DroidMirror.Lib.Incremental

/-! # The frame codec

`Message::encode`, `encode_frame` and `try_decode_frame`. A message that fits
is spelled by its encoding (`encode_spells`), and an accepted frame is the
encoding of what it decodes to, up to the loose byte of its payload
(`frame_codec`). -/
namespace DroidMirror.Proto
open DroidMirror.Lib.LittleEndian DroidMirror.Lib.Incremental

/-- `1u32.checked_add(payload.len() as u32)`, then the cap. -/
def encodeFrame (tag : UInt8) (payload : List UInt8) : Except ProtoError (List UInt8) :=
  let len := UInt32.ofNat payload.length
  if 2 ^ 32 ≤ 1 + len.toNat then .error (.badLength 0xFFFFFFFF)
  else
    let totalLen := 1 + len
    if totalLen > MAX_FRAME_LEN then .error (.badLength totalLen)
    else .ok (leU32 totalLen ++ [tag] ++ payload)

def Message.encode (m : Message) : Except ProtoError (List UInt8) := do
  let payload ← m.encodePayload
  encodeFrame m.tag payload

/-- `Ok(None)` means `buf` does not yet contain a full frame. -/
def tryDecodeFrame (buf : List UInt8) : Except ProtoError (Option (Message × Nat)) :=
  if buf.length < 4 then .ok none
  else
    let totalLen := readU32 (slice buf 0 4)
    if totalLen < 1 ∨ totalLen > MAX_FRAME_LEN then .error (.badLength totalLen)
    else
      let total := totalLen.toNat
      if buf.length < 4 + total then .ok none
      else do
        let msg ← decodePayload (byteAt buf 4) (slice buf 5 (4 + total))
        return some (msg, 4 + total)

theorem bind_ok {ε α β : Type} {x : Except ε α} {f : α → Except ε β} {b : β}
    (h : x >>= f = .ok b) : ∃ a, x = .ok a ∧ f a = .ok b := by
  cases x with
  | error e => cases h
  | ok a => exact ⟨a, rfl, h⟩

/-! ## Whole frames and strict prefixes -/

/-- The bytes of a frame. -/
def frameBytes (tag : UInt8) (p : List UInt8) : List UInt8 :=
  leU32 (.ofNat (1 + p.length)) ++ [tag] ++ p

@[simp] theorem length_frameBytes (tag : UInt8) (p : List UInt8) :
    (frameBytes tag p).length = 5 + p.length := by
  simp [frameBytes]; omega

theorem max_frame_len_toNat : MAX_FRAME_LEN.toNat = 8388608 := by decide

/-- The length field of a frame within the cap reads back as its length. -/
theorem frame_len_toNat {n : Nat} (h : n ≤ MAX_FRAME_LEN.toNat) : (UInt32.ofNat n).toNat = n := by
  rw [max_frame_len_toNat] at h
  exact toNat_ofNat_u32 (by omega)

theorem frame_len_ok {n : Nat} (hpos : 0 < n) (h : n ≤ MAX_FRAME_LEN.toNat) :
    ¬ (UInt32.ofNat n < 1 ∨ UInt32.ofNat n > MAX_FRAME_LEN) := by
  rw [gt_iff_lt, UInt32.lt_iff_toNat_lt, UInt32.lt_iff_toNat_lt, frame_len_toNat h]
  have hone : (1 : UInt32).toNat = 1 := rfl
  omega

theorem frame_len_bounds {n : UInt32} (h : ¬ (n < 1 ∨ n > MAX_FRAME_LEN)) :
    0 < n.toNat ∧ n.toNat ≤ MAX_FRAME_LEN.toNat := by
  rw [gt_iff_lt, UInt32.lt_iff_toNat_lt, UInt32.lt_iff_toNat_lt] at h
  have hone : (1 : UInt32).toNat = 1 := rfl
  omega

/-- The cap is compared with the payload's length modulo 2^32. -/
theorem encodeFrame_iff {tag : UInt8} {p out : List UInt8} :
    encodeFrame tag p = .ok out ↔
      1 + p.length % 2 ^ 32 ≤ MAX_FRAME_LEN.toNat ∧ out = frameBytes tag p := by
  have hmax := max_frame_len_toNat
  have hlen : (UInt32.ofNat p.length).toNat = p.length % 2 ^ 32 := by simp
  have hsum : 1 + UInt32.ofNat p.length = UInt32.ofNat (1 + p.length) := by
    rw [UInt32.ofNat_add]; rfl
  have htotal : 1 + p.length % 2 ^ 32 < 2 ^ 32 →
      (UInt32.ofNat (1 + p.length)).toNat = 1 + p.length % 2 ^ 32 := by
    intro h
    simp only [UInt32.toNat_ofNat']
    omega
  unfold encodeFrame
  simp only [hlen, hsum, gt_iff_lt, UInt32.lt_iff_toNat_lt]
  constructor
  · intro h
    obtain ⟨hfits, h⟩ := of_guard h
    obtain ⟨hcap, h⟩ := of_guard h
    rw [htotal (by omega)] at hcap
    cases h
    exact ⟨by omega, rfl⟩
  · rintro ⟨hcap, rfl⟩
    rw [if_neg (by omega), if_neg (by rw [htotal (by omega)]; omega)]
    rfl

theorem encodeFrame_ok (tag : UInt8) {p : List UInt8} (h : 1 + p.length ≤ MAX_FRAME_LEN.toNat) :
    encodeFrame tag p = .ok (frameBytes tag p) := by
  have hmax := max_frame_len_toNat
  exact encodeFrame_iff.mpr ⟨by rwa [Nat.mod_eq_of_lt (by omega)], rfl⟩

/-- The ranges the decoder reads of a frame in front. -/
theorem frame_fields (tag : UInt8) {p : List UInt8} (s : List UInt8) :
    readU32 (slice (frameBytes tag p ++ s) 0 4) = .ofNat (1 + p.length) ∧
      byteAt (frameBytes tag p ++ s) 4 = tag ∧
      slice (frameBytes tag p ++ s) 5 (4 + (1 + p.length)) = p := by
  refine ⟨by simp [frameBytes], by simp [frameBytes], ?_⟩
  rw [slice_append_left (by simp; omega), frameBytes, slice_append_right (by simp)]
  have hend : 4 + (1 + p.length) - (leU32 (.ofNat (1 + p.length)) ++ [tag]).length = p.length := by
    simp; omega
  rw [hend]
  exact slice_all (Nat.le_refl _)

/-- A buffer with a whole frame in front, cut into the frame's fields. -/
theorem take_eq_frameBytes {b : List UInt8} (h4 : 4 ≤ b.length)
    (hrange : ¬ (readU32 (slice b 0 4) < 1 ∨ readU32 (slice b 0 4) > MAX_FRAME_LEN))
    (hfull : 4 + (readU32 (slice b 0 4)).toNat ≤ b.length) :
    1 + (slice b 5 (4 + (readU32 (slice b 0 4)).toNat)).length = (readU32 (slice b 0 4)).toNat ∧
      b.take (4 + (readU32 (slice b 0 4)).toNat) =
        frameBytes (byteAt b 4) (slice b 5 (4 + (readU32 (slice b 0 4)).toNat)) := by
  have hpos := (frame_len_bounds hrange).1
  have hhead : leU32 (readU32 (slice b 0 4)) = slice b 0 4 := leU32_slice (i := 0) (by omega)
  generalize readU32 (slice b 0 4) = total at *
  have hlen : 1 + (slice b 5 (4 + total.toNat)).length = total.toNat := by simp; omega
  refine ⟨hlen, ?_⟩
  rw [frameBytes, hlen, UInt32.ofNat_toNat, hhead, singleton_byteAt (by omega),
    slice_glue b (by omega) (by omega), slice_glue b (by omega) (by omega), slice_zero]

/-- A whole frame in front decides the answer, whatever follows. -/
theorem tryDecodeFrame_frame (tag : UInt8) {p : List UInt8} (s : List UInt8)
    (h : 1 + p.length ≤ MAX_FRAME_LEN.toNat) :
    tryDecodeFrame (frameBytes tag p ++ s) =
      (decodePayload tag p).map fun m => some (m, 5 + p.length) := by
  obtain ⟨hhead, htag, hbody⟩ := frame_fields tag (p := p) s
  unfold tryDecodeFrame
  simp only [hhead, frame_len_toNat h]
  rw [if_neg (by simp; omega), if_neg (frame_len_ok (by omega) h), if_neg (by simp; omega), htag, hbody,
    show 4 + (1 + p.length) = 5 + p.length by omega]
  cases decodePayload tag p <;> rfl

theorem tryDecodeFrame_waits {tag : UInt8} {p s : List UInt8} (h : 1 + p.length ≤ MAX_FRAME_LEN.toNat)
    (hs : s <+: frameBytes tag p) (hne : s ≠ frameBytes tag p) : tryDecodeFrame s = .ok none := by
  obtain ⟨t, ht⟩ := hs
  have htpos : 0 < t.length := by
    rw [List.length_pos_iff]
    rintro rfl
    exact hne (by simpa using ht)
  have hlen : s.length + t.length = 5 + p.length := by
    rw [← length_frameBytes tag p, ← ht, List.length_append]
  unfold tryDecodeFrame
  split
  · rfl
  · rename_i h4
    have hhead : readU32 (slice s 0 4) = .ofNat (1 + p.length) := by
      rw [← slice_append_left (r := t) (by omega), ht]
      simp [frameBytes]
    simp only [hhead, frame_len_toNat h]
    rw [if_neg (frame_len_ok (by omega) h), if_pos (by omega)]

/-- An accepted frame is a whole frame in front of the buffer. -/
theorem tryDecodeFrame_some {b : List UInt8} {m : Message} {n : Nat}
    (h : tryDecodeFrame b = .ok (some (m, n))) :
    ∃ tag p, 1 + p.length ≤ MAX_FRAME_LEN.toNat ∧ n = 5 + p.length ∧ n ≤ b.length ∧
      b.take n = frameBytes tag p ∧ decodePayload tag p = .ok m := by
  unfold tryDecodeFrame at h
  split at h
  · cases h
  rename_i h4
  obtain ⟨hrange, h⟩ := of_guard h
  simp only at h
  split at h
  · cases h
  rename_i hfull
  obtain ⟨hlen, hfront⟩ := take_eq_frameBytes (by omega) hrange (by omega)
  have hmax := (frame_len_bounds hrange).2
  obtain ⟨msg, hd, hm⟩ := bind_ok h
  cases hm
  exact ⟨byteAt b 4, _, by omega, by omega, by omega, hfront, hd⟩

/-- What was said of a buffer stands when bytes are appended. -/
theorem tryDecodeFrame_stable {b : List UInt8} (s : List UInt8) (h : tryDecodeFrame b ≠ .ok none) :
    tryDecodeFrame (b ++ s) = tryDecodeFrame b := by
  have h4 : 4 ≤ b.length := by
    by_contra hlt
    exact h (by rw [tryDecodeFrame, if_pos (by omega)])
  have hhead : slice (b ++ s) 0 4 = slice b 0 4 := slice_append_left h4
  have hlong : ¬ b.length < 4 := by omega
  have hlong' : ¬ (b ++ s).length < 4 := by simp; omega
  simp only [tryDecodeFrame, hhead, hlong, hlong', if_false] at h ⊢
  split
  · rfl
  · rename_i hrange
    rw [if_neg hrange] at h
    by_cases hfull : b.length < 4 + (readU32 (slice b 0 4)).toNat
    · exact absurd (if_pos hfull) h
    · have hfull' : ¬ (b ++ s).length < 4 + (readU32 (slice b 0 4)).toNat := by
        rw [List.length_append]; omega
      have hpos := (frame_len_bounds hrange).1
      rw [if_neg hfull, if_neg hfull', byteAt_append_left (by omega), slice_append_left (by omega)]

/-- A buffer on which the decoder waits is shorter than the longest frame. -/
theorem length_lt_of_waits {b : List UInt8} (h : tryDecodeFrame b = .ok none) :
    b.length < 4 + MAX_FRAME_LEN.toNat := by
  revert h
  fun_cases tryDecodeFrame b with
  | case1 h4 => intro _; omega
  | case2 h4 totalLen hrange => intro h; cases h
  | case3 h4 totalLen hrange total hshort =>
    intro _
    have hmax : total ≤ MAX_FRAME_LEN.toNat := (frame_len_bounds hrange).2
    omega
  | case4 h4 totalLen hrange total hfull =>
    intro h
    obtain ⟨msg, _, hm⟩ := bind_ok h
    cases hm

/-! ## The codec in both directions -/

/-- Messages that fit are spelled by their encodings: decoded back whatever
follows, and waited for on every strict prefix. -/
theorem encode_spells {m : Message} (h : m.Fits) :
    ∃ b, m.encode = .ok b ∧ (∀ s, tryDecodeFrame (b ++ s) = .ok (some (m, b.length))) ∧
      ∀ s, s <+: b → s ≠ b → tryDecodeFrame s = .ok none := by
  obtain ⟨p, henc, hlen, hdec⟩ := encodePayload_decode h
  have hfit : 1 + p.length ≤ MAX_FRAME_LEN.toNat := hlen ▸ h.frame
  refine ⟨frameBytes m.tag p, ?_, ?_, fun s hs hne => tryDecodeFrame_waits hfit hs hne⟩
  · rw [Message.encode, henc]
    exact encodeFrame_ok m.tag hfit
  · intro s
    rw [tryDecodeFrame_frame m.tag s hfit, hdec, length_frameBytes]
    rfl

/-- What an accepted frame says about the message it decodes to. -/
theorem tryDecodeFrame_encode {b : List UInt8} {m : Message} {n : Nat}
    (h : tryDecodeFrame b = .ok (some (m, n))) :
    m.Fits ∧ n ≤ b.length ∧ ∃ b', m.encode = .ok b' ∧ b'.length = n ∧
      ∀ i, i < n → m.looseAt ≠ some i → b'[i]? = b[i]? := by
  obtain ⟨tag, p, hfit, hn, hle, hfront, hdec⟩ := tryDecodeFrame_some h
  obtain ⟨htag, hfields, hlen, hbytes⟩ := decodePayload_reencodes hdec
  have hm : m.Fits := ⟨hlen ▸ hfit, hfields⟩
  obtain ⟨p', henc, hlen', _⟩ := encodePayload_decode hm
  have heq : p'.length = p.length := hlen'.trans hlen
  refine ⟨hm, hle, frameBytes m.tag p', ?_, by simp [heq, hn], ?_⟩
  · rw [Message.encode, henc]
    exact encodeFrame_ok m.tag (by omega)
  · intro i hi hloose
    have hb : b[i]? = (frameBytes tag p)[i]? := by rw [← hfront, List.getElem?_take_of_lt hi]
    rw [hb, frameBytes, frameBytes, htag, heq]
    generalize hhead : leU32 (.ofNat (1 + p.length)) ++ [tag] = front
    have hfive : front.length = 5 := by simp [← hhead]
    by_cases h5 : i < 5
    · rw [List.getElem?_append_left (by omega), List.getElem?_append_left (by omega)]
    · obtain ⟨k, rfl⟩ : ∃ k, i = 5 + k := ⟨i - 5, by omega⟩
      rw [List.getElem?_append_right (by omega), List.getElem?_append_right (by omega), hfive,
        Nat.add_sub_cancel_left]
      exact hbytes p' henc k hloose

/-- **The frame codec.** Every message that fits is encoded so that the decoder
gives it back whatever follows and waits on every strict prefix; and every
accepted frame is what its message is encoded to, but for the one byte of a
video frame or a pause of which only a flag is read. -/
theorem frame_codec :
    (∀ m : Message, m.Fits → ∃ b, m.encode = .ok b ∧
      (∀ s, tryDecodeFrame (b ++ s) = .ok (some (m, b.length))) ∧
      ∀ s, s <+: b → s ≠ b → tryDecodeFrame s = .ok none) ∧
    (∀ b m n, tryDecodeFrame b = .ok (some (m, n)) → n ≤ b.length ∧
      ∃ b', m.encode = .ok b' ∧ b'.length = n ∧
      tryDecodeFrame b' = .ok (some (m, n)) ∧
      ∀ i, i < n → m.looseAt ≠ some i → b'[i]? = b[i]?) := by
  refine ⟨fun m h => encode_spells h, fun b m n h => ?_⟩
  obtain ⟨hfit, hle, b', henc, hlen, hbytes⟩ := tryDecodeFrame_encode h
  obtain ⟨b'', henc', hwhole, _⟩ := encode_spells hfit
  obtain rfl : b'' = b' := Except.ok.inj (henc'.symm.trans henc)
  exact ⟨hle, b'', henc, hlen, by simpa [hlen] using hwhole [], hbytes⟩

end DroidMirror.Proto
