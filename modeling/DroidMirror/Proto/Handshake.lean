import DroidMirror.Proto.Frame

/-! # The handshake codec

`encode_handshake` and `try_decode_handshake`. The decoder rejects early, on
each field as soon as it is there, so its answer on a prefix of an encoding is
settled by the prefix's length alone (`tryDecodeHandshake_front`); and it is
canonical: what it accepts is exactly what the encoder writes. -/
namespace DroidMirror.Proto
open DroidMirror.Lib.LittleEndian

def encodeHandshake (h : Handshake) : Except ProtoError (List UInt8) :=
  if h.csd.length > MAX_CSD_LEN ∨ h.csd.length > 65535 then .error (.badLength (.ofNat h.csd.length))
  else
    let name := asBytes h.deviceName
    if name.length > MAX_NAME_LEN ∨ name.length > 65535 then .error (.badLength (.ofNat name.length))
    else .ok (MAGIC ++ [h.version] ++ [h.codec.toU8] ++ leU16 h.width ++ leU16 h.height ++
      leU16 (.ofNat h.csd.length) ++ h.csd ++ leU16 (.ofNat name.length) ++ name ++ [h.caps])

/-- `Ok(None)` means `buf` does not yet contain a full handshake. -/
def tryDecodeHandshake (buf : List UInt8) : Except ProtoError (Option (Handshake × Nat)) :=
  if 4 ≤ buf.length ∧ slice buf 0 4 ≠ MAGIC then .error .badMagic
  else if buf.length < 12 then .ok none
  else
    let version := byteAt buf 4
    if version ≠ VERSION then .error (.badVersion version)
    else
      match Codec.fromU8 (byteAt buf 5) with
      | none => .error (.badCodec (byteAt buf 5))
      | some codec =>
        let width := readU16 (slice buf 6 8)
        let height := readU16 (slice buf 8 10)
        let csdLen := (readU16 (slice buf 10 12)).toNat
        if csdLen > MAX_CSD_LEN then .error (.badLength (.ofNat csdLen))
        else
          let nameLenAt := 12 + csdLen
          if buf.length < nameLenAt + 2 then .ok none
          else
            let nameLen := (readU16 (slice buf nameLenAt (nameLenAt + 2))).toNat
            if nameLen > MAX_NAME_LEN then .error (.badLength (.ofNat nameLen))
            else
              let total := nameLenAt + 2 + nameLen + 1
              if buf.length < total then .ok none
              else
                match fromUtf8 (slice buf (nameLenAt + 2) (nameLenAt + 2 + nameLen)) with
                | none => .error .badUtf8
                | some deviceName =>
                  let csd := slice buf 12 (12 + csdLen)
                  let caps := byteAt buf (total - 1)
                  .ok (some (⟨version, codec, width, height, csd, deviceName, caps⟩, total))

/-! ## The encoding's fields -/

/-- The handshakes the encoder accepts. -/
structure Handshake.Fits (h : Handshake) : Prop where
  csd : h.csd.length ≤ 65535
  name : (asBytes h.deviceName).length ≤ MAX_NAME_LEN

/-- The twelve fixed bytes in front. -/
def Handshake.head (h : Handshake) : List UInt8 :=
  MAGIC ++ [h.version] ++ [h.codec.toU8] ++ leU16 h.width ++ leU16 h.height ++
    leU16 (.ofNat h.csd.length)

def Handshake.bytes (h : Handshake) : List UInt8 :=
  h.head ++ h.csd ++ leU16 (.ofNat (asBytes h.deviceName).length) ++ asBytes h.deviceName ++ [h.caps]

theorem Handshake.length_head (h : Handshake) : h.head.length = 12 := rfl

@[simp] theorem Handshake.length_bytes (h : Handshake) :
    h.bytes.length = 12 + h.csd.length + 2 + (asBytes h.deviceName).length + 1 := by
  simp [Handshake.bytes, Handshake.length_head]; omega

theorem encodeHandshake_iff {h : Handshake} {b : List UInt8} :
    encodeHandshake h = .ok b ↔ h.Fits ∧ b = h.bytes := by
  have hcsd : MAX_CSD_LEN = 65536 := rfl
  have hname : MAX_NAME_LEN = 256 := rfl
  unfold encodeHandshake
  constructor
  · intro he
    obtain ⟨h1, he⟩ := of_guard he
    obtain ⟨h2, he⟩ := of_guard he
    cases he
    exact ⟨⟨by omega, by omega⟩, rfl⟩
  · rintro ⟨⟨h1, h2⟩, rfl⟩
    simp only
    rw [if_neg (by omega), if_neg (by omega)]
    rfl

section Fields
variable (h : Handshake) (s : List UInt8)

theorem bytes_magic : slice (h.bytes ++ s) 0 4 = MAGIC := rfl
theorem bytes_version : byteAt (h.bytes ++ s) 4 = h.version := rfl
theorem bytes_codec : byteAt (h.bytes ++ s) 5 = h.codec.toU8 := rfl
theorem bytes_width : slice (h.bytes ++ s) 6 8 = leU16 h.width := rfl
theorem bytes_height : slice (h.bytes ++ s) 8 10 = leU16 h.height := rfl
theorem bytes_csdLen : slice (h.bytes ++ s) 10 12 = leU16 (.ofNat h.csd.length) := rfl

theorem bytes_csd : slice (h.bytes ++ s) 12 (12 + h.csd.length) = h.csd := by
  have hb : h.bytes ++ s = h.head ++ h.csd ++ (leU16 (.ofNat (asBytes h.deviceName).length) ++
      asBytes h.deviceName ++ [h.caps] ++ s) := by simp [Handshake.bytes]
  rw [hb]
  exact slice_middle rfl rfl

theorem bytes_nameLen : slice (h.bytes ++ s) (12 + h.csd.length) (12 + h.csd.length + 2) =
    leU16 (.ofNat (asBytes h.deviceName).length) := by
  have hb : h.bytes ++ s = h.head ++ h.csd ++ leU16 (.ofNat (asBytes h.deviceName).length) ++
      (asBytes h.deviceName ++ [h.caps] ++ s) := by simp [Handshake.bytes]
  rw [hb]
  exact slice_middle (by simp [Handshake.length_head]) (by simp)

theorem bytes_name : slice (h.bytes ++ s) (12 + h.csd.length + 2)
    (12 + h.csd.length + 2 + (asBytes h.deviceName).length) = asBytes h.deviceName := by
  have hb : h.bytes ++ s = h.head ++ h.csd ++ leU16 (.ofNat (asBytes h.deviceName).length) ++
      asBytes h.deviceName ++ ([h.caps] ++ s) := by simp [Handshake.bytes]
  rw [hb]
  exact slice_middle (by simp [Handshake.length_head]; omega) rfl

theorem bytes_caps : byteAt (h.bytes ++ s)
    (12 + h.csd.length + 2 + (asBytes h.deviceName).length) = h.caps :=
  byteAt_middle (by simp [Handshake.length_head]; omega)

end Fields

/-! ## Prefixes, suffixes and canonicity -/

/-- On any front part of an encoding followed by anything, the decoder waits
until the encoding is complete and then gives the handshake. -/
theorem tryDecodeHandshake_front {h : Handshake} {s t rest : List UInt8} (hv : h.version = VERSION)
    (hf : h.Fits) (hst : s ++ t = h.bytes ++ rest) :
    tryDecodeHandshake s =
      if s.length < h.bytes.length then .ok none else .ok (some (h, h.bytes.length)) := by
  have hname : MAX_NAME_LEN = 256 := rfl
  obtain ⟨hfc, hfn⟩ := hf
  have range {i j : Nat} (hj : j ≤ s.length) : slice s i j = slice (h.bytes ++ rest) i j := by
    rw [← hst, slice_append_left hj]
  have byte {i : Nat} (hi : i < s.length) : byteAt s i = byteAt (h.bytes ++ rest) i := by
    rw [← hst, byteAt_append_left hi]
  have hlen := h.length_bytes
  unfold tryDecodeHandshake
  rw [if_neg (by rintro ⟨h4, hm⟩; exact hm ((range h4).trans (bytes_magic h rest)))]
  by_cases h12 : s.length < 12
  · rw [if_pos h12, if_pos (by omega)]
  have hversion : byteAt s 4 = VERSION := by rw [byte (by omega), bytes_version, hv]
  have hcodec : byteAt s 5 = h.codec.toU8 := by rw [byte (by omega), bytes_codec]
  have hwidth : readU16 (slice s 6 8) = h.width := by
    rw [range (by omega), bytes_width, readU16_leU16]
  have hheight : readU16 (slice s 8 10) = h.height := by
    rw [range (by omega), bytes_height, readU16_leU16]
  have hcsdLen : (readU16 (slice s 10 12)).toNat = h.csd.length := by
    rw [range (by omega), bytes_csdLen, readU16_leU16, toNat_ofNat_u16 hfc]
  have hcsdMax : ¬ h.csd.length > MAX_CSD_LEN := by simp only [MAX_CSD_LEN]; omega
  simp only [h12, hversion, hcodec, Codec.fromU8_toU8, hwidth, hheight, hcsdLen, hcsdMax, ne_eq,
    not_true_eq_false, if_false]
  by_cases hn : s.length < 12 + h.csd.length + 2
  · rw [if_pos hn, if_pos (by omega)]
  have hnameLen : (readU16 (slice s (12 + h.csd.length) (12 + h.csd.length + 2))).toNat =
      (asBytes h.deviceName).length := by
    rw [range (by omega), bytes_nameLen, readU16_leU16, toNat_ofNat_u16 (by omega)]
  have hnameMax : ¬ (asBytes h.deviceName).length > MAX_NAME_LEN := by omega
  simp only [hn, hnameLen, hnameMax, if_false]
  by_cases hall : s.length < 12 + h.csd.length + 2 + (asBytes h.deviceName).length + 1
  · rw [if_pos hall, if_pos (by omega)]
  rw [if_neg hall, if_neg (by omega), range (by omega), bytes_name, fromUtf8_asBytes]
  simp only [Nat.add_sub_cancel]
  rw [range (by omega), bytes_csd, byte (by omega), bytes_caps, hlen, ← hv]

/-- The fields at their places in a buffer are its front part. -/
theorem take_eq_bytes {b : List UInt8} {codec : Codec} {deviceName : String} {c k : Nat} (hc : c < 65536)
    (hk : k < 65536) (hall : 12 + c + 2 + k + 1 ≤ b.length) (hmagic : slice b 0 4 = MAGIC)
    (hcodec : codec.toU8 = byteAt b 5) (hcsdLen : (readU16 (slice b 10 12)).toNat = c)
    (hnameLen : (readU16 (slice b (12 + c) (12 + c + 2))).toNat = k)
    (hname : asBytes deviceName = slice b (12 + c + 2) (12 + c + 2 + k)) :
    b.take (12 + c + 2 + k + 1) = Handshake.bytes ⟨byteAt b 4, codec, readU16 (slice b 6 8),
      readU16 (slice b 8 10), slice b 12 (12 + c), deviceName, byteAt b (12 + c + 2 + k)⟩ := by
  have hcsdLen' : leU16 (.ofNat c) = slice b 10 12 := by
    rw [← hcsdLen, UInt16.ofNat_toNat, leU16_slice (by omega)]
  have hnameLen' : leU16 (.ofNat k) = slice b (12 + c) (12 + c + 2) := by
    rw [← hnameLen, UInt16.ofNat_toNat, leU16_slice (by omega)]
  have hcsd : (slice b 12 (12 + c)).length = c := by simp; omega
  have hlen : (asBytes deviceName).length = k := by rw [hname]; simp; omega
  simp only [Handshake.bytes, Handshake.head, hcsd, hlen]
  rw [← hmagic, hcodec, hcsdLen', hnameLen', hname, leU16_slice (by omega), leU16_slice (by omega),
    singleton_byteAt (by omega), singleton_byteAt (by omega), singleton_byteAt (by omega)]
  iterate 9 rw [slice_glue b (by omega) (by omega)]
  exact slice_zero.symm

/-- What the decoder accepts is the front of the buffer, exactly as the encoder
writes it. -/
theorem tryDecodeHandshake_some {b : List UInt8} {h : Handshake} {n : Nat}
    (hd : tryDecodeHandshake b = .ok (some (h, n))) :
    h.version = VERSION ∧ h.Fits ∧ n = h.bytes.length ∧ b.take n = h.bytes := by
  revert hd
  fun_cases tryDecodeHandshake b with
  | case10 hmagic h12 version hversion codec hcodec width height csdLen hcsdMax nameLenAt hn nameLen
      hnameMax total hall deviceName hname csd caps =>
    intro hd
    obtain ⟨rfl, rfl⟩ := Prod.mk.inj (Option.some.inj (Except.ok.inj hd))
    have hcsdFit : csdLen < 65536 := UInt16.toNat_lt _
    have hnameFit : nameLen < 65536 := UInt16.toNat_lt _
    have hbytes := asBytes_fromUtf8 hname
    have hfront := take_eq_bytes hcsdFit hnameFit (Nat.le_of_not_lt hall)
      (Decidable.not_not.mp fun hm => hmagic ⟨by omega, hm⟩) (Codec.toU8_fromU8 hcodec) rfl rfl hbytes
    have hcsd : csd.length = csdLen := by simp [csd]; omega
    have hlen : (asBytes deviceName).length = nameLen := by rw [hbytes]; simp; omega
    refine ⟨Decidable.not_not.mp hversion, ⟨?_, ?_⟩, ?_, hfront⟩
    · exact hcsd ▸ Nat.le_of_lt_succ hcsdFit
    · exact hlen ▸ Nat.le_of_not_lt hnameMax
    · rw [Handshake.length_bytes, hcsd, hlen]
  | _ =>
    intro hd
    cases hd

/-- What was said of a buffer stands when bytes are appended. -/
theorem tryDecodeHandshake_stable {b : List UInt8} (s : List UInt8)
    (h : tryDecodeHandshake b ≠ .ok none) : tryDecodeHandshake (b ++ s) = tryDecodeHandshake b := by
  have hlen : (b ++ s).length = b.length + s.length := List.length_append
  have h4 : 4 ≤ b.length := by
    by_contra hlt
    exact h (by rw [tryDecodeHandshake, if_neg (by omega), if_pos (by omega)])
  unfold tryDecodeHandshake at h ⊢
  rw [slice_append_left (j := 4) h4]
  by_cases hmagic : slice b 0 4 ≠ MAGIC
  · rw [if_pos ⟨by omega, hmagic⟩, if_pos ⟨h4, hmagic⟩]
  have hfront : ¬ (4 ≤ b.length ∧ slice b 0 4 ≠ MAGIC) := fun hc => hmagic hc.2
  have hfront' : ¬ (4 ≤ (b ++ s).length ∧ slice b 0 4 ≠ MAGIC) := fun hc => hmagic hc.2
  rw [if_neg hfront] at h
  rw [if_neg hfront, if_neg hfront']
  by_cases h12 : b.length < 12
  · exact absurd (if_pos h12) h
  have h12' : ¬ (b ++ s).length < 12 := by omega
  simp only [h12, h12', if_false, slice_append_left (a := b) (r := s) (j := 8) (by omega),
    slice_append_left (a := b) (r := s) (j := 10) (by omega),
    slice_append_left (a := b) (r := s) (j := 12) (by omega),
    byteAt_append_left (a := b) (r := s) (i := 4) (by omega),
    byteAt_append_left (a := b) (r := s) (i := 5) (by omega)] at h ⊢
  split at h
  · rename_i hversion; rw [if_pos hversion, if_pos hversion]
  rename_i hversion
  rw [if_neg hversion, if_neg hversion]
  split at h
  · rfl
  split at h
  · rename_i hcsd; rw [if_pos hcsd, if_pos hcsd]
  rename_i hcsd
  rw [if_neg hcsd, if_neg hcsd]
  generalize (readU16 (slice b 10 12)).toNat = c at *
  by_cases hn : b.length < 12 + c + 2
  · exact absurd (if_pos hn) h
  rw [if_neg hn] at h
  rw [if_neg hn, if_neg (by omega), slice_append_left (by omega)]
  split at h
  · rename_i hname; rw [if_pos hname, if_pos hname]
  rename_i hname
  rw [if_neg hname, if_neg hname]
  by_cases hall : b.length < 12 + c + 2 + (readU16 (slice b (12 + c) (12 + c + 2))).toNat + 1
  · exact absurd (if_pos hall) h
  rw [if_neg hall, if_neg (by omega), slice_append_left (by omega), slice_append_left (by omega),
    byteAt_append_left (by omega)]

/-- A buffer on which the decoder waits is shorter than the longest handshake. -/
theorem length_lt_of_waits_handshake {b : List UInt8} (h : tryDecodeHandshake b = .ok none) :
    b.length < 65806 := by
  have hname : MAX_NAME_LEN = 256 := rfl
  revert h
  fun_cases tryDecodeHandshake b with
  | case2 hmagic h12 => intro _; omega
  | case6 hmagic h12 version hversion codec hcodec csdLen hcsdMax nameLenAt hn =>
    intro _
    have hcsd : csdLen < 65536 := UInt16.toNat_lt _
    omega
  | case8 hmagic h12 version hversion codec hcodec csdLen hcsdMax nameLenAt hn nameLen
      hnameMax total hall =>
    intro _
    have hcsd : csdLen < 65536 := UInt16.toNat_lt _
    omega
  | _ => intro h; cases h

/-- A handshake of this version is spelled by its encoding. -/
theorem encodeHandshake_spells {h : Handshake} {b : List UInt8} (hv : h.version = VERSION)
    (he : encodeHandshake h = .ok b) :
    (∀ s, tryDecodeHandshake (b ++ s) = .ok (some (h, b.length))) ∧
      ∀ s, s <+: b → s ≠ b → tryDecodeHandshake s = .ok none := by
  obtain ⟨hf, rfl⟩ := encodeHandshake_iff.mp he
  refine ⟨fun s => ?_, fun s hs hne => ?_⟩
  · rw [tryDecodeHandshake_front hv hf (List.append_nil _), if_neg (by rw [List.length_append]; omega)]
  · obtain ⟨t, ht⟩ := hs
    have hshort : s.length < h.bytes.length := by
      rw [← ht, List.length_append]
      have : t ≠ [] := by rintro rfl; exact hne (by simpa using ht)
      have := List.length_pos_iff.mpr this
      omega
    have hfront : s ++ t = h.bytes ++ [] := ht.trans (List.append_nil _).symm
    rw [tryDecodeHandshake_front hv hf hfront, if_pos hshort]

/-- **The handshake codec.** Every handshake of this version that the encoder
accepts is decoded back whatever follows and waited for on every strict prefix;
and every accepted handshake is, byte for byte, what the encoder writes for it. -/
theorem handshake_codec :
    (∀ h b, h.version = VERSION → encodeHandshake h = .ok b →
      (∀ s, tryDecodeHandshake (b ++ s) = .ok (some (h, b.length))) ∧
      ∀ s, s <+: b → s ≠ b → tryDecodeHandshake s = .ok none) ∧
    (∀ b h n, tryDecodeHandshake b = .ok (some (h, n)) →
      n ≤ b.length ∧ encodeHandshake h = .ok (b.take n)) := by
  refine ⟨fun h b hv he => encodeHandshake_spells hv he, fun b h n hd => ?_⟩
  obtain ⟨_, hf, hn, hb⟩ := tryDecodeHandshake_some hd
  refine ⟨?_, encodeHandshake_iff.mpr ⟨hf, hb⟩⟩
  have := congrArg List.length hb
  rw [List.length_take, ← hn] at this
  omega

end DroidMirror.Proto
