import Mathlib.Data.Nat.Log
import Mathlib.Data.UInt
import DroidMirror.Lib.LittleEndian
import DroidMirror.Lib.Newton
import DroidMirror.Transport.Protocol

/-! # The public key blob

A phone authorizes a key by Android's `RSAPublicKey`, a struct of little-endian
words: the word count, Montgomery's constant for the lowest word, the modulus,
the square of the radix and the exponent. `encodeAndroidPubkey` writes it from
the key's integers; `androidPublicKey` is the phone's reading. -/
namespace DroidMirror.Transport
open DroidMirror.Lib.LittleEndian DroidMirror.Lib

/-! ## The inverse of a word -/

def modInverse_2_32 (a : UInt32) : Option UInt32 :=
  if a &&& 1 = 0 then none
  else some ((List.range 5).foldl (fun x _ => x * (2 - a * x)) 1)

theorem and_one_eq_zero_iff (a : UInt32) : a &&& 1 = 0 ↔ a.toNat % 2 = 0 := by
  rw [← UInt32.toNat_inj, UInt32.toNat_and]
  show a.toNat &&& 1 = 0 ↔ _
  rw [Nat.and_one_is_mod]

section
open scoped UInt32.CommRing

theorem modInverse_loop (a : UInt32) :
    (List.range 5).foldl (fun x _ => x * (2 - a * x)) 1 = (Newton.refine a)^[5] 1 := rfl

/-- Five steps invert an odd word: the error starts even, and is then a power of it to the 32. -/
theorem mul_modInverse_loop {a : UInt32} (h : a.toNat % 2 = 1) :
    a * (List.range 5).foldl (fun x _ => x * (2 - a * x)) 1 = 1 := by
  rw [modInverse_loop]
  have hodd : a = 2 * UInt32.ofNat (a.toNat / 2) + 1 := by
    have hlt := a.toNat_lt
    rw [← UInt32.toNat_inj]
    simp only [UInt32.toNat_add, UInt32.toNat_mul, UInt32.toNat_ofNat', UInt32.reduceToNat]
    omega
  exact Newton.inverse_of_odd hodd rfl

theorem inverse_unique {a x y : UInt32} (hx : a * x = 1) (hy : a * y = 1) : x = y := by
  rw [mul_comm] at hx
  exact left_inv_eq_right_inv hx hy

end

theorem modInverse_even {a : UInt32} (h : a.toNat % 2 = 0) : modInverse_2_32 a = none :=
  if_pos ((and_one_eq_zero_iff a).mpr h)

theorem modInverse_odd {a : UInt32} (h : a.toNat % 2 = 1) :
    modInverse_2_32 a = some ((List.range 5).foldl (fun x _ => x * (2 - a * x)) 1) := by
  apply if_neg
  rw [and_one_eq_zero_iff, h]
  decide

theorem mul_eq_one_iff (a x : UInt32) : a * x = 1 ↔ a.toNat * x.toNat % 2 ^ 32 = 1 := by
  rw [← UInt32.toNat_inj, UInt32.toNat_mul]
  rfl

/-- Only an even word has no inverse, and what is returned is the one inverse of the others. -/
theorem modInverse_2_32_inverts (a : UInt32) :
    (modInverse_2_32 a = none ↔ a.toNat % 2 = 0) ∧
    ∀ x, modInverse_2_32 a = some x →
      a.toNat * x.toNat % 2 ^ 32 = 1 ∧
      ∀ y : UInt32, a.toNat * y.toNat % 2 ^ 32 = 1 → y = x := by
  by_cases he : a.toNat % 2 = 0
  · rw [modInverse_even he]
    exact ⟨⟨fun _ => he, fun _ => rfl⟩, fun x hx => by simp at hx⟩
  · have hodd : a.toNat % 2 = 1 := Nat.mod_two_ne_zero.mp he
    rw [modInverse_odd hodd]
    refine ⟨⟨fun hn => (by simp at hn), fun h => absurd h he⟩, fun x hx => ?_⟩
    have hinv : a * x = 1 := by
      rw [← Option.some.inj hx]
      exact mul_modInverse_loop hodd
    refine ⟨(mul_eq_one_iff a x).mp hinv, fun y hy => ?_⟩
    exact inverse_unique ((mul_eq_one_iff a y).mpr hy) hinv

/-! ## Writing the blob -/

/-- The integers of a key, as large as they come. -/
structure RsaPublicKey where
  n : Nat
  e : Nat

def modulusBytes : Nat := 256

def androidPubkeyLen : Nat := 4 + 4 + modulusBytes + modulusBytes + 4

/-- `BigUint::to_bytes_le`: no zero byte at the top, but for zero itself. -/
def toBytesLE (n : Nat) : List UInt8 := toLE (Nat.log 256 n + 1) n

def encodeAndroidPubkey (key : RsaPublicKey) : Except AdbError (List UInt8) := do
  let modulus := toBytesLE key.n
  if modulus.length > modulusBytes then
    throw (.auth ("modulus is " ++ toString modulus.length ++ " bytes; ADB wants 2048-bit keys"))
  let modulus := resize modulus modulusBytes
  let n0 := readU32 (slice modulus 0 4)
  let inv ← (modInverse_2_32 n0).elim (throw (.auth "modulus is even")) pure
  let n0inv := -inv
  let r := 1 <<< (modulusBytes * 8)
  let rrMod := r * r % key.n
  let rr := toBytesLE rrMod
  if rr.length > modulusBytes then throw (.auth "rr overflow")
  let rr := resize rr modulusBytes
  let expLE := toBytesLE key.e
  let ncopy := min expLE.length 4
  let expBuf := expLE.take ncopy ++ List.replicate (4 - ncopy) 0
  let exponent := readU32 expBuf
  return leU32 (UInt32.ofNat (modulusBytes / 4)) ++ leU32 n0inv ++ modulus ++ rr ++ leU32 exponent

theorem ofLE_toBytesLE (n : Nat) : ofLE (toBytesLE n) = n := by
  rw [toBytesLE, ofLE_toLE, Nat.mod_eq_of_lt]
  exact Nat.lt_pow_succ_log_self (by omega) n

theorem length_toBytesLE_le_iff (n : Nat) {k : Nat} (hk : 0 < k) :
    (toBytesLE n).length ≤ k ↔ n < 256 ^ k := by
  rw [toBytesLE, length_toLE, Nat.succ_le_iff]
  cases n with
  | zero => simp [hk]
  | succ n => exact Nat.log_lt_iff_lt_pow (by omega) (by omega)

theorem resize_toBytesLE (n k : Nat) : resize (toBytesLE n) k = toLE k n := by
  rw [resize_eq, ofLE_toBytesLE]

section
open scoped UInt32.CommRing

/-- The negated inverse of a number's lowest word is its Montgomery constant. -/
theorem neg_inverse_mul {n : Nat} {inv : UInt32} (h : UInt32.ofNat n * inv = 1) :
    (-inv).toNat * n % 2 ^ 32 = 2 ^ 32 - 1 := by
  have hneg : -inv * UInt32.ofNat n = -1 := by
    rw [neg_mul, mul_comm, h]
  have hnat := congrArg UInt32.toNat hneg
  rw [UInt32.toNat_mul, UInt32.toNat_ofNat'] at hnat
  rw [← Nat.mul_mod_mod, hnat]
  rfl

end

theorem toNat_ofNat_mod_two (n : Nat) : (UInt32.ofNat n).toNat % 2 = n % 2 := by
  rw [UInt32.toNat_ofNat']
  omega

/-- The word the inverse is taken of is the lowest of the modulus. -/
theorem lowest_word (n : Nat) :
    readU32 (slice (resize (toBytesLE n) modulusBytes) 0 4) = UInt32.ofNat n := by
  rw [resize_toBytesLE, slice_zero, take_toLE (by decide), readU32_toLE]

/-- The exponent keeps the four low bytes of the key's. -/
theorem exponent_word (e : Nat) :
    readU32 ((toBytesLE e).take (min (toBytesLE e).length 4) ++
      List.replicate (4 - min (toBytesLE e).length 4) 0) = UInt32.ofNat e := by
  have hcopy : (toBytesLE e).take (min (toBytesLE e).length 4) ++
      List.replicate (4 - min (toBytesLE e).length 4) 0 = resize (toBytesLE e) 4 := by
    rw [resize]
    congr 1
    · exact List.take_eq_take_iff.mpr (by omega)
    · congr 1
      omega
  rw [hcopy, resize_toBytesLE, readU32_toLE]

theorem radix_square : (1 <<< (modulusBytes * 8)) * (1 <<< (modulusBytes * 8)) = 2 ^ 4096 := by
  rw [Nat.one_shiftLeft, ← Nat.pow_add]
  exact congrArg (2 ^ ·) (show modulusBytes * 8 + modulusBytes * 8 = 4096 from rfl)

theorem encode_long {key : RsaPublicKey} (h : modulusBytes < (toBytesLE key.n).length) :
    encodeAndroidPubkey key = .error (.auth ("modulus is " ++
      toString (toBytesLE key.n).length ++ " bytes; ADB wants 2048-bit keys")) := by
  rw [encodeAndroidPubkey]
  simp only [gt_iff_lt, if_pos h]
  rfl

theorem encode_even {key : RsaPublicKey} (hl : (toBytesLE key.n).length ≤ modulusBytes)
    (h : key.n % 2 = 0) : encodeAndroidPubkey key = .error (.auth "modulus is even") := by
  have hinv : modInverse_2_32 (UInt32.ofNat key.n) = none :=
    modInverse_even ((toNat_ofNat_mod_two key.n).trans h)
  rw [encodeAndroidPubkey]
  simp only [gt_iff_lt, if_neg (Nat.not_lt.mpr hl), lowest_word, hinv]
  rfl

/-- The blob of an odd modulus that fits. -/
theorem encode_odd {key : RsaPublicKey} (hl : (toBytesLE key.n).length ≤ modulusBytes)
    (h : key.n % 2 = 1) :
    ∃ inv, modInverse_2_32 (UInt32.ofNat key.n) = some inv ∧
      encodeAndroidPubkey key = .ok (leU32 64 ++ leU32 (-inv) ++ toLE modulusBytes key.n ++
        toLE modulusBytes (2 ^ 4096 % key.n) ++ leU32 (UInt32.ofNat key.e)) := by
  have hinv := modInverse_odd ((toNat_ofNat_mod_two key.n).trans h)
  refine ⟨_, hinv, ?_⟩
  have hn : key.n < 256 ^ modulusBytes := (length_toBytesLE_le_iff key.n (by decide)).mp hl
  have hrr : ¬ modulusBytes < (toBytesLE (2 ^ 4096 % key.n)).length := by
    rw [Nat.not_lt, length_toBytesLE_le_iff _ (by decide)]
    exact Nat.lt_trans (Nat.mod_lt _ (by omega)) hn
  rw [encodeAndroidPubkey]
  simp only [gt_iff_lt, if_neg (Nat.not_lt.mpr hl), lowest_word, hinv, radix_square, if_neg hrr,
    exponent_word]
  rw [resize_toBytesLE, resize_toBytesLE]
  rfl

/-! ## Reading it on the phone -/

/-- Android's `RSAPublicKey`, for a modulus of 64 words. -/
structure AndroidPublicKey where
  n0inv : UInt32
  modulus : List UInt32
  rr : List UInt32
  exponent : UInt32

def androidPublicKey (raw : List UInt8) : Option AndroidPublicKey :=
  if raw.length = androidPubkeyLen ∧ readU32 (slice raw 0 4) = 64 then
    some {
      n0inv := readU32 (slice raw 4 8)
      modulus := words 64 (slice raw 8 264)
      rr := words 64 (slice raw 264 520)
      exponent := readU32 (slice raw 520 524) }
  else none

theorem androidPublicKey_fields (n0inv exponent : UInt32) (n rr : Nat) :
    androidPublicKey (leU32 64 ++ leU32 n0inv ++ toLE modulusBytes n ++ toLE modulusBytes rr ++
      leU32 exponent) =
    some ⟨n0inv, words 64 (toLE modulusBytes n), words 64 (toLE modulusBytes rr), exponent⟩ := by
  have hm : modulusBytes = 256 := rfl
  rw [androidPublicKey, if_pos]
  · simp [hm]
  · simp [hm, androidPubkeyLen]

/-- The blob says of the key what Android's struct is read for. -/
def ReadsBack (key : RsaPublicKey) (raw : List UInt8) : Prop :=
  ∃ pk, androidPublicKey raw = some pk ∧
    ofWords pk.modulus = key.n ∧ pk.modulus.length = 64 ∧
    pk.exponent.toNat = key.e ∧
    pk.n0inv.toNat * key.n % 2 ^ 32 = 2 ^ 32 - 1 ∧
    ofWords pk.rr = 2 ^ 4096 % key.n

theorem ofWords_toLE {n : Nat} (h : n < 256 ^ modulusBytes) :
    ofWords (words 64 (toLE modulusBytes n)) = n := by
  rw [ofWords_words (by simp [modulusBytes]), ofLE_toLE, Nat.mod_eq_of_lt h]

/-- An odd modulus that fits is read back, and the exponent as far as 32 bits go. -/
theorem encode_reads {key : RsaPublicKey} (hl : (toBytesLE key.n).length ≤ modulusBytes)
    (h : key.n % 2 = 1) :
    ∃ raw, encodeAndroidPubkey key = .ok raw ∧ (ReadsBack key raw ↔ key.e < 2 ^ 32) := by
  obtain ⟨inv, hinv, hraw⟩ := encode_odd hl h
  refine ⟨_, hraw, ?_⟩
  rw [ReadsBack, androidPublicKey_fields]
  have hexp : (UInt32.ofNat key.e).toNat = key.e % 2 ^ 32 := UInt32.toNat_ofNat'
  constructor
  · rintro ⟨pk, hpk, -, -, he, -⟩
    rw [← Option.some.inj hpk, hexp] at he
    omega
  · intro he
    have hn : key.n < 256 ^ modulusBytes := (length_toBytesLE_le_iff key.n (by decide)).mp hl
    have hrr : 2 ^ 4096 % key.n < 256 ^ modulusBytes :=
      Nat.lt_trans (Nat.mod_lt _ (by omega)) hn
    have hmul : UInt32.ofNat key.n * inv = 1 := by
      rw [modInverse_odd ((toNat_ofNat_mod_two key.n).trans h)] at hinv
      rw [← Option.some.inj hinv]
      exact mul_modInverse_loop ((toNat_ofNat_mod_two key.n).trans h)
    refine ⟨_, rfl, ofWords_toLE hn, length_words _ _, ?_, neg_inverse_mul hmul, ofWords_toLE hrr⟩
    rw [hexp, Nat.mod_eq_of_lt he]

/-- The blob is true to the key, and refused is what has no blob, exactly where the exponent
fits its word or the modulus is refused anyway: a longer exponent is cut off without a word. -/
theorem encodeAndroidPubkey_faithful_iff (key : RsaPublicKey) :
    ((∀ raw, encodeAndroidPubkey key = .ok raw → ReadsBack key raw) ∧
      (key.n % 2 = 0 ∨ modulusBytes < (toBytesLE key.n).length →
        ∃ e, encodeAndroidPubkey key = .error e)) ↔
    key.e < 2 ^ 32 ∨ key.n % 2 = 0 ∨ modulusBytes < (toBytesLE key.n).length := by
  by_cases hl : modulusBytes < (toBytesLE key.n).length
  · rw [encode_long hl]
    exact ⟨fun _ => .inr (.inr hl), fun _ => ⟨fun raw hraw => (by cases hraw), fun _ => ⟨_, rfl⟩⟩⟩
  · by_cases he : key.n % 2 = 0
    · rw [encode_even (Nat.not_lt.mp hl) he]
      exact ⟨fun _ => .inr (.inl he), fun _ => ⟨fun raw hraw => (by cases hraw), fun _ => ⟨_, rfl⟩⟩⟩
    · obtain ⟨raw, hraw, hreads⟩ := encode_reads (Nat.not_lt.mp hl) (Nat.mod_two_ne_zero.mp he)
      simp only [hraw, Except.ok.injEq, forall_eq', hreads, he, hl, or_self, or_false,
        false_imp_iff, and_true]

/-- The modulus 4294967311 * 4294967357 and the exponent 2 ^ 32 + 1, which is prime to its
totient: the phone reads the exponent 1. -/
theorem encodeAndroidPubkey_cuts_exponent :
    ∃ raw, encodeAndroidPubkey ⟨18446744400127067027, 4294967297⟩ = .ok raw ∧
      ¬ ReadsBack ⟨18446744400127067027, 4294967297⟩ raw := by
  have hl : (toBytesLE 18446744400127067027).length ≤ modulusBytes := by
    rw [length_toBytesLE_le_iff _ (by decide)]
    exact Nat.lt_of_lt_of_le (show _ < 256 ^ 9 by decide)
      (Nat.pow_le_pow_right (by omega) (by decide))
  obtain ⟨raw, hraw, hreads⟩ := @encode_reads ⟨18446744400127067027, 4294967297⟩ hl rfl
  exact ⟨raw, hraw, fun h => absurd (hreads.mp h) (by decide)⟩

end DroidMirror.Transport
