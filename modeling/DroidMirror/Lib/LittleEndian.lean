import Mathlib.Algebra.Group.Nat.Defs
import Mathlib.Data.Nat.Basic

/-! # Slices and little-endian integers of byte lists

A buffer is a `List UInt8`. `slice` is the half-open range `buf[i..j]`; its
laws cut a concatenation at the seam and glue adjacent ranges back together.
The fixed-width integers are written and read through one pair of functions on
naturals, so each width inherits the same two round trips. -/
namespace DroidMirror.Lib.LittleEndian

/-! ## Ranges -/

/-- `buf[i..j]`. -/
def slice {α : Type} (buf : List α) (i j : Nat) : List α := (buf.drop i).take (j - i)

/-- `buf[i]`, zero past the end. -/
def byteAt (buf : List UInt8) (i : Nat) : UInt8 := buf.getD i 0

variable {α : Type}

@[simp] theorem length_slice (buf : List α) (i j : Nat) :
    (slice buf i j).length = min (j - i) (buf.length - i) := by
  simp [slice]

@[simp] theorem slice_all {buf : List α} {n : Nat} (h : buf.length ≤ n) : slice buf 0 n = buf := by
  simp [slice, List.take_of_length_le h]

/-- A range that ends inside the first part does not see the second. -/
@[simp] theorem slice_append_left {a r : List α} {i j : Nat} (h : j ≤ a.length) :
    slice (a ++ r) i j = slice a i j := by
  by_cases hi : i ≤ a.length
  · rw [slice, slice, List.drop_append_of_le_length hi, List.take_append_of_le_length (by simp; omega)]
  · have hz : j - i = 0 := by omega
    simp [slice, hz]

/-- A range that starts past the first part is a range of the second. -/
@[simp] theorem slice_append_right {a r : List α} {i j : Nat} (h : a.length ≤ i) :
    slice (a ++ r) i j = slice r (i - a.length) (j - a.length) := by
  rw [slice, slice, List.drop_append, List.drop_of_length_le h, List.nil_append]
  congr 1
  omega

/-- The middle part of three. -/
theorem slice_middle {a b c : List α} {i j : Nat} (hi : a.length = i) (hj : i + b.length = j) :
    slice (a ++ b ++ c) i j = b := by
  subst hi hj
  rw [List.append_assoc, slice_append_right (Nat.le_refl _), Nat.sub_self, Nat.add_sub_cancel_left,
    slice_append_left (Nat.le_refl _), slice_all (Nat.le_refl _)]

@[simp] theorem slice_cons {x : α} {r : List α} {i j : Nat} (h : 0 < i) :
    slice (x :: r) i j = slice r (i - 1) (j - 1) :=
  slice_append_right (a := [x]) h

theorem slice_glue (buf : List α) {i j k : Nat} (hij : i ≤ j) (hjk : j ≤ k) :
    slice buf i j ++ slice buf j k = slice buf i k := by
  have hd : buf.drop j = (buf.drop i).drop (j - i) := by rw [List.drop_drop]; congr 1; omega
  have hk : k - i = (j - i) + (k - j) := by omega
  rw [slice, slice, slice, hd, hk, List.take_add]

theorem slice_zero {buf : List α} {n : Nat} : slice buf 0 n = buf.take n := by
  simp [slice]

theorem slice_to_end {buf : List α} {i : Nat} : slice buf i buf.length = buf.drop i := by
  simp [slice, List.take_of_length_le]

/-- A range of a range. -/
theorem slice_slice {buf : List α} {i j k l : Nat} (h : i + l ≤ j) :
    slice (slice buf i j) k l = slice buf (i + k) (i + l) := by
  unfold slice
  rw [List.drop_take, List.take_take, List.drop_drop, Nat.min_eq_left (by omega), Nat.add_sub_add_left]

theorem length_flatMap_range {piece : Nat → List α} {len n : Nat} (hlen : ∀ k < n, (piece k).length = len) :
    ((List.range n).flatMap piece).length = n * len := by
  rw [List.length_flatMap, List.map_congr_left fun k hk => hlen k (List.mem_range.mp hk), List.map_const',
    List.sum_replicate_nat, List.length_range]

/-- One of pieces of one length. -/
theorem slice_flatMap_range {piece : Nat → List α} {len k n : Nat} (hk : k < n)
    (hlen : ∀ k < n, (piece k).length = len) :
    slice ((List.range n).flatMap piece) (k * len) ((k + 1) * len) = piece k := by
  induction n with
  | zero => omega
  | succ n ih =>
    have hpieces := length_flatMap_range fun k hk => hlen k (Nat.lt_succ_of_lt hk)
    rw [List.range_succ, List.flatMap_append, List.flatMap_singleton]
    rcases Nat.lt_succ_iff_lt_or_eq.mp hk with hk | rfl
    · rw [slice_append_left (hpieces ▸ Nat.mul_le_mul_right len hk)]
      exact ih hk fun k hk => hlen k (Nat.lt_succ_of_lt hk)
    · rw [slice_append_right (Nat.le_of_eq hpieces), hpieces, Nat.sub_self, Nat.succ_mul, Nat.add_sub_cancel_left]
      exact slice_all (Nat.le_of_eq (hlen k k.lt_succ_self))

/-- A change past a range does not touch it. -/
theorem slice_set_before {buf : List α} {i j k : Nat} {y : α} (h : k ≤ j) :
    slice (buf.set j y) i k = slice buf i k := by
  rw [slice, slice, List.drop_set]
  split
  · rfl
  · rw [List.take_set_of_le (by omega)]

theorem slice_set {buf : List α} {i j k : Nat} {y : α} (h : i ≤ j) :
    slice (buf.set j y) i k = (slice buf i k).set (j - i) y := by
  rw [slice, slice, List.drop_set, if_neg (Nat.not_lt.mpr h), List.take_set]

@[simp] theorem byteAt_append_left {a r : List UInt8} {i : Nat} (h : i < a.length) :
    byteAt (a ++ r) i = byteAt a i := by
  simp [byteAt, List.getD_eq_getElem?_getD, List.getElem?_append_left h]

@[simp] theorem byteAt_append_right {a r : List UInt8} {i : Nat} (h : a.length ≤ i) :
    byteAt (a ++ r) i = byteAt r (i - a.length) := by
  simp [byteAt, List.getD_eq_getElem?_getD, List.getElem?_append_right h]

@[simp] theorem byteAt_cons {x : UInt8} {r : List UInt8} {i : Nat} (h : 0 < i) :
    byteAt (x :: r) i = byteAt r (i - 1) :=
  byteAt_append_right (a := [x]) h

@[simp] theorem byteAt_cons_zero (x : UInt8) (r : List UInt8) : byteAt (x :: r) 0 = x := rfl

theorem byteAt_middle {a c : List UInt8} {x : UInt8} {i : Nat} (hi : a.length = i) :
    byteAt (a ++ [x] ++ c) i = x := by
  subst hi
  rw [List.append_assoc, byteAt_append_right (Nat.le_refl _), Nat.sub_self]
  rfl

/-- One byte of a buffer as a range. -/
theorem singleton_byteAt {buf : List UInt8} {i : Nat} (h : i < buf.length) :
    [byteAt buf i] = slice buf i (i + 1) := by
  rw [slice, show i + 1 - i = 1 by omega, byteAt, List.getD_eq_getElem?_getD,
    List.getElem?_eq_getElem h, List.drop_eq_getElem_cons h]
  rfl

/-! ## Naturals -/

/-- The `k` low bytes of `n`, least significant first. -/
def toLE : Nat → Nat → List UInt8
  | 0, _ => []
  | k + 1, n => UInt8.ofNat n :: toLE k (n / 256)

/-- The natural a byte list spells, least significant first. -/
def ofLE (bytes : List UInt8) : Nat := bytes.foldr (fun b acc => b.toNat + 256 * acc) 0

@[simp] theorem length_toLE (k n : Nat) : (toLE k n).length = k := by
  induction k generalizing n with
  | zero => rfl
  | succ k ih => simp [toLE, ih]

/-- Reading back what was written gives the value modulo the width. -/
theorem ofLE_toLE (k n : Nat) : ofLE (toLE k n) = n % 256 ^ k := by
  induction k generalizing n with
  | zero => simp [toLE, ofLE, Nat.mod_one]
  | succ k ih =>
    have hih : ofLE (toLE k (n / 256)) = n / 256 % 256 ^ k := ih (n / 256)
    calc ofLE (toLE (k + 1) n)
        = (UInt8.ofNat n).toNat + 256 * ofLE (toLE k (n / 256)) := rfl
      _ = n % 256 + 256 * (n / 256 % 256 ^ k) := by rw [hih]; simp
      _ = n % 256 ^ (k + 1) := by rw [Nat.pow_succ', Nat.mod_mul]

/-- Writing back what was read gives the same bytes. -/
theorem toLE_ofLE (bytes : List UInt8) : toLE bytes.length (ofLE bytes) = bytes := by
  induction bytes with
  | nil => rfl
  | cons b rest ih =>
    have hb : b.toNat < 256 := b.toNat_lt
    have hv : ofLE (b :: rest) = b.toNat + 256 * ofLE rest := rfl
    have hdiv : (b.toNat + 256 * ofLE rest) / 256 = ofLE rest := by omega
    have hbyte : UInt8.ofNat (b.toNat + 256 * ofLE rest) = b := by
      apply UInt8.toNat_inj.mp
      simp only [UInt8.toNat_ofNat']
      omega
    rw [List.length_cons, hv, toLE, hdiv, ih, hbyte]

theorem ofLE_lt (bytes : List UInt8) : ofLE bytes < 256 ^ bytes.length := by
  rw [← toLE_ofLE bytes, ofLE_toLE]
  simpa using Nat.mod_lt _ (Nat.pow_pos (by decide))

/-! ## Fixed widths

`leU16` and its siblings are `to_le_bytes`; `readU16` and its siblings are
`from_le_bytes` on a slice of the right length. -/

def leU16 (x : UInt16) : List UInt8 := toLE 2 x.toNat
def leU32 (x : UInt32) : List UInt8 := toLE 4 x.toNat
def leU64 (x : UInt64) : List UInt8 := toLE 8 x.toNat
def leI32 (x : Int32) : List UInt8 := leU32 x.toUInt32

def readU16 (bytes : List UInt8) : UInt16 := UInt16.ofNat (ofLE bytes)
def readU32 (bytes : List UInt8) : UInt32 := UInt32.ofNat (ofLE bytes)
def readU64 (bytes : List UInt8) : UInt64 := UInt64.ofNat (ofLE bytes)
def readI32 (bytes : List UInt8) : Int32 := .ofUInt32 (readU32 bytes)

@[simp] theorem length_leU16 (x : UInt16) : (leU16 x).length = 2 := length_toLE 2 _
@[simp] theorem length_leU32 (x : UInt32) : (leU32 x).length = 4 := length_toLE 4 _
@[simp] theorem length_leU64 (x : UInt64) : (leU64 x).length = 8 := length_toLE 8 _
@[simp] theorem length_leI32 (x : Int32) : (leI32 x).length = 4 := length_toLE 4 _

@[simp] theorem readU16_leU16 (x : UInt16) : readU16 (leU16 x) = x := by
  have hlt : x.toNat < 256 ^ 2 := x.toNat_lt
  rw [readU16, leU16, ofLE_toLE, Nat.mod_eq_of_lt hlt, UInt16.ofNat_toNat]

@[simp] theorem readU32_leU32 (x : UInt32) : readU32 (leU32 x) = x := by
  have hlt : x.toNat < 256 ^ 4 := x.toNat_lt
  rw [readU32, leU32, ofLE_toLE, Nat.mod_eq_of_lt hlt, UInt32.ofNat_toNat]

@[simp] theorem readU64_leU64 (x : UInt64) : readU64 (leU64 x) = x := by
  have hlt : x.toNat < 256 ^ 8 := x.toNat_lt
  rw [readU64, leU64, ofLE_toLE, Nat.mod_eq_of_lt hlt, UInt64.ofNat_toNat]

@[simp] theorem readI32_leI32 (x : Int32) : readI32 (leI32 x) = x := by
  rw [readI32, leI32, readU32_leU32]

theorem ofLE_leU16 (x : UInt16) : ofLE (leU16 x) = x.toNat := by
  have hlt : x.toNat < 256 ^ 2 := x.toNat_lt
  rw [leU16, ofLE_toLE, Nat.mod_eq_of_lt hlt]

theorem ofLE_leU32 (x : UInt32) : ofLE (leU32 x) = x.toNat := by
  have hlt : x.toNat < 256 ^ 4 := x.toNat_lt
  rw [leU32, ofLE_toLE, Nat.mod_eq_of_lt hlt]

theorem leU16_readU16 {bytes : List UInt8} (h : bytes.length = 2) : leU16 (readU16 bytes) = bytes := by
  have hlt : ofLE bytes < 2 ^ 16 := by simpa [h] using ofLE_lt bytes
  rw [leU16, readU16, UInt16.toNat_ofNat', Nat.mod_eq_of_lt hlt, ← h, toLE_ofLE]

theorem leU32_readU32 {bytes : List UInt8} (h : bytes.length = 4) : leU32 (readU32 bytes) = bytes := by
  have hlt : ofLE bytes < 2 ^ 32 := by simpa [h] using ofLE_lt bytes
  rw [leU32, readU32, UInt32.toNat_ofNat', Nat.mod_eq_of_lt hlt, ← h, toLE_ofLE]

theorem leU64_readU64 {bytes : List UInt8} (h : bytes.length = 8) : leU64 (readU64 bytes) = bytes := by
  have hlt : ofLE bytes < 2 ^ 64 := by simpa [h] using ofLE_lt bytes
  rw [leU64, readU64, UInt64.toNat_ofNat', Nat.mod_eq_of_lt hlt, ← h, toLE_ofLE]

/-! Reading a range and writing it back gives the range. -/

theorem leU16_slice {buf : List UInt8} {i : Nat} (h : i + 2 ≤ buf.length) :
    leU16 (readU16 (slice buf i (i + 2))) = slice buf i (i + 2) :=
  leU16_readU16 (by simp; omega)

theorem leU32_slice {buf : List UInt8} {i : Nat} (h : i + 4 ≤ buf.length) :
    leU32 (readU32 (slice buf i (i + 4))) = slice buf i (i + 4) :=
  leU32_readU32 (by simp; omega)

theorem leU64_slice {buf : List UInt8} {i : Nat} (h : i + 8 ≤ buf.length) :
    leU64 (readU64 (slice buf i (i + 8))) = slice buf i (i + 8) :=
  leU64_readU64 (by simp; omega)

theorem leI32_slice {buf : List UInt8} {i : Nat} (h : i + 4 ≤ buf.length) :
    leI32 (readI32 (slice buf i (i + 4))) = slice buf i (i + 4) :=
  leU32_slice h

/-! ## Buffers of a set size and their words -/

theorem ofLE_append (a b : List UInt8) : ofLE (a ++ b) = ofLE a + 256 ^ a.length * ofLE b := by
  induction a with
  | nil => simp [ofLE]
  | cons x a ih =>
    show x.toNat + 256 * ofLE (a ++ b) = x.toNat + 256 * ofLE a + 256 ^ (a.length + 1) * ofLE b
    rw [ih, Nat.pow_succ', Nat.mul_add, Nat.mul_assoc, Nat.add_assoc]

theorem ofLE_zeros (k : Nat) : ofLE (List.replicate k 0) = 0 := by
  induction k with
  | zero => rfl
  | succ k ih =>
    show 0 + 256 * ofLE (List.replicate k 0) = 0
    rw [ih]

theorem ofLE_take (bytes : List UInt8) (k : Nat) : ofLE (bytes.take k) = ofLE bytes % 256 ^ k := by
  have hlt : ofLE (bytes.take k) < 256 ^ k := by
    refine Nat.lt_of_lt_of_le (ofLE_lt _) (Nat.pow_le_pow_right (by omega) ?_)
    exact List.length_take_le _ _
  by_cases h : k ≤ bytes.length
  · have hsplit := ofLE_append (bytes.take k) (bytes.drop k)
    rw [List.take_append_drop, List.length_take_of_le h] at hsplit
    rw [hsplit, Nat.add_mul_mod_self_left, Nat.mod_eq_of_lt hlt]
  · rw [List.take_of_length_le (by omega)] at hlt ⊢
    exact (Nat.mod_eq_of_lt hlt).symm

theorem toLE_mod (k n : Nat) : toLE k (n % 256 ^ k) = toLE k n := by
  rw [← ofLE_toLE]
  simpa using toLE_ofLE (toLE k n)

/-- `bytes.resize(k, 0)`. -/
def resize (bytes : List UInt8) (k : Nat) : List UInt8 :=
  bytes.take k ++ List.replicate (k - bytes.length) 0

@[simp] theorem length_resize (bytes : List UInt8) (k : Nat) : (resize bytes k).length = k := by
  simp [resize]
  omega

theorem resize_eq (bytes : List UInt8) (k : Nat) : resize bytes k = toLE k (ofLE bytes) := by
  have hv : ofLE (resize bytes k) = ofLE bytes % 256 ^ k := by
    rw [resize, ofLE_append, ofLE_zeros, Nat.mul_zero, Nat.add_zero, ofLE_take]
  rw [← toLE_mod, ← hv]
  simpa using (toLE_ofLE (resize bytes k)).symm

theorem take_toLE {j k : Nat} (h : j ≤ k) (n : Nat) : (toLE k n).take j = toLE j n := by
  induction j generalizing k n with
  | zero => rfl
  | succ j ih =>
    obtain ⟨k, rfl⟩ : ∃ i, k = i + 1 := ⟨k - 1, by omega⟩
    rw [toLE, toLE, List.take_succ_cons, ih (by omega)]

theorem readU32_toLE (n : Nat) : readU32 (toLE 4 n) = UInt32.ofNat n := by
  rw [readU32, ofLE_toLE, ← UInt32.toNat_inj]
  simp

/-- The first `k` 32-bit words of a buffer. -/
def words : Nat → List UInt8 → List UInt32
  | 0, _ => []
  | k + 1, bytes => readU32 (slice bytes 0 4) :: words k (bytes.drop 4)

/-- The natural its words spell, lowest first. -/
def ofWords (ws : List UInt32) : Nat := ws.foldr (fun w acc => w.toNat + 2 ^ 32 * acc) 0

@[simp] theorem length_words (k : Nat) (bytes : List UInt8) : (words k bytes).length = k := by
  induction k generalizing bytes with
  | zero => rfl
  | succ k ih => rw [words, List.length_cons, ih]

theorem ofWords_words {k : Nat} {bytes : List UInt8} (h : bytes.length = 4 * k) :
    ofWords (words k bytes) = ofLE bytes := by
  induction k generalizing bytes with
  | zero =>
    rw [List.length_eq_zero_iff.mp h]
    rfl
  | succ k ih =>
    have hfirst : (readU32 (slice bytes 0 4)).toNat = ofLE (bytes.take 4) := by
      have hlt : ofLE (bytes.take 4) < 2 ^ 32 := by
        rw [ofLE_take]
        exact Nat.mod_lt _ (by omega)
      rw [slice_zero, readU32, UInt32.toNat_ofNat', Nat.mod_eq_of_lt hlt]
    have hrest : ofWords (words k (bytes.drop 4)) = ofLE (bytes.drop 4) :=
      ih (by rw [List.length_drop]; omega)
    have hwhole := ofLE_append (bytes.take 4) (bytes.drop 4)
    rw [List.take_append_drop, List.length_take_of_le (by omega)] at hwhole
    calc ofWords (words (k + 1) bytes)
        = (readU32 (slice bytes 0 4)).toNat + 2 ^ 32 * ofWords (words k (bytes.drop 4)) := rfl
      _ = ofLE (bytes.take 4) + 2 ^ 32 * ofLE (bytes.drop 4) := by rw [hfirst, hrest]
      _ = ofLE bytes := hwhole.symm

/-- Lists that agree around one position agree everywhere else. -/
theorem getElem?_around {α : Type} {a c : List α} {x y : α} {i : Nat} (h : i ≠ a.length) :
    (a ++ [x] ++ c)[i]? = (a ++ [y] ++ c)[i]? := by
  rw [List.append_assoc, List.append_assoc]
  by_cases hi : i < a.length
  · rw [List.getElem?_append_left hi, List.getElem?_append_left hi]
  · obtain ⟨k, rfl⟩ : ∃ k, i = a.length + (k + 1) := ⟨i - a.length - 1, by omega⟩
    simp [List.getElem?_append_right]

end DroidMirror.Lib.LittleEndian
