import DroidMirror.Transport.Push

/-! # Texts as bytes and back

`from_utf8_lossy` gives back every text from its own bytes: a character's
encoding starts with the byte that announces its width, and the bytes after it
are in the range that byte allows. -/
namespace DroidMirror.Transport

/-! ## What the first byte announces -/

def lossyWidth (first : UInt8) : Nat :=
  if first < 0xc2 then 1 else if first < 0xe0 then 2 else if first < 0xf0 then 3
  else if first < 0xf5 then 4 else 1

/-- The range of the second byte. -/
def lossyLow (first : UInt8) : UInt8 := match first with | 0xe0 => 0xa0 | 0xf0 => 0x90 | _ => 0x80
def lossyHigh (first : UInt8) : UInt8 := match first with | 0xed => 0x9f | 0xf4 => 0x8f | _ => 0xbf

theorem lossyFrom_skip (k : Nat) (l : List UInt8) : lossyFrom k l = lossyFrom 0 (l.drop k) := by
  induction l generalizing k with
  | nil => cases k <;> rfl
  | cons b l ih =>
    cases k with
    | zero => rfl
    | succ k => exact ih k

/-- The bytes that may follow the first. -/
def lossyFollows (first : UInt8) : List UInt8 → List UInt8
  | [] => []
  | second :: rest =>
    if lossyLow first ≤ second ∧ second ≤ lossyHigh first then
      second :: rest.takeWhile fun b => 0x80 ≤ b ∧ b ≤ 0xbf
    else []

theorem lossyChar_eq (first : UInt8) (rest : List UInt8) :
    lossyChar first rest =
      let taken := (lossyFollows first rest).take (lossyWidth first - 1)
      if taken.length + 1 < lossyWidth first ∨ (lossyWidth first = 1 ∧ 0x80 ≤ first) then
        (Char.ofNat 0xFFFD, taken.length + 1)
      else
        (Char.ofNat (taken.foldl (fun acc b => acc * 64 + b.toNat % 64)
          (if lossyWidth first = 1 then first.toNat else first.toNat % 2 ^ (7 - lossyWidth first))),
          lossyWidth first) := by
  cases rest <;> rfl

theorem lossyChar_one {first : UInt8} (h : first < 0x80) (rest : List UInt8) :
    lossyChar first rest = (Char.ofNat first.toNat, 1) := by
  have hlt := UInt8.lt_iff_toNat_lt.mp h
  have hwidth : lossyWidth first = 1 := if_pos (UInt8.lt_iff_toNat_lt.mpr (Nat.lt_trans hlt (by decide)))
  have hhigh : ¬ 0x80 ≤ first := by
    rw [UInt8.le_iff_toNat_le]
    exact Nat.not_le.mpr hlt
  rw [lossyChar_eq]
  simp [hwidth, hhigh]

/-- A first byte and as many others as it announces, each in its range. -/
theorem lossyChar_more {first second : UInt8} {more : List UInt8}
    (hwidth : lossyWidth first = more.length + 2)
    (hlow : lossyLow first ≤ second) (hhigh : second ≤ lossyHigh first)
    (hmore : ∀ b ∈ more, 0x80 ≤ b ∧ b ≤ 0xbf) (rest : List UInt8) :
    lossyChar first (second :: (more ++ rest)) =
      (Char.ofNat ((second :: more).foldl (fun acc b => acc * 64 + b.toNat % 64)
        (first.toNat % 2 ^ (7 - (more.length + 2)))), more.length + 2) := by
  have htaken : (lossyFollows first (second :: (more ++ rest))).take (more.length + 1) =
      second :: more := by
    rw [lossyFollows, if_pos ⟨hlow, hhigh⟩, List.take_succ_cons, List.takeWhile_append_of_pos,
      List.take_left]
    intro b hb
    exact decide_eq_true (hmore b hb)
  rw [lossyChar_eq]
  simp only [hwidth, Nat.add_succ_sub_one, htaken]
  rw [if_neg, if_neg (by omega)]
  rw [List.length_cons]
  omega

/-! ## One character -/

theorem lossyWidth_eq (b : UInt8) : lossyWidth b =
    if b.toNat < 0xc2 then 1 else if b.toNat < 0xe0 then 2 else if b.toNat < 0xf0 then 3
    else if b.toNat < 0xf5 then 4 else 1 := by
  simp only [lossyWidth, UInt8.lt_iff_toNat_lt, UInt8.reduceToNat]

theorem toNat_lossyLow (b : UInt8) : (lossyLow b).toNat =
    if b.toNat = 0xe0 then 0xa0 else if b.toNat = 0xf0 then 0x90 else 0x80 := by
  unfold lossyLow
  split
  · rfl
  · rfl
  · rename_i h1 h2
    have h1' : b.toNat ≠ 0xe0 := fun h => h1 (UInt8.toNat_inj.mp h)
    have h2' : b.toNat ≠ 0xf0 := fun h => h2 (UInt8.toNat_inj.mp h)
    rw [if_neg h1', if_neg h2']
    rfl

theorem toNat_lossyHigh (b : UInt8) : (lossyHigh b).toNat =
    if b.toNat = 0xed then 0x9f else if b.toNat = 0xf4 then 0x8f else 0xbf := by
  unfold lossyHigh
  split
  · rfl
  · rfl
  · rename_i h1 h2
    have h1' : b.toNat ≠ 0xed := fun h => h1 (UInt8.toNat_inj.mp h)
    have h2' : b.toNat ≠ 0xf4 := fun h => h2 (UInt8.toNat_inj.mp h)
    rw [if_neg h1', if_neg h2']
    rfl

theorem toNat_ofNat_byte {n : Nat} (h : n < 256) : (UInt8.ofNat n).toNat = n := by
  rw [UInt8.toNat_ofNat', Nat.mod_eq_of_lt h]

theorem continues (n : Nat) : 0x80 ≤ UInt8.ofNat (n % 64 + 0x80) ∧ UInt8.ofNat (n % 64 + 0x80) ≤ 0xbf := by
  rw [UInt8.le_iff_toNat_le, UInt8.le_iff_toNat_le, toNat_ofNat_byte (by omega)]
  show 128 ≤ _ ∧ _ ≤ 191
  omega

/-- A first byte of the number `a` and the two halves of its range, in numbers. -/
theorem lossyChar_numbers {a b : Nat} {more : List UInt8} (ha : a < 256) (hb : b < 256)
    (hwidth : (if a < 0xc2 then 1 else if a < 0xe0 then 2 else if a < 0xf0 then 3
      else if a < 0xf5 then 4 else 1) = more.length + 2)
    (hlow : (if a = 0xe0 then 0xa0 else if a = 0xf0 then 0x90 else 0x80) ≤ b)
    (hhigh : b ≤ if a = 0xed then 0x9f else if a = 0xf4 then 0x8f else 0xbf)
    (hmore : ∀ x ∈ more, 0x80 ≤ x ∧ x ≤ 0xbf) (rest : List UInt8) :
    lossyChar (UInt8.ofNat a) (UInt8.ofNat b :: (more ++ rest)) =
      (Char.ofNat (more.foldl (fun acc x => acc * 64 + x.toNat % 64)
        (a % 2 ^ (7 - (more.length + 2)) * 64 + b % 64)), more.length + 2) := by
  have hfirst := toNat_ofNat_byte ha
  have hsecond := toNat_ofNat_byte hb
  rw [lossyChar_more (by rw [lossyWidth_eq, hfirst, hwidth]) _ _ hmore, List.foldl_cons, hfirst, hsecond]
  · rw [UInt8.le_iff_toNat_le, toNat_lossyLow, hfirst, hsecond]
    exact hlow
  · rw [UInt8.le_iff_toNat_le, toNat_lossyHigh, hfirst, hsecond]
    exact hhigh

section
variable {v : Nat} (rest : List UInt8)

theorem two_bytes (h : 0x7f < v) (h' : v ≤ 0x7ff) :
    lossyChar (UInt8.ofNat (v / 64 % 0x20 + 0xc0)) (UInt8.ofNat (v % 0x40 + 0x80) :: rest) =
      (Char.ofNat v, 2) := by
  have hnum := @lossyChar_numbers (v / 64 % 0x20 + 0xc0) (v % 0x40 + 0x80) [] (by omega) (by omega)
    (by rw [if_neg (by omega), if_pos (by omega)]; rfl) (by split_ifs <;> omega) (by split_ifs <;> omega)
    (by simp) rest
  have hv : (v / 64 % 0x20 + 0xc0) % 2 ^ 5 * 64 + (v % 0x40 + 0x80) % 64 = v := by omega
  exact hnum.trans (congrArg (fun n => (Char.ofNat n, 2)) hv)

theorem three_bytes (h : 0x7ff < v) (h' : v ≤ 0xffff) (hs : v < 0xd800 ∨ 0xdfff < v) :
    lossyChar (UInt8.ofNat (v / 4096 % 0x10 + 0xe0)) (UInt8.ofNat (v / 64 % 0x40 + 0x80) ::
      UInt8.ofNat (v % 0x40 + 0x80) :: rest) = (Char.ofNat v, 3) := by
  have hnum := @lossyChar_numbers (v / 4096 % 0x10 + 0xe0) (v / 64 % 0x40 + 0x80)
    [UInt8.ofNat (v % 0x40 + 0x80)] (by omega) (by omega)
    (by rw [if_neg (by omega), if_neg (by omega), if_pos (by omega)]; rfl)
    (by split_ifs <;> omega) (by split_ifs <;> omega) (List.forall_mem_singleton.mpr (continues v)) rest
  have hlast : (UInt8.ofNat (v % 0x40 + 0x80)).toNat = v % 0x40 + 0x80 := toNat_ofNat_byte (by omega)
  have hv : ((v / 4096 % 0x10 + 0xe0) % 2 ^ 4 * 64 + (v / 64 % 0x40 + 0x80) % 64) * 64 +
      (UInt8.ofNat (v % 0x40 + 0x80)).toNat % 64 = v := by rw [hlast]; omega
  exact hnum.trans (congrArg (fun n => (Char.ofNat n, 3)) hv)

theorem four_bytes (h : 0xffff < v) (h' : v < 0x110000) :
    lossyChar (UInt8.ofNat (v / 262144 % 0x08 + 0xf0)) (UInt8.ofNat (v / 4096 % 0x40 + 0x80) ::
      UInt8.ofNat (v / 64 % 0x40 + 0x80) :: UInt8.ofNat (v % 0x40 + 0x80) :: rest) =
      (Char.ofNat v, 4) := by
  have hnum := @lossyChar_numbers (v / 262144 % 0x08 + 0xf0) (v / 4096 % 0x40 + 0x80)
    [UInt8.ofNat (v / 64 % 0x40 + 0x80), UInt8.ofNat (v % 0x40 + 0x80)] (by omega) (by omega)
    (by rw [if_neg (by omega), if_neg (by omega), if_neg (by omega), if_pos (by omega)]; rfl)
    (by split_ifs <;> omega) (by split_ifs <;> omega)
    (List.forall_mem_cons.mpr ⟨continues (v / 64), List.forall_mem_singleton.mpr (continues v)⟩) rest
  have hthird : (UInt8.ofNat (v / 64 % 0x40 + 0x80)).toNat = v / 64 % 0x40 + 0x80 :=
    toNat_ofNat_byte (by omega)
  have hlast : (UInt8.ofNat (v % 0x40 + 0x80)).toNat = v % 0x40 + 0x80 := toNat_ofNat_byte (by omega)
  have hv : (((v / 262144 % 0x08 + 0xf0) % 2 ^ 3 * 64 + (v / 4096 % 0x40 + 0x80) % 64) * 64 +
      (UInt8.ofNat (v / 64 % 0x40 + 0x80)).toNat % 64) * 64 +
      (UInt8.ofNat (v % 0x40 + 0x80)).toNat % 64 = v := by rw [hthird, hlast]; omega
  exact hnum.trans (congrArg (fun n => (Char.ofNat n, 4)) hv)

end

/-- A character's bytes are read as that character, whatever follows: the ranges leave out
what is encoded too long, the surrogates and what is past the last character, and no more. -/
theorem lossyChar_utf8EncodeChar (c : Char) (rest : List UInt8) :
    ∃ first tail, String.utf8EncodeChar c = first :: tail ∧
      lossyChar first (tail ++ rest) = (c, tail.length + 1) := by
  have hvalid : c.toNat < 0xd800 ∨ 0xdfff < c.toNat ∧ c.toNat < 0x110000 := c.valid
  have hc : Char.ofNat c.toNat = c := Char.ofNat_toNat c
  obtain ⟨v, hv⟩ : ∃ v, c.toNat = v := ⟨_, rfl⟩
  have hval : c.val.toNat = v := hv
  rw [hv] at hvalid hc
  unfold String.utf8EncodeChar
  simp only [hval]
  by_cases h1 : v ≤ 0x7f
  · have hfirst : (UInt8.ofNat v).toNat = v := toNat_ofNat_byte (by omega)
    have hlt : UInt8.ofNat v < 0x80 := by
      rw [UInt8.lt_iff_toNat_lt, hfirst]
      exact Nat.lt_succ_of_le h1
    rw [if_pos h1]
    refine ⟨_, [], rfl, ?_⟩
    rw [List.nil_append, lossyChar_one hlt, hfirst, hc]
    rfl
  rw [if_neg h1]
  by_cases h2 : v ≤ 0x7ff
  · rw [if_pos h2]
    refine ⟨_, _, rfl, ?_⟩
    have htwo := two_bytes rest (by omega) h2
    rw [hc] at htwo
    exact htwo
  rw [if_neg h2]
  by_cases h3 : v ≤ 0xffff
  · rw [if_pos h3]
    refine ⟨_, _, rfl, ?_⟩
    have hthree := three_bytes rest (by omega) h3 (by omega)
    rw [hc] at hthree
    exact hthree
  · rw [if_neg h3]
    refine ⟨_, _, rfl, ?_⟩
    have hfour := four_bytes rest (by omega) (by omega : v < 0x110000)
    rw [hc] at hfour
    exact hfour

/-! ## Texts -/

theorem lossyFrom_utf8Encode (l : List Char) : lossyFrom 0 (l.flatMap String.utf8EncodeChar) = l := by
  induction l with
  | nil => rfl
  | cons c l ih =>
    obtain ⟨first, tail, henc, hchar⟩ := lossyChar_utf8EncodeChar c (l.flatMap String.utf8EncodeChar)
    rw [List.flatMap_cons, henc, List.cons_append, lossyFrom, hchar]
    simp only [Nat.add_sub_cancel, lossyFrom_skip tail.length, List.drop_left, ih]

theorem bytesOf_ofList (l : List Char) : bytesOf (String.ofList l) = l.flatMap String.utf8EncodeChar := by
  show (String.ofList l).toByteArray.data.toList = _
  rw [String.toByteArray_ofList, List.utf8Encode, List.toList_data_toByteArray]

/-- Every text is read back from its own bytes. -/
theorem fromUtf8Lossy_bytesOf (text : String) : fromUtf8Lossy (bytesOf text) = text := by
  have hbytes := bytesOf_ofList text.toList
  rw [String.ofList_toList] at hbytes
  rw [fromUtf8Lossy, hbytes, lossyFrom_utf8Encode, String.ofList_toList]

end DroidMirror.Transport
