import DroidMirror.Proto.AnnexB

/-! # Units with their length in front

`to_annex_b` on AVCC data. It tells the formats apart by the first bytes, and
some lengths look like a start code (`ReadsAsStartCode`): data whose first unit
has such a length is returned as it is. -/
namespace DroidMirror.Proto
open DroidMirror.Lib.LittleEndian

/-- `u32::to_be_bytes`. -/
def beU32 (v : UInt32) : List UInt8 := (leU32 v).reverse

@[simp] theorem length_beU32 (v : UInt32) : (beU32 v).length = 4 := by simp [beU32]

@[simp] theorem readU32BE_beU32 (v : UInt32) : readU32BE (beU32 v) = v := by
  rw [readU32BE, beU32, List.reverse_reverse, readU32_leU32]

/-- A unit after its length in four bytes, modulo 2^32 as the cast has it. -/
def lengthPrefixed (nal : List UInt8) : List UInt8 := beU32 (.ofNat nal.length) ++ nal

/-- The AVCC form of a list of units. -/
def avcc (nals : List (List UInt8)) : List UInt8 := nals.flatMap lengthPrefixed

/-- The Annex-B form, all start codes of four bytes. -/
def annexB (nals : List (List UInt8)) : List UInt8 := nals.flatMap ([0, 0, 0, 1] ++ ·)

/-- A unit whose length fits the four bytes. -/
def FitsLength (nal : List UInt8) : Prop := nal ≠ [] ∧ nal.length < 2 ^ 32

/-- A length whose four bytes begin as a start code does. -/
def ReadsAsStartCode (len : Nat) : Prop := len = 1 ∨ (256 ≤ len ∧ len ≤ 511)

instance (len : Nat) : Decidable (ReadsAsStartCode len) := inferInstanceAs (Decidable (_ ∨ _ ∧ _))

@[simp] theorem avcc_cons (nal : List UInt8) (rest : List (List UInt8)) :
    avcc (nal :: rest) = beU32 (.ofNat nal.length) ++ nal ++ avcc rest := rfl

@[simp] theorem annexB_cons (nal : List UInt8) (rest : List (List UInt8)) :
    annexB (nal :: rest) = [0, 0, 0, 1] ++ nal ++ annexB rest := rfl

theorem length_le_avcc (nals : List (List UInt8)) : 4 * nals.length ≤ (avcc nals).length := by
  induction nals with
  | nil => exact Nat.zero_le _
  | cons nal rest ih =>
    rw [avcc_cons, List.length_append, List.length_append, length_beU32, List.length_cons]
    omega

theorem FitsLength.toNat {nal : List UInt8} (h : FitsLength nal) :
    (UInt32.ofNat nal.length).toNat = nal.length := by
  rw [UInt32.toNat_ofNat', Nat.mod_eq_of_lt h.2]

/-- The four bytes of a length, the most significant first. -/
theorem beU32_ofNat {len : Nat} (h : len < 2 ^ 32) : beU32 (.ofNat len) =
    [.ofNat (len / 2 ^ 24), .ofNat (len / 2 ^ 16), .ofNat (len / 2 ^ 8), .ofNat len] := by
  have hlen : (UInt32.ofNat len).toNat = len := by rw [UInt32.toNat_ofNat', Nat.mod_eq_of_lt h]
  simp [beU32, leU32, hlen, toLE, Nat.div_div_eq_div_mul]

theorem ofNat_eq_iff {n : Nat} {b : UInt8} : UInt8.ofNat n = b ↔ n % 256 = b.toNat := by
  rw [← UInt8.toNat_inj, UInt8.toNat_ofNat']

/-- Which lengths are misread. -/
theorem hasStartCode_length {len : Nat} (h : len < 2 ^ 32) (s : List UInt8) :
    hasStartCode (beU32 (.ofNat len) ++ s) = true ↔ ReadsAsStartCode len := by
  rw [beU32_ofNat h]
  simp only [hasStartCode, List.cons_append, List.nil_append, List.isPrefixOf, Bool.or_eq_true,
    Bool.and_eq_true, beq_iff_eq, and_true, eq_comm (b := UInt8.ofNat _), ofNat_eq_iff, UInt8.toNat_zero,
    UInt8.toNat_one, ReadsAsStartCode]
  omega

/-- The loop reads the units that are left and stops at the end. -/
theorem avccLoop_avcc {nals : List (List UInt8)} (h : ∀ nal ∈ nals, FitsLength nal) :
    ∀ (done out : List UInt8) {fuel : Nat}, nals.length < fuel →
      avccLoop (done ++ avcc nals) fuel done.length out =
        ((done ++ avcc nals).length, out ++ annexB nals) := by
  induction nals with
  | nil =>
    intro done out fuel hfuel
    obtain ⟨fuel, rfl⟩ : ∃ k, fuel = k + 1 := Nat.exists_eq_succ_of_ne_zero (Nat.ne_zero_of_lt hfuel)
    rw [avccLoop, if_neg (by simp [avcc])]
    simp [avcc, annexB]
  | cons nal rest ih =>
    intro done out fuel hfuel
    obtain ⟨fuel, rfl⟩ : ∃ k, fuel = k + 1 := ⟨fuel - 1, by omega⟩
    have hnal := h nal List.mem_cons_self
    have hpos : 0 < nal.length := List.length_pos_iff.mpr hnal.1
    have hsplit : done ++ avcc (nal :: rest) =
        done ++ beU32 (.ofNat nal.length) ++ nal ++ avcc rest := by simp
    have hprefix : slice (done ++ avcc (nal :: rest)) done.length (done.length + 4) =
        beU32 (.ofNat nal.length) := by
      rw [hsplit, List.append_assoc (done ++ _)]
      exact slice_middle rfl (by simp)
    have hunit : slice (done ++ avcc (nal :: rest)) (done.length + 4)
        (done.length + 4 + nal.length) = nal := by
      rw [hsplit]
      exact slice_middle (by simp) rfl
    have hlen : (done ++ avcc (nal :: rest)).length =
        done.length + 4 + nal.length + (avcc rest).length := by simp [Nat.add_assoc]
    have hnext := ih (fun n hn => h n (List.mem_cons_of_mem nal hn))
      (done ++ beU32 (.ofNat nal.length) ++ nal) (out ++ [0, 0, 0, 1] ++ nal)
      (by simpa using hfuel)
    rw [← hsplit] at hnext
    simp only [List.length_append, length_beU32] at hnext
    simp only [avccLoop, hprefix, readU32BE_beU32, hnal.toNat, hunit]
    rw [if_pos (by omega), if_neg (by omega), hnext]
    simp

/-- Where the formats do not look alike, the units come out with start codes. -/
theorem toAnnexB_avcc_cons {nal : List UInt8} {rest : List (List UInt8)}
    (h : ∀ n ∈ nal :: rest, FitsLength n) (hlen : ¬ ReadsAsStartCode nal.length) :
    toAnnexB (avcc (nal :: rest)) = annexB (nal :: rest) := by
  have hnal := h nal List.mem_cons_self
  have hpos : 0 < nal.length := List.length_pos_iff.mpr hnal.1
  have hplain : ¬ ((avcc (nal :: rest)).isEmpty || hasStartCode (avcc (nal :: rest))) = true := by
    rw [Bool.or_eq_true, avcc_cons, List.append_assoc, hasStartCode_length hnal.2]
    exact not_or.mpr ⟨by simp [beU32_ofNat hnal.2], hlen⟩
  have hcount : (nal :: rest).length < (avcc (nal :: rest)).length := by
    have hle := length_le_avcc (nal :: rest)
    rw [List.length_cons] at hle ⊢
    omega
  have hloop := avccLoop_avcc h [] [] hcount
  have hlooks : looksLikeAvcc (avcc (nal :: rest)) = true := by
    have hprefix : slice (avcc (nal :: rest)) 0 4 = beU32 (.ofNat nal.length) := by simp
    have htotal : (avcc (nal :: rest)).length = 4 + nal.length + (avcc rest).length := by
      rw [avcc_cons, List.length_append, List.length_append, length_beU32]
    simp only [looksLikeAvcc, hprefix, readU32BE_beU32, hnal.toNat]
    rw [if_neg (by omega), decide_eq_true_eq]
    omega
  rw [List.nil_append, List.nil_append, List.length_nil] at hloop
  unfold toAnnexB
  rw [if_neg hplain, hloop]
  exact if_pos ⟨hlooks, rfl, by simp⟩

/-- The two forms are one only for units of one byte. -/
theorem avcc_eq_annexB {nals : List (List UInt8)} (h : ∀ n ∈ nals, FitsLength n) :
    avcc nals = annexB nals ↔ ∀ n ∈ nals, n.length = 1 := by
  induction nals with
  | nil => simp [avcc, annexB]
  | cons nal rest ih =>
    have hnal := h nal List.mem_cons_self
    have ih := ih fun n hn => h n (List.mem_cons_of_mem nal hn)
    have hcode : beU32 (.ofNat nal.length) = [0, 0, 0, 1] ↔ nal.length = 1 := by
      constructor
      · intro heq
        have hread := congrArg (fun b => (readU32BE b).toNat) heq
        simp only [readU32BE_beU32, hnal.toNat] at hread
        exact hread
      · intro heq
        rw [heq]
        rfl
    rw [List.forall_mem_cons, ← ih, ← hcode, avcc_cons, annexB_cons]
    constructor
    · intro heq
      rw [List.append_assoc, List.append_assoc] at heq
      obtain ⟨hfront, hback⟩ := List.append_inj heq (length_beU32 _)
      exact ⟨hfront, List.append_cancel_left hback⟩
    · rintro ⟨hfront, hrest⟩
      rw [hfront, hrest]

/-- AVCC data becomes Annex-B exactly if the length in front does not look like
a start code, or nothing is to be changed. -/
theorem toAnnexB_avcc_iff {nals : List (List UInt8)} (hne : nals ≠ []) (h : ∀ n ∈ nals, FitsLength n) :
    toAnnexB (avcc nals) = annexB nals ↔
      ¬ ReadsAsStartCode (nals.head hne).length ∨ ∀ n ∈ nals, n.length = 1 := by
  obtain ⟨nal, rest, rfl⟩ := List.exists_cons_of_ne_nil hne
  rw [List.head_cons]
  by_cases hlen : ReadsAsStartCode nal.length
  · have hmarked : hasStartCode (avcc (nal :: rest)) = true := by
      rw [avcc_cons, List.append_assoc, hasStartCode_length (h nal List.mem_cons_self).2]
      exact hlen
    have hsame : toAnnexB (avcc (nal :: rest)) = avcc (nal :: rest) := by
      rw [toAnnexB, if_pos (by rw [hmarked, Bool.or_true])]
    rw [hsame, avcc_eq_annexB h]
    exact (or_iff_right (not_not.mpr hlen)).symm
  · exact iff_of_true (toAnnexB_avcc_cons h hlen) (.inl hlen)

theorem toAnnexB_avcc_two : toAnnexB (avcc [[0x65, 9, 8], [0x41, 7]]) = annexB [[0x65, 9, 8], [0x41, 7]] :=
  (toAnnexB_avcc_iff (List.cons_ne_nil [0x65, 9, 8] [[0x41, 7]]) (by simp [FitsLength])).mpr
    (.inl (by decide))

/-- One unit of 256 bytes: its length reads as `00 00 01` and one byte more. -/
theorem toAnnexB_avcc_misread : ¬ ∀ nals : List (List UInt8), nals ≠ [] →
    (∀ n ∈ nals, FitsLength n) → toAnnexB (avcc nals) = annexB nals := by
  intro h
  have hlen : (List.replicate 256 (0x65 : UInt8)).length = 256 := List.length_replicate
  have hunit : FitsLength (List.replicate 256 0x65) := by
    rw [FitsLength, ← List.length_pos_iff, hlen]
    decide
  have heq := h [List.replicate 256 0x65] (List.cons_ne_nil _ _) (List.forall_mem_singleton.mpr hunit)
  revert heq
  decide +kernel

end DroidMirror.Proto
