import Mathlib.Data.List.Basic
import DroidMirror.Native.Capture

/-! # The decoder's scanner

`crates/native/src/decode.rs` looks for start codes at every index, where
`capture.rs` moves past the ones it found. What both see is a byte behind
`00 00 01` (`mem_nalTypes`, `mem_nals_types`), so wherever there is a start code at
all the types agree. -/
namespace DroidMirror.Native
open DroidMirror.Lib.LittleEndian

namespace Decode

def startCodes (data : List UInt8) : List Nat :=
  (List.range (data.length - 3)).filterMap fun i =>
    if startsWith (data.drop i) [0, 0, 0, 1] then some (i + 4)
    else if startsWith (data.drop i) [0, 0, 1] then some (i + 3)
    else none

def nalTypes (data : List UInt8) : List UInt8 :=
  (startCodes data).filterMap fun i => data[i]?.map (· &&& 0x1f)

/-- Unit type 5 is an IDR picture. -/
def containsIdr (data : List UInt8) : Bool := (nalTypes data).any (· == 5)

/-- Unit type 7 is an SPS. -/
def containsSps (data : List UInt8) : Bool := (nalTypes data).any (· == 7)

end Decode

/-! ## Positions -/

theorem cons_prefix_drop {a : UInt8} {p data : List UInt8} {i : Nat} :
    (a :: p) <+: data.drop i ↔ data[i]? = some a ∧ p <+: data.drop (i + 1) := by
  by_cases hi : i < data.length
  · rw [List.drop_eq_getElem_cons hi, List.cons_prefix_cons, List.getElem?_eq_getElem hi,
      Option.some.injEq, eq_comm]
  · rw [List.drop_eq_nil_of_le (Nat.le_of_not_lt hi), List.getElem?_eq_none (Nat.le_of_not_lt hi)]
    simp

/-- A unit of type `t` begins at an offset, behind a start code. -/
def TypeAt (data : List UInt8) (t : UInt8) (i : Nat) : Prop := ∃ b, data[i]? = some b ∧ b &&& 0x1f = t

/-- There is a unit of type `t` behind a start code. -/
def Carries (data : List UInt8) (t : UInt8) : Prop :=
  ∃ i, [0, 0, 1] <+: data.drop i ∧ TypeAt data t (i + 3)

/-- What the decoder sees is a byte behind `00 00 01`. -/
theorem Decode.mem_nalTypes {data : List UInt8} {t : UInt8} : t ∈ nalTypes data ↔ Carries data t := by
  simp only [Carries, nalTypes, startCodes, List.mem_filterMap, List.mem_range, Option.map_eq_some_iff, TypeAt,
    startsWith_iff]
  constructor
  · rintro ⟨k, ⟨i, _, hk⟩, b, hb, ht⟩
    split at hk
    · rename_i hlong
      cases hk
      exact ⟨i + 1, (cons_prefix_drop.mp hlong).2, b, hb, ht⟩
    · split at hk
      · rename_i hshort
        cases hk
        exact ⟨i, hshort, b, hb, ht⟩
      · cases hk
  · rintro ⟨i, hcode, b, hb, ht⟩
    have hlen : i + 3 < data.length := (List.getElem?_eq_some_iff.mp hb).1
    refine ⟨i + 3, ⟨i, by omega, ?_⟩, b, hb, ht⟩
    have hlong : ¬ [0, 0, 0, 1] <+: data.drop i := by
      simp only [cons_prefix_drop] at hcode ⊢
      intro h
      cases hcode.2.2.1.symm.trans h.2.2.1
    rw [if_neg hlong, if_pos hcode]

theorem Decode.containsIdr_iff {data : List UInt8} : containsIdr data = true ↔ Carries data 5 := by
  rw [containsIdr, List.any_eq_true, ← mem_nalTypes]
  simp

theorem Decode.containsSps_iff {data : List UInt8} : containsSps data = true ↔ Carries data 7 := by
  rw [containsSps, List.any_eq_true, ← mem_nalTypes]
  simp

/-! ## The greedy scan -/

/-- Start codes in the order of the scan: each begins with a zero, where the one
before it ended or later. -/
inductive Placed (data : List UInt8) : Nat → List Start → Prop
  | nil (i : Nat) : Placed data i []
  | cons {i : Nat} {s : Start} {rest : List Start} : i ≤ s.at_ - s.sc → data[s.at_ - s.sc]? = some 0 →
      Placed data s.at_ rest → Placed data i (s :: rest)

theorem Placed.mono {data : List UInt8} {i j : Nat} {starts : List Start} (h : Placed data j starts)
    (hij : i ≤ j) : Placed data i starts := by
  cases h with
  | nil => exact .nil i
  | cons hs hz hrest => exact .cons (Nat.le_trans hij hs) hz hrest

theorem startCodesFrom_placed (data : List UInt8) (fuel : Nat) :
    ∀ i, Placed data i (startCodesFrom data fuel i) := by
  induction fuel with
  | zero => exact fun i => .nil i
  | succ fuel ih =>
    intro i
    rw [startCodesFrom]
    split
    · split
      · rename_i hlong
        exact .cons (Nat.le_refl i) (cons_prefix_drop.mp (startsWith_iff.mp hlong)).1 (ih (i + 4))
      · split
        · rename_i hshort
          exact .cons (Nat.le_refl i) (cons_prefix_drop.mp (startsWith_iff.mp hshort)).1 (ih (i + 3))
        · exact (ih (i + 1)).mono (Nat.le_succ i)
    · exact .nil i

/-- From an offset on there is a unit of type `t`. -/
def Sees (data : List UInt8) (t : UInt8) (i : Nat) : Prop :=
  ∃ j, i ≤ j ∧ [0, 0, 1] <+: data.drop j ∧ TypeAt data t (j + 3)

section
variable {data : List UInt8} {t : UInt8} {i : Nat}

theorem not_sees_end (h : data.length ≤ i + 3) : ¬ Sees data t i := by
  intro ⟨j, hj, _, b, hb, _⟩
  have hlt := (List.getElem?_eq_some_iff.mp hb).1
  omega

theorem sees_succ (h : ¬ [0, 0, 1] <+: data.drop i) : Sees data t i ↔ Sees data t (i + 1) := by
  constructor
  · intro ⟨j, hj, hcode, ht⟩
    have hne : i ≠ j := by
      intro heq
      exact h (heq ▸ hcode)
    exact ⟨j, by omega, hcode, ht⟩
  · intro ⟨j, hj, hcode, ht⟩
    exact ⟨j, by omega, hcode, ht⟩

/-- Start codes do not overlap: the next one begins behind this one at the earliest. -/
theorem sees_code (h : [0, 0, 1] <+: data.drop i) :
    Sees data t i ↔ TypeAt data t (i + 3) ∨ Sees data t (i + 3) := by
  have hone : data[i + 2]? = some 1 := by
    simp only [cons_prefix_drop] at h
    exact h.2.2.1
  have hnext : ¬ [0, 0, 1] <+: data.drop (i + 1) := by
    simp only [cons_prefix_drop]
    intro hc
    cases hone.symm.trans hc.2.1
  have hlater : ¬ [0, 0, 1] <+: data.drop (i + 2) := by
    simp only [cons_prefix_drop]
    intro hc
    cases hone.symm.trans hc.1
  have hskip : Sees data t (i + 1) ↔ Sees data t (i + 3) := (sees_succ hnext).trans (sees_succ hlater)
  rw [← hskip]
  constructor
  · intro ⟨j, hj, hcode, ht⟩
    rcases Nat.eq_or_lt_of_le hj with rfl | hlt
    · exact .inl ht
    · exact .inr ⟨j, hlt, hcode, ht⟩
  · rintro (ht | ⟨j, hj, hcode, ht⟩)
    · exact ⟨i, Nat.le_refl i, h, ht⟩
    · exact ⟨j, by omega, hcode, ht⟩

end

/-- The scan finds the codes that a byte follows. -/
theorem mem_startCodesFrom {data : List UInt8} {t : UInt8} (fuel : Nat) : ∀ i, data.length ≤ fuel + i →
    ((∃ s ∈ startCodesFrom data fuel i, TypeAt data t s.at_) ↔ Sees data t i) := by
  induction fuel with
  | zero =>
    intro i hi
    exact iff_of_false (by simp [startCodesFrom]) (not_sees_end (by omega))
  | succ fuel ih =>
    intro i hi
    rw [startCodesFrom]
    by_cases hend : i + 3 < data.length
    · rw [if_pos hend]
      by_cases hlong : [0, 0, 0, 1] <+: data.drop i
      · -- the code of three bytes is the end of the one of four
        obtain ⟨_, hshort⟩ := cons_prefix_drop.mp hlong
        have hfirst : ¬ [0, 0, 1] <+: data.drop i := by
          simp only [cons_prefix_drop] at hlong ⊢
          intro hc
          cases hlong.2.2.1.symm.trans hc.2.2.1
        rw [if_pos (startsWith_iff.mpr hlong), List.exists_mem_cons_iff, ih (i + 4) (by omega),
          sees_succ hfirst, sees_code hshort]
      · rw [if_neg (mt startsWith_iff.mp hlong)]
        by_cases hshort : [0, 0, 1] <+: data.drop i
        · rw [if_pos (startsWith_iff.mpr hshort), List.exists_mem_cons_iff, ih (i + 3) (by omega),
            sees_code hshort]
        · rw [if_neg (mt startsWith_iff.mp hshort), ih (i + 1) (by omega), sees_succ hshort]
    · rw [if_neg hend]
      exact iff_of_false (by simp) (not_sees_end (by omega))

/-- No code means that the scan came past none. -/
theorem startCodesFrom_eq_nil {data : List UInt8} (fuel : Nat) : ∀ i, data.length ≤ fuel + i →
    startCodesFrom data fuel i = [] → ∀ j, i ≤ j → j + 3 < data.length →
      ¬ [0, 0, 0, 1] <+: data.drop j ∧ ¬ [0, 0, 1] <+: data.drop j := by
  induction fuel with
  | zero =>
    intro i hi _ j hj hlt
    omega
  | succ fuel ih =>
    intro i hi h j hj hlt
    rw [startCodesFrom, if_pos (by omega)] at h
    split at h
    · cases h
    · rename_i hlong
      split at h
      · cases h
      · rename_i hshort
        rcases Nat.eq_or_lt_of_le hj with rfl | hj
        · exact ⟨mt startsWith_iff.mpr hlong, mt startsWith_iff.mpr hshort⟩
        · exact ih (i + 1) (by omega) h j hj hlt

/-! ## The units -/

theorem typeAt_slice {data : List UInt8} {t : UInt8} {i j : Nat} (h : i < j) (ht : t ≠ 0) :
    nalType (slice data i j) = t ↔ TypeAt data t i := by
  have hhead : (slice data i j).headD 0 = (data[i]?).getD 0 := by
    rw [slice, List.headD_eq_head?_getD, List.head?_eq_getElem?, List.getElem?_take_of_lt (by omega),
      List.getElem?_drop, Nat.add_zero]
  rw [nalType, hhead, TypeAt]
  cases hb : data[i]? with
  | none => simpa using ht.symm
  | some b => simp

/-- A unit that is dropped as empty begins with the zero of the next start code,
or with the end of the data. -/
theorem nalsBetween_types {data : List UInt8} {t : UInt8} (ht : t ≠ 0) {starts : List Start} {i : Nat}
    (h : Placed data i starts) :
    (∃ nal ∈ nalsBetween data starts, nalType nal = t) ↔ ∃ s ∈ starts, TypeAt data t s.at_ := by
  induction h with
  | nil i => simp [nalsBetween]
  | @cons i s rest _ _ hrest ih =>
    have hunit : (∃ nal ∈ (if endOf data rest > s.at_ then [slice data s.at_ (endOf data rest)] else []),
        nalType nal = t) ↔ TypeAt data t s.at_ := by
      split
      · rename_i hlt
        rw [← typeAt_slice hlt ht]
        simp
      · rename_i hle
        refine iff_of_false (by simp) ?_
        intro ⟨b, hb, htype⟩
        cases hrest with
        | nil =>
          have hlt := (List.getElem?_eq_some_iff.mp hb).1
          exact hle hlt
        | @cons _ next rest hnext hzero _ =>
          have hat : next.at_ - next.sc = s.at_ := Nat.le_antisymm (Nat.le_of_not_lt hle) hnext
          rw [hat, hb] at hzero
          cases hzero
          exact ht htype.symm
    rw [nalsBetween_cons, List.exists_mem_cons_iff, ← ih, ← hunit]
    simp only [List.mem_append, or_and_right, exists_or]

/-- The types of the units `nals` gives, where there is a start code. -/
theorem mem_nals_types {data : List UInt8} {t : UInt8} (ht : t ≠ 0)
    (hcode : ∃ i, i + 3 < data.length ∧ ([0, 0, 0, 1] <+: data.drop i ∨ [0, 0, 1] <+: data.drop i)) :
    (∃ nal ∈ nals data, nalType nal = t) ↔ Carries data t := by
  obtain ⟨i, hi, hcode⟩ := hcode
  have hne : startCodesFrom data data.length 0 ≠ [] := by
    intro hnil
    obtain ⟨hlong, hshort⟩ := startCodesFrom_eq_nil _ 0 (Nat.le_refl _) hnil i (Nat.zero_le i) hi
    exact hcode.elim hlong hshort
  have hstarts : startCodes data = startCodesFrom data data.length 0 := by
    have hdata : ¬ data.isEmpty = true := by
      rw [List.isEmpty_iff]
      rintro rfl
      exact hne rfl
    rw [startCodes, if_neg hdata]
    exact if_neg (mt List.isEmpty_iff.mp hne)
  rw [nals, hstarts, nalsBetween_types ht (startCodesFrom_placed ..), mem_startCodesFrom _ 0 (Nat.le_refl _)]
  simp [Sees, Carries]

/-- Where a start code is found at all, both scanners see the same units. -/
theorem scanners_agree {data : List UInt8}
    (h : ∃ i, i + 3 < data.length ∧ ([0, 0, 0, 1] <+: data.drop i ∨ [0, 0, 1] <+: data.drop i)) :
    (Decode.containsIdr data = true ↔ ∃ nal ∈ nals data, nalType nal = 5) ∧
      (Decode.containsSps data = true ↔ ∃ nal ∈ nals data, nalType nal = 7) ∧
      ∀ t ≠ 0, t ∈ Decode.nalTypes data ↔ ∃ nal ∈ nals data, nalType nal = t := by
  have hsame : ∀ t ≠ 0, t ∈ Decode.nalTypes data ↔ ∃ nal ∈ nals data, nalType nal = t :=
    fun t ht => Decode.mem_nalTypes.trans (mem_nals_types ht h).symm
  refine ⟨?_, ?_, hsame⟩
  · exact Decode.containsIdr_iff.trans (mem_nals_types (by decide) h).symm
  · exact Decode.containsSps_iff.trans (mem_nals_types (by decide) h).symm

/-- Zeros in a row, and a start code cut off at the end. -/
theorem scanners_agree_zeros : 7 ∈ Decode.nalTypes [0, 0, 0, 0, 1, 0x67, 0, 0, 0, 0, 1] ∧
    ∃ nal ∈ nals [0, 0, 0, 0, 1, 0x67, 0, 0, 0, 0, 1], nalType nal = 7 := by
  have hcode : ∃ i, i + 3 < [0, 0, 0, 0, 1, 0x67, 0, 0, 0, 0, (1 : UInt8)].length ∧
      ([0, 0, 0, 1] <+: [0, 0, 0, 0, 1, 0x67, 0, 0, 0, 0, (1 : UInt8)].drop i ∨
        [0, 0, 1] <+: [0, 0, 0, 0, 1, 0x67, 0, 0, 0, 0, (1 : UInt8)].drop i) :=
    ⟨1, by decide, .inl (by decide)⟩
  have hagree := scanners_agree hcode
  have hseen : 7 ∈ Decode.nalTypes [0, 0, 0, 0, 1, 0x67, 0, 0, 0, 0, 1] := by decide
  exact ⟨hseen, (hagree.2.2 7 (by decide)).mp hseen⟩

end DroidMirror.Native
