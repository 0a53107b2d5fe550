import DroidMirror.Native.Mp4
import Mathlib.Data.Rat.Floor
import Mathlib.Tactic.FieldSimp
import Mathlib.Tactic.Linarith

/-! # The durations of a recording

Each duration is the time to the next sample in whole milliseconds. What is cut
off is lost for all samples after it (`cutUs`), so the durations stay with the
presentation times exactly as long as the cuts add up to less than one
millisecond. -/
namespace DroidMirror.Native.Mp4
open DroidMirror.Client DroidMirror.Proto DroidMirror.Lib.Neighbours

theorem saturatingSub_toNat (a b : UInt64) : (saturatingSub a b).toNat = a.toNat - b.toNat := by
  unfold saturatingSub
  split
  · rename_i h
    exact UInt64.toNat_sub_of_le a b h
  · rename_i h
    rw [UInt64.le_iff_toNat_le] at h
    rw [UInt64.toNat_zero]
    omega

theorem clampDuration_toNat (durMs : UInt64) :
    (clampDuration durMs).toNat = max 1 (min durMs.toNat 10000) := by
  unfold clampDuration
  split
  · rename_i h
    rw [UInt64.lt_iff_toNat_lt] at h
    have h1 : (1 : UInt64).toNat = 1 := rfl
    rw [UInt64.toNat_toUInt32, h1]
    omega
  · rename_i h1
    rw [UInt64.lt_iff_toNat_lt] at h1
    have hone : (1 : UInt64).toNat = 1 := rfl
    have hcap : (10000 : UInt64).toNat = 10000 := rfl
    split
    · rename_i h
      rw [gt_iff_lt, UInt64.lt_iff_toNat_lt] at h
      rw [UInt64.toNat_toUInt32, hcap]
      omega
    · rename_i h
      rw [gt_iff_lt, UInt64.lt_iff_toNat_lt] at h
      rw [UInt64.toNat_toUInt32]
      omega

/-- The duration in whole milliseconds, ten seconds at most. -/
theorem duration_toNat {f g : Frame} (h : f.ptsUs.toNat + 1000 ≤ g.ptsUs.toNat) :
    (clampDuration (durMs f g)).toNat = min ((g.ptsUs.toNat - f.ptsUs.toNat) / 1000) 10000 := by
  have hthousand : (1000 : UInt64).toNat = 1000 := rfl
  rw [clampDuration_toNat, durMs, UInt64.toNat_div, saturatingSub_toNat, hthousand]
  omega

/-- Frames 1 ms to 10 s apart. -/
def Spaced (f g : Frame) : Prop :=
  f.ptsUs.toNat + 1000 ≤ g.ptsUs.toNat ∧ g.ptsUs.toNat ≤ f.ptsUs.toNat + 10000000

/-- What a duration leaves out of the time to the next sample, in µs: the part of
a millisecond, or what is over ten seconds where frames without a picture lie between. -/
def cutUs (f g : Frame) : Nat :=
  g.ptsUs.toNat - f.ptsUs.toNat - 1000 * min ((g.ptsUs.toNat - f.ptsUs.toNat) / 1000) 10000

/-- What is cut off over the whole recording. -/
def totalCutUs (frames : List Frame) : Nat := ((pairs (recorded frames)).map fun p => cutUs p.1 p.2).sum

/-- The durations of the samples written before the kth, added up, in ms. -/
def durationsBefore (frames : List Frame) (k : Nat) : Nat :=
  (((Mp4Rec.record frames).2.written.take k).map (·.duration.toNat)).sum

/-- At every sample the durations before it agree with the presentation times to
less than a millisecond. -/
def NoDrift (frames : List Frame) : Prop :=
  ∀ k (hk : k < (recorded frames).length) (h0 : 0 < (recorded frames).length),
    |(durationsBefore frames k : ℚ) -
      ((recorded frames)[k].ptsUs.toNat - (recorded frames)[0].ptsUs.toNat : ℚ) / 1000| < 1

theorem step_eq {f g : Frame} (h : f.ptsUs.toNat + 1000 ≤ g.ptsUs.toNat) :
    g.ptsUs.toNat = f.ptsUs.toNat + (1000 * (clampDuration (durMs f g)).toNat + cutUs f g) := by
  rw [duration_toNat h, cutUs]
  omega

theorem recorded_pairs {frames : List Frame} (h : frames.IsChain Spaced) :
    ∀ p ∈ pairs (recorded frames), p.1.ptsUs.toNat + 1000 ≤ p.2.ptsUs.toNat := by
  have hstep : frames.IsChain fun f g : Frame => f.ptsUs.toNat + 1000 ≤ g.ptsUs.toNat :=
    h.imp fun _ _ hs => hs.1
  have : IsTrans Frame fun f g : Frame => f.ptsUs.toNat + 1000 ≤ g.ptsUs.toNat :=
    ⟨fun a b c hab hbc => by omega⟩
  have hsub : (recorded frames).Sublist frames :=
    (List.dropWhile_sublist _).trans List.filter_sublist
  exact pairs_of_pairwise ((List.isChain_iff_pairwise.mp hstep).sublist hsub)

theorem sum_take_le {α : Type} (l : List α) (f : α → Nat) (k : Nat) :
    ((l.take k).map f).sum ≤ (l.map f).sum := by
  have hsplit : (l.map f).sum = ((l.take k).map f).sum + ((l.drop k).map f).sum := by
    rw [← List.sum_append, ← List.map_append, List.take_append_drop]
  omega

theorem sum_steps {α : Type} (l : List α) (d c : α → Nat) :
    (l.map fun p => 1000 * d p + c p).sum = 1000 * (l.map d).sum + (l.map c).sum := by
  induction l with
  | nil => rfl
  | cons x l ih =>
    simp only [List.map_cons, List.sum_cons, ih]
    omega

/-- Milliseconds and microseconds apart by what is cut off. -/
theorem abs_sub_lt_one_iff {p q d c : Nat} (h : q = p + (1000 * d + c)) :
    |(d : ℚ) - ((q : ℚ) - p) / 1000| < 1 ↔ c < 1000 := by
  have hdiff : (d : ℚ) - ((q : ℚ) - p) / 1000 = -((c : ℚ) / 1000) := by
    rw [h]
    push_cast
    ring
  rw [hdiff, abs_neg, abs_of_nonneg (by positivity), div_lt_one (by norm_num)]
  exact_mod_cast Iff.rfl

theorem durationsBefore_eq {frames : List Frame} {k : Nat} (hk : k < (recorded frames).length) :
    durationsBefore frames k =
      (((pairs (recorded frames)).take k).map fun p => (clampDuration (durMs p.1 p.2)).toNat).sum := by
  have hlen : k ≤ ((pairs (recorded frames)).map fun p => sample p.1 (durMs p.1 p.2)).length := by
    rw [List.length_map, length_pairs]
    omega
  rw [durationsBefore, (record_eq frames).1, samplesOf, List.take_append_of_le_length hlen, ← List.map_take, List.map_map]
  rfl

/-- The durations do not drift exactly if the cuts stay below a millisecond in all. -/
theorem noDrift_iff {frames : List Frame} (h : frames.IsChain Spaced) :
    NoDrift frames ↔ totalCutUs frames < 1000 := by
  have hpairs := recorded_pairs h
  have hat : ∀ {k : Nat} (hk : k < (recorded frames).length) (h0 : 0 < (recorded frames).length),
      |(durationsBefore frames k : ℚ) -
        ((recorded frames)[k].ptsUs.toNat - (recorded frames)[0].ptsUs.toNat : ℚ) / 1000| < 1 ↔
      (((pairs (recorded frames)).take k).map fun p => cutUs p.1 p.2).sum < 1000 := by
    intro k hk h0
    have hsum := sum_pairs (fun f : Frame => f.ptsUs.toNat)
      (fun f g => 1000 * (clampDuration (durMs f g)).toNat + cutUs f g)
      (fun p hp => step_eq (hpairs p hp)) hk h0
    rw [sum_steps] at hsum
    rw [durationsBefore_eq hk]
    exact abs_sub_lt_one_iff hsum
  constructor
  · intro hall
    rcases Nat.eq_zero_or_pos (recorded frames).length with hnone | hpos
    · rw [totalCutUs, List.eq_nil_of_length_eq_zero hnone]
      decide
    · have hlast := (hat (Nat.sub_lt hpos Nat.one_pos) hpos).mp (hall _ (Nat.sub_lt hpos Nat.one_pos) hpos)
      rwa [List.take_of_length_le (Nat.le_of_eq (length_pairs _))] at hlast
  · intro hcut k hk h0
    exact (hat hk h0).mpr (Nat.lt_of_le_of_lt (sum_take_le _ _ k) hcut)

/-- An IDR at a presentation time. -/
def idrAt (ptsUs : UInt64) : Frame := ⟨ptsUs, true, [0, 0, 0, 1, 0x65]⟩

theorem noDrift_whole : NoDrift [idrAt 0, idrAt 33000, idrAt 66000] :=
  (noDrift_iff (by simp [Spaced, idrAt])).mpr (by decide)

/-- At 60 frames per second a millisecond is lost with the third frame. -/
theorem drifts : ¬ ∀ frames : List Frame, frames.IsChain Spaced → NoDrift frames := by
  intro h
  have hk := h [idrAt 0, idrAt 16667, idrAt 33334] (by simp [Spaced, idrAt]) 2 (by decide) (by decide)
  have hsum : durationsBefore [idrAt 0, idrAt 16667, idrAt 33334] 2 = 32 := by decide
  have hlast : ((recorded [idrAt 0, idrAt 16667, idrAt 33334])[2]).ptsUs.toNat = 33334 := by decide
  have hfirst : ((recorded [idrAt 0, idrAt 16667, idrAt 33334])[0]).ptsUs.toNat = 0 := by decide
  rw [hsum, hlast, hfirst] at hk
  norm_num at hk

end DroidMirror.Native.Mp4
