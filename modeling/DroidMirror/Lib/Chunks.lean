import Mathlib.Data.List.Basic
import DroidMirror.Lib.LittleEndian

/-! # Cutting a list into chunks

Chunks of a size, and the framing that rests on them: a transfer is cut into packets of at
most a given length, and one shorter than that ends a message (`receive_chunks`,
`receive_empty`). -/
namespace DroidMirror.Lib.Chunks
open DroidMirror.Lib.LittleEndian
variable {α : Type}

/-- The list cut every `n` elements; the last chunk may be shorter. -/
def chunks (n : Nat) (l : List α) : List (List α) :=
  (List.range ((l.length + n - 1) / n)).map fun i => slice l (i * n) ((i + 1) * n)

theorem length_of_mem_chunks {n : Nat} {l chunk : List α} (h : chunk ∈ chunks n l) :
    chunk.length ≤ n := by
  obtain ⟨i, _, rfl⟩ := List.mem_map.mp h
  rw [length_slice, Nat.succ_mul, Nat.add_sub_cancel_left]
  exact Nat.min_le_left _ _

/-- The first chunks are what stands before the last of their cuts. -/
theorem flatten_cuts (n : Nat) (l : List α) (k : Nat) :
    ((List.range k).map fun i => slice l (i * n) ((i + 1) * n)).flatten = l.take (k * n) := by
  induction k with
  | zero => rw [Nat.zero_mul, List.take_zero]; rfl
  | succ k ih =>
    rw [List.range_succ, List.map_append, List.flatten_append, ih, List.map_singleton,
      List.flatten_singleton, ← slice_zero, ← slice_zero]
    exact slice_glue l (Nat.zero_le _) (Nat.mul_le_mul_right n k.le_succ)

theorem flatten_chunks {n : Nat} (hn : 0 < n) (l : List α) : (chunks n l).flatten = l := by
  have hcover : l.length ≤ (l.length + n - 1) / n * n := by
    have hmod := Nat.mod_lt (l.length + n - 1) hn
    have hdiv := Nat.div_add_mod' (l.length + n - 1) n
    omega
  exact (flatten_cuts n l _).trans (List.take_of_length_le hcover)

theorem chunks_nil {n : Nat} (hn : 0 < n) : chunks n ([] : List α) = [] := by
  rw [chunks, List.length_nil, Nat.zero_add, Nat.div_eq_of_lt (Nat.sub_lt hn Nat.one_pos)]
  rfl

theorem chunks_cut {n : Nat} (hn : 0 < n) {l : List α} (hl : l ≠ []) :
    chunks n l = l.take n :: chunks n (l.drop n) := by
  have hpos : 0 < l.length := List.length_pos_iff.mpr hl
  have hcount : (l.length + n - 1) / n = ((l.drop n).length + n - 1) / n + 1 := by
    rw [List.length_drop]
    by_cases hle : n ≤ l.length
    · rw [← Nat.add_div_right _ hn]
      congr 1
      omega
    · have hzero : l.length - n + n - 1 = n - 1 := by omega
      have hone : l.length + n - 1 = l.length - 1 + n := by omega
      rw [hzero, hone, Nat.add_div_right _ hn, Nat.div_eq_of_lt (by omega), Nat.div_eq_of_lt (by omega)]
  have hslice (i : Nat) : slice l ((i + 1) * n) ((i + 1 + 1) * n) = slice (l.drop n) (i * n) ((i + 1) * n) := by
    unfold slice
    rw [List.drop_drop, Nat.succ_mul (i + 1), Nat.succ_mul i, Nat.add_sub_cancel_left, Nat.add_sub_cancel_left,
      Nat.add_comm]
  rw [chunks, hcount, List.range_succ_eq_map, List.map_cons, List.map_map, Nat.zero_mul, slice_zero, Nat.zero_add,
    Nat.one_mul]
  exact congrArg (l.take n :: ·) (List.map_congr_left fun i _ => hslice i)

/-- The first of the chunks are the chunks of the front. -/
theorem take_chunks {n : Nat} (hn : 0 < n) (l : List α) (k : Nat) :
    (chunks n l).take k = chunks n (l.take (k * n)) := by
  induction k generalizing l with
  | zero => rw [List.take_zero, Nat.zero_mul, List.take_zero, chunks_nil hn]
  | succ k ih =>
    by_cases hl : l = []
    · rw [hl, List.take_nil, chunks_nil hn, List.take_nil]
    · have hne : l.take ((k + 1) * n) ≠ [] := by
        rw [Ne, List.take_eq_nil_iff]
        exact fun h => h.elim (Nat.mul_ne_zero k.succ_ne_zero (Nat.ne_of_gt hn)) hl
      have hfirst : n ≤ (k + 1) * n := Nat.le_mul_of_pos_left n k.succ_pos
      rw [chunks_cut hn hl, chunks_cut hn hne, List.take_succ_cons, ih, List.take_take, Nat.min_eq_left hfirst,
        List.drop_take, Nat.succ_mul, Nat.add_sub_cancel]

/-! ## Short packets -/

/-- What goes over the wire for a transfer: an empty one is an empty packet. -/
def inPackets (n : Nat) (l : List α) : List (List α) := if l = [] then [[]] else chunks n l

/-- The messages that ended, and what of the next one has come. -/
def receive (n : Nat) (m : List (List α) × List α) (packet : List α) : List (List α) × List α :=
  if packet.length < n then (m.1 ++ [m.2 ++ packet], []) else (m.1, m.2 ++ packet)

theorem receive_short {n : Nat} (m : List (List α) × List α) {packet : List α} (h : packet.length < n) :
    receive n m packet = (m.1 ++ [m.2 ++ packet], []) := if_pos h

theorem receive_full {n : Nat} (m : List (List α) × List α) {packet : List α} (h : n ≤ packet.length) :
    receive n m packet = (m.1, m.2 ++ packet) := if_neg (Nat.not_lt.mpr h)

/-- The messages after more of one: whole packets leave it open, a rest ends it. -/
def extend (n : Nat) (m : List (List α) × List α) (l : List α) : List (List α) × List α :=
  if n ∣ l.length then (m.1, m.2 ++ l) else (m.1 ++ [m.2 ++ l], [])

/-- More of a message, after whole packets of it. -/
theorem extend_append {n : Nat} (m : List (List α) × List α) {a : List α} (b : List α) (h : n ∣ a.length) :
    extend n (m.1, m.2 ++ a) b = extend n m (a ++ b) := by
  have hdvd : n ∣ (a ++ b).length ↔ n ∣ b.length := by
    rw [List.length_append]
    exact (Nat.dvd_add_iff_right h).symm
  simp only [extend, hdvd, List.append_assoc]

theorem receive_chunks {n : Nat} (hn : 0 < n) (l : List α) (m : List (List α) × List α) :
    (chunks n l).foldl (receive n) m = extend n m l := by
  unfold extend
  induction hlen : l.length using Nat.strongRecOn generalizing l m with
  | ind len ih =>
    by_cases hl : l = []
    · subst hl hlen
      rw [chunks_nil hn, List.length_nil, if_pos (Nat.dvd_zero n), List.append_nil]
      rfl
    · have hpos : 0 < l.length := List.length_pos_iff.mpr hl
      rw [chunks_cut hn hl, List.foldl_cons]
      by_cases hle : n ≤ l.length
      · have hfull : n ≤ (l.take n).length := by rw [List.length_take, Nat.min_eq_left hle]
        have hrest : (l.drop n).length = len - n := by rw [List.length_drop, hlen]
        have hdvd : n ∣ len - n ↔ n ∣ len := Nat.dvd_sub_iff_left (hlen ▸ hle) (Nat.dvd_refl n)
        rw [receive_full m hfull, ih (len - n) (by omega) _ _ hrest]
        simp only [hdvd, List.append_assoc, List.take_append_drop]
      · have hall : l.take n = l := List.take_of_length_le (by omega)
        have hnone : l.drop n = [] := List.drop_of_length_le (by omega)
        have hodd : ¬ n ∣ len := fun h => by have := Nat.le_of_dvd (hlen ▸ hpos) h; omega
        rw [hall, hnone, chunks_nil hn, receive_short m (by omega), if_neg hodd]
        rfl

theorem receive_inPackets {n : Nat} (hn : 0 < n) {l : List α} (hl : l ≠ []) (m : List (List α) × List α) :
    (inPackets n l).foldl (receive n) m = extend n m l := by
  rw [inPackets, if_neg hl]
  exact receive_chunks hn l m

/-- An empty transfer ends the message. -/
theorem receive_empty {n : Nat} (hn : 0 < n) (m : List (List α) × List α) :
    (inPackets n []).foldl (receive n) m = (m.1 ++ [m.2], []) := by
  rw [inPackets, if_pos rfl]
  exact (receive_short m hn).trans (by rw [List.append_nil])

end DroidMirror.Lib.Chunks
