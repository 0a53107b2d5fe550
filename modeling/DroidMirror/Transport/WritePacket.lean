import Mathlib.Data.Fintype.Basic
import Mathlib.Logic.Function.Basic
import DroidMirror.Transport.Protocol
import DroidMirror.Lib.Run

/-! # Concurrent `write_packet` calls

The callers share one `AdbIo` and take turns on its writer lock, which is held
for one `io.write_all` and so for half a packet. A packet that is begun while
another caller is between its header and its payload is written in between
(`header_splits_packet`). While no packet is begun there, the device reads the
packets that were begun, in that order (`whole_packets`). -/
namespace DroidMirror.Transport
open DroidMirror.Lib.Incremental DroidMirror.Lib.Run

/-- The callers of `write_packet` on one `AdbIo`: the calls each has to make,
what its call in progress still has to write, the bytes written, and the calls
begun. -/
structure Writers (ι : Type) where
  todo : ι → List PacketCall
  pending : ι → List (List UInt8)
  wire : List UInt8
  begun : List (ι × PacketCall)

namespace Writers
variable {ι : Type} [DecidableEq ι]

def start (calls : ι → List PacketCall) : Writers ι := ⟨calls, fun _ => [], [], []⟩

/-- One `io.write_all` of a caller. -/
def step (w : Writers ι) (i : ι) : Option (Writers ι) :=
  match w.pending i with
  | buf :: rest =>
    some { w with pending := Function.update w.pending i rest, wire := w.wire ++ buf }
  | [] =>
    match w.todo i with
    | [] => none
    | c :: cs =>
      some
        { todo := Function.update w.todo i cs
          pending := Function.update w.pending i c.payloadWrites
          wire := w.wire ++ c.packet.toBytes
          begun := w.begun ++ [(i, c)] }

/-- What a step did. -/
inductive Move (w : Writers ι) (i : ι) : Writers ι → Prop
  | payload {buf rest} : w.pending i = buf :: rest →
      Move w i { w with pending := Function.update w.pending i rest, wire := w.wire ++ buf }
  | header {c cs} : w.pending i = [] → w.todo i = c :: cs →
      Move w i
        { todo := Function.update w.todo i cs
          pending := Function.update w.pending i c.payloadWrites
          wire := w.wire ++ c.packet.toBytes
          begun := w.begun ++ [(i, c)] }

theorem step_move {w w' : Writers ι} {i : ι} (h : step w i = some w') : Move w i w' := by
  unfold step at h
  split at h
  · rename_i hp
    cases h
    exact .payload hp
  · rename_i hp
    split at h
    · cases h
    · rename_i ht
      cases h
      exact .header hp ht

/-- The calls of one caller in a list of calls. -/
def callsOf (i : ι) (calls : List (ι × PacketCall)) : List PacketCall :=
  (calls.filter fun e => e.1 = i).map Prod.snd

theorem callsOf_snoc (i j : ι) (calls : List (ι × PacketCall)) (c : PacketCall) :
    callsOf i (calls ++ [(j, c)]) = callsOf i calls ++ if j = i then [c] else [] := by
  unfold callsOf
  rw [List.filter_append, List.map_append]
  by_cases h : j = i
  · simp [h]
  · simp [h]

/-- The wire is whole packets, at most one of them without its payload yet, and
then only while its caller is at it; each caller's packets are in its order;
and the device reads the whole ones. -/
def WholePackets (calls : ι → List PacketCall) (w : Writers ι) : Prop :=
  ∃ whole last : List (ι × PacketCall),
    (∀ i, callsOf i (whole ++ last) ++ w.todo i = calls i) ∧
      last.length ≤ 1 ∧ ((∀ i, w.pending i = []) → last = []) ∧
      w.wire = whole.flatMap (fun e => e.2.bytes) ++ last.flatMap (fun e => e.2.packet.toBytes) ∧
      (packets.parse () w.wire).items = whole.map (fun e => (e.2.packet, e.2.data)) ∧
      (packets.parse () w.wire).err = none

/-- The condition: a packet is begun only when no packet is half written. -/
def Alone (w : Writers ι) (i : ι) : Prop := w.pending i = [] → ∀ j, w.pending j = []

instance [Fintype ι] (w : Writers ι) (i : ι) : Decidable (Alone w i) :=
  inferInstanceAs (Decidable (w.pending i = [] → ∀ j, w.pending j = []))

/-! ## Each caller's order -/

def InOrder (calls : ι → List PacketCall) (w : Writers ι) : Prop :=
  ∀ i, callsOf i w.begun ++ w.todo i = calls i

theorem inOrder_start (calls : ι → List PacketCall) : InOrder calls (start calls) := fun _ => rfl

theorem inOrder_step {calls : ι → List PacketCall} {w w' : Writers ι} {i : ι} (hi : InOrder calls w)
    (h : step w i = some w') : InOrder calls w' := by
  intro j
  cases step_move h with
  | payload hp => exact hi j
  | @header c cs hp ht =>
    have hj := hi j
    simp only [callsOf_snoc]
    by_cases hij : i = j
    · subst hij
      rw [ht] at hj
      rw [if_pos rfl, Function.update_self, List.append_assoc]
      exact hj
    · rw [if_neg hij, List.append_nil, Function.update_of_ne (Ne.symm hij)]
      exact hj

theorem InOrder.mem {calls : ι → List PacketCall} {w : Writers ι} (h : InOrder calls w)
    {e : ι × PacketCall} (he : e ∈ w.begun) : e.2 ∈ calls e.1 := by
  rw [← h e.1]
  apply List.mem_append_left
  exact List.mem_map.mpr ⟨e, List.mem_filter.mpr ⟨he, by simp⟩, rfl⟩

/-! ## Framing -/

/-- The packet in progress: none, or the last one begun, by the only caller
that is inside a call. -/
def InProgress (w : Writers ι) (last : List (ι × PacketCall)) : Prop :=
  (last = [] ∧ ∀ i, w.pending i = []) ∨
    ∃ i c, last = [(i, c)] ∧ c.data ≠ [] ∧ w.pending i = [c.data] ∧ ∀ j, j ≠ i → w.pending j = []

def Framed (w : Writers ι) : Prop :=
  ∃ whole last, w.begun = whole ++ last ∧ InProgress w last ∧
    w.wire = whole.flatMap (fun e => e.2.bytes) ++ last.flatMap (fun e => e.2.packet.toBytes)

omit [DecidableEq ι] in
theorem framed_start (calls : ι → List PacketCall) : Framed (start calls) :=
  ⟨[], [], rfl, .inl ⟨rfl, fun _ => rfl⟩, rfl⟩

theorem framed_payload {w : Writers ι} {i : ι} {buf : List UInt8} {rest : List (List UInt8)}
    (hi : Framed w) (hp : w.pending i = buf :: rest) :
    Framed { w with pending := Function.update w.pending i rest, wire := w.wire ++ buf } := by
  obtain ⟨whole, last, hbegun, hprogress, hwire⟩ := hi
  rcases hprogress with ⟨_, hnone⟩ | ⟨k, c, rfl, hdata, hk, hothers⟩
  · rw [hnone i] at hp
    cases hp
  · have hik : i = k := by
      by_contra hne
      rw [hothers i hne] at hp
      cases hp
    subst hik
    rw [hk] at hp
    cases hp
    have hnone : ∀ j, Function.update w.pending i [] j = [] := by
      intro j
      by_cases hji : j = i
      · rw [hji, Function.update_self]
      · rw [Function.update_of_ne hji]
        exact hothers j hji
    refine ⟨whole ++ [(i, c)], [], ?_, .inl ⟨rfl, hnone⟩, ?_⟩
    · rw [List.append_nil]
      exact hbegun
    · rw [hwire]
      simp [PacketCall.bytes_eq]

theorem framed_header {w : Writers ι} {i : ι} {c : PacketCall} {cs : List PacketCall}
    (hi : Framed w) (hnone : ∀ j, w.pending j = []) :
    Framed
      { todo := Function.update w.todo i cs
        pending := Function.update w.pending i c.payloadWrites
        wire := w.wire ++ c.packet.toBytes
        begun := w.begun ++ [(i, c)] } := by
  obtain ⟨whole, last, hbegun, hprogress, hwire⟩ := hi
  have hlast : last = [] := by
    rcases hprogress with ⟨hl, _⟩ | ⟨k, c', _, _, hk, _⟩
    · exact hl
    · rw [hnone k] at hk
      cases hk
  subst hlast
  rw [List.append_nil] at hbegun
  have hothers : ∀ j, j ≠ i → Function.update w.pending i c.payloadWrites j = [] := by
    intro j hji
    rw [Function.update_of_ne hji]
    exact hnone j
  by_cases hdata : c.data = []
  · refine ⟨whole ++ [(i, c)], [], by rw [hbegun, List.append_nil], .inl ⟨rfl, ?_⟩, ?_⟩
    · intro j
      by_cases hji : j = i
      · simp [hji, PacketCall.payloadWrites, hdata]
      · exact hothers j hji
    · simp [hwire, PacketCall.bytes_eq, hdata]
  · refine ⟨whole, [(i, c)], by rw [hbegun], .inr ⟨i, c, rfl, hdata, ?_, hothers⟩, ?_⟩
    · simp [PacketCall.payloadWrites, hdata]
    · simp [hwire]

theorem framed_step {w w' : Writers ι} {i : ι} (hi : Framed w) (hok : Alone w i)
    (h : step w i = some w') : Framed w' := by
  cases step_move h with
  | payload hp => exact framed_payload hi hp
  | header hp _ => exact framed_header hi (hok hp)

omit [DecidableEq ι] in
/-- The device reads the whole packets and waits for the payload of the last. -/
theorem parse_framed {w : Writers ι} {whole last : List (ι × PacketCall)} (hp : InProgress w last)
    (hfit : ∀ e ∈ whole ++ last, e.2.Fits) :
    packets.parse () (whole.flatMap (fun e => e.2.bytes) ++ last.flatMap fun e => e.2.packet.toBytes) =
      ⟨whole.map fun e => (e.2.packet, e.2.data), (),
        last.flatMap fun e => e.2.packet.toBytes, none⟩ := by
  have hwhole : ∀ c ∈ whole.map Prod.snd, c.Fits := by
    intro c hc
    obtain ⟨e, he, rfl⟩ := List.mem_map.mp hc
    exact hfit e (List.mem_append_left last he)
  have hwaits : readPacket (last.flatMap fun e => e.2.packet.toBytes) = .ok none := by
    rcases hp with ⟨rfl, _⟩ | ⟨i, c, rfl, hdata, _, _⟩
    · rfl
    · have hc : c.Fits := hfit (i, c) (by simp)
      rw [List.flatMap_singleton]
      apply PacketCall.readPacket_waits hc
      · exact ⟨c.data, (PacketCall.bytes_eq c).symm⟩
      · intro heq
        rw [PacketCall.bytes_eq] at heq
        exact hdata (List.self_eq_append_right.mp heq)
  obtain ⟨q, hq⟩ := (PacketCall.spelled hwhole).parse_then (last.flatMap fun e => e.2.packet.toBytes)
  rw [packets.parse_none hwaits] at hq
  simpa [Parse.after, List.flatMap, Function.comp_def] using hq

/-- **Concurrent writes.** In a run in which no packet is begun while another
is half written, the device receives whole packets, each caller's in its order,
and reads them. -/
theorem whole_packets (calls : ι → List PacketCall) (hfit : ∀ i, ∀ c ∈ calls i, c.Fits) {sched : List ι}
    {t : Writers ι} (h : run step (start calls) sched = some t)
    (hok : Meets step Alone (start calls) sched) : WholePackets calls t := by
  have horder : InOrder calls t :=
    run_preserves (fun w i w' hi hs => inOrder_step hi hs) h (inOrder_start calls)
  obtain ⟨whole, last, hbegun, hprogress, hwire⟩ :=
    run_invariant (fun w i w' hi hok hs => framed_step hi hok hs) h hok (framed_start calls)
  have hfits : ∀ e ∈ whole ++ last, e.2.Fits := by
    intro e he
    rw [← hbegun] at he
    exact hfit e.1 e.2 (horder.mem he)
  have hparse := parse_framed hprogress hfits
  rw [← hwire] at hparse
  refine ⟨whole, last, ?_, ?_, ?_, hwire, by rw [hparse], by rw [hparse]⟩
  · rw [← hbegun]
    exact horder
  · rcases hprogress with ⟨rfl, _⟩ | ⟨i, c, rfl, _⟩
    · exact Nat.zero_le 1
    · exact Nat.le_refl 1
  · intro hnone
    rcases hprogress with ⟨hl, _⟩ | ⟨i, c, _, _, hi, _⟩
    · exact hl
    · rw [hnone i] at hi
      cases hi

/-- A write of four bytes, and the reader's answer to a payload. -/
def pingAndOkay : Bool → List PacketCall
  | true => [⟨.wrte, 1, 9, [0x70, 0x69, 0x6e, 0x67]⟩]
  | false => [⟨.okay, 1, 9, []⟩]

theorem whole_packets_ping :
    ∃ t, run step (start pingAndOkay) [true, true, false] = some t ∧ WholePackets pingAndOkay t := by
  have hsome : (run step (start pingAndOkay) [true, true, false]).isSome = true := by decide +kernel
  obtain ⟨t, ht⟩ := Option.isSome_iff_exists.mp hsome
  exact ⟨t, ht, whole_packets pingAndOkay (by decide +kernel) ht (by decide +kernel)⟩

/-- The answer is written between the header and the payload of the write: the
device takes its first four bytes for the payload. -/
theorem header_splits_packet :
    ¬ ∀ (calls : Bool → List PacketCall) (sched : List Bool) (t : Writers Bool),
      (∀ i, ∀ c ∈ calls i, c.Fits) → run step (start calls) sched = some t → WholePackets calls t := by
  intro h
  have hrun : (run step (start pingAndOkay) [true, false, true]).map
      (fun t => (packets.parse () t.wire).err) = some (some (.protocol "checksum mismatch")) := by
    decide +kernel
  obtain ⟨t, ht, herr⟩ := Option.map_eq_some_iff.mp hrun
  obtain ⟨_, _, _, _, _, _, _, hnone⟩ := h pingAndOkay [true, false, true] t (by decide +kernel) ht
  rw [hnone] at herr
  cases herr

end Writers

end DroidMirror.Transport
