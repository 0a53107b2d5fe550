import Mathlib.Algebra.BigOperators.Group.List.Basic
import Mathlib.Algebra.GroupWithZero.Nat
import DroidMirror.Transport.Protocol

/-! # The packet codec in both directions

`Protocol` reads back what `write_packet` writes. Here the header is also taken
the other way (what `from_bytes` accepts is what `to_bytes` writes), and the
checksum is compared with the sum of the bytes: at the payload cap it does not
wrap, so one changed byte always changes it. -/
namespace DroidMirror.Transport
open DroidMirror.Lib.LittleEndian DroidMirror.Lib.Incremental

/-! ## The byte sum -/

def byteSum (data : List UInt8) : Nat := (data.map UInt8.toNat).sum

theorem byteSum_append (a b : List UInt8) : byteSum (a ++ b) = byteSum a + byteSum b := by
  simp [byteSum]

theorem byteSum_cons (x : UInt8) (b : List UInt8) : byteSum (x :: b) = x.toNat + byteSum b := by
  simp [byteSum]

theorem byteSum_le (data : List UInt8) : byteSum data ≤ 255 * data.length := by
  induction data with
  | nil => exact Nat.zero_le _
  | cons b data ih =>
    have hb : b.toNat < 256 := b.toNat_lt
    rw [byteSum_cons, List.length_cons]
    omega

theorem checksum_toNat (data : List UInt8) : (checksum data).toNat = byteSum data % 2 ^ 32 := by
  have hfold : ∀ acc : UInt32, (data.foldl (fun acc b => acc + b.toUInt32) acc).toNat =
      (acc.toNat + byteSum data) % 2 ^ 32 := by
    induction data with
    | nil =>
      intro acc
      exact (Nat.mod_eq_of_lt acc.toNat_lt).symm
    | cons b data ih =>
      intro acc
      rw [List.foldl_cons, ih, UInt32.toNat_add, UInt8.toNat_toUInt32, byteSum_cons, Nat.mod_add_mod,
        Nat.add_assoc]
  rw [checksum, hfold, UInt32.toNat_zero, Nat.zero_add]

/-- At the cap the sum stays below 2^30. -/
theorem checksum_exact {data : List UInt8} (h : data.length ≤ MAX_PAYLOAD.toNat) :
    (checksum data).toNat = byteSum data := by
  have hle := byteSum_le data
  rw [PacketCall.max_payload_toNat] at h
  rw [checksum_toNat, Nat.mod_eq_of_lt (by omega)]

theorem byteSum_set {data : List UInt8} {i : Nat} {y : UInt8} (hi : i < data.length)
    (hy : data[i]? ≠ some y) : byteSum (data.set i y) ≠ byteSum data := by
  have hsplit : data = data.take i ++ data[i] :: data.drop (i + 1) := by
    rw [← List.drop_eq_getElem_cons hi, List.take_append_drop]
  have hne : data[i].toNat ≠ y.toNat := by
    intro h
    rw [List.getElem?_eq_getElem hi] at hy
    exact hy (congrArg some (UInt8.toNat_inj.mp h))
  have hset : byteSum (data.set i y) = byteSum (data.take i) + (y.toNat + byteSum (data.drop (i + 1))) := by
    rw [List.set_eq_take_append_cons_drop, if_pos hi, byteSum_append, byteSum_cons]
  have hdata : byteSum data =
      byteSum (data.take i) + (data[i].toNat + byteSum (data.drop (i + 1))) := by
    rw [← byteSum_cons, ← byteSum_append, ← hsplit]
  omega

/-! ## Headers -/

theorem Command.toU32_fromU32 {v : UInt32} {c : Command} (h : fromU32 v = some c) : c.toU32 = v := by
  unfold fromU32 at h
  split at h
  all_goals
    cases h
    try rfl

namespace Packet

/-- The header names a command, and its last word is the complement of it. -/
def Marked (header : List UInt8) : Prop :=
  ∃ c : Command, readU32 (slice header 0 4) = c.toU32 ∧ readU32 (slice header 20 24) = ~~~ c.toU32

theorem complement_eq (v : UInt32) : v ^^^ 0xffffffff = ~~~ v := by
  apply UInt32.toBitVec_inj.mp
  exact BitVec.xor_allOnes

theorem fromBytes_ok {header : List UInt8} {p : Packet} (h : fromBytes header = .ok p) :
    p.command.toU32 = readU32 (slice header 0 4) ∧ p.arg0 = readU32 (slice header 4 8) ∧
      p.arg1 = readU32 (slice header 8 12) ∧ p.dataLength = readU32 (slice header 12 16) ∧
      p.dataCrc32 = readU32 (slice header 16 20) ∧ p.magic = readU32 (slice header 20 24) ∧
      p.magic = p.command.toU32 ^^^ 0xffffffff := by
  revert h
  fun_cases fromBytes header with
  | case4 hlen commandU command hc magic hmagic =>
    intro h
    cases h
    exact ⟨Command.toU32_fromU32 hc, rfl, rfl, rfl, rfl, rfl, not_not.mp hmagic⟩
  | _ =>
    intro h
    cases h

theorem fromBytes_ok_iff {header : List UInt8} (hlen : header.length = 24) :
    (∃ p, fromBytes header = .ok p) ↔ Marked header := by
  constructor
  · intro ⟨p, hp⟩
    obtain ⟨hc, _, _, _, _, hm, hmagic⟩ := fromBytes_ok hp
    exact ⟨p.command, hc.symm, by rw [← hm, hmagic, complement_eq]⟩
  · intro ⟨c, hc, hm⟩
    unfold fromBytes
    simp only [hlen, hc, hm, Command.fromU32_toU32, complement_eq]
    rw [if_neg (by decide), if_neg (not_not.mpr rfl)]
    exact ⟨_, rfl⟩

/-- What is accepted is written back unchanged. -/
theorem toBytes_fromBytes {header : List UInt8} (hlen : header.length = 24) {p : Packet}
    (h : fromBytes header = .ok p) : p.toBytes = header := by
  obtain ⟨hc, h0, h1, hl, hs, hm, _⟩ := fromBytes_ok h
  have hword : ∀ i, i + 4 ≤ 24 → leU32 (readU32 (slice header i (i + 4))) = slice header i (i + 4) :=
    fun i hi => leU32_slice (by omega)
  rw [toBytes, hc, h0, h1, hl, hs, hm, hword 0 (by decide), hword 4 (by decide), hword 8 (by decide),
    hword 12 (by decide), hword 16 (by decide), hword 20 (by decide),
    slice_glue header (by decide) (by decide), slice_glue header (by decide) (by decide),
    slice_glue header (by decide) (by decide), slice_glue header (by decide) (by decide),
    slice_glue header (by decide) (by decide), slice_all (Nat.le_of_eq hlen)]

end Packet

/-! ## Payloads -/

/-- What `read_packet` did to return a packet. -/
theorem readPacket_ok {buf data : List UInt8} {p : Packet} {n : Nat}
    (h : readPacket buf = .ok (some ((p, data), n))) :
    24 ≤ buf.length ∧ Packet.fromBytes (slice buf 0 24) = .ok p ∧ p.dataLength ≤ MAX_PAYLOAD ∧
      n = 24 + p.dataLength.toNat ∧ n ≤ buf.length ∧ data = slice buf 24 n ∧
      (p.dataLength > 0 → p.dataCrc32 ≠ 0 → p.dataCrc32 = checksum data) := by
  revert h
  fun_cases readPacket buf with
  | case6 h24 pkt hpkt hcap total hfull data' hcrc =>
    intro h
    obtain ⟨hread, rfl⟩ := Prod.mk.inj (Option.some.inj (Except.ok.inj h))
    obtain ⟨rfl, rfl⟩ := Prod.mk.inj hread
    refine ⟨Nat.le_of_not_lt h24, hpkt, UInt32.not_lt.mp hcap, rfl, Nat.le_of_not_lt hfull, rfl, ?_⟩
    intro hpos hne
    by_cases heq : pkt.dataCrc32 = checksum data'
    · exact heq
    · exact absurd ⟨hpos, hne, heq⟩ hcrc
  | _ =>
    intro h
    cases h

theorem readPacket_ok_length {buf data : List UInt8} {p : Packet} {n : Nat}
    (h : readPacket buf = .ok (some ((p, data), n))) :
    data.length = p.dataLength.toNat ∧ data.length ≤ MAX_PAYLOAD.toNat := by
  obtain ⟨_, _, hcap, hn, hle, rfl, _⟩ := readPacket_ok h
  have hcap := UInt32.le_iff_toNat_le.mp hcap
  rw [length_slice]
  omega

/-- A payload that is there has the sum its header names, if it names one. -/
theorem readPacket_sum {buf data : List UInt8} {p : Packet} {n : Nat}
    (h : readPacket buf = .ok (some ((p, data), n))) (hne : data ≠ []) (hcrc : p.dataCrc32 ≠ 0) :
    byteSum data = p.dataCrc32.toNat := by
  obtain ⟨hlen, hfits⟩ := readPacket_ok_length h
  obtain ⟨_, _, _, _, _, _, hsum⟩ := readPacket_ok h
  have hpos : p.dataLength > 0 := by
    have hdata := List.length_pos_iff.mpr hne
    rw [gt_iff_lt, UInt32.lt_iff_toNat_lt]
    exact hlen ▸ hdata
  rw [hsum hpos hcrc, checksum_exact hfits]

/-- One changed byte is found out. -/
theorem readPacket_corrupted {buf data : List UInt8} {p : Packet} {n i : Nat} {y : UInt8}
    (h : readPacket buf = .ok (some ((p, data), n))) (hcrc : p.dataCrc32 ≠ 0) (hi : 24 ≤ i) (hn : i < n)
    (hy : buf[i]? ≠ some y) :
    readPacket (buf.set i y) = .error (.protocol "checksum mismatch") := by
  obtain ⟨h24, hp, hcap, htotal, hle, hdata, hsum⟩ := readPacket_ok h
  obtain ⟨hlen, hfits⟩ := readPacket_ok_length h
  have hpos : p.dataLength > 0 := by
    rw [gt_iff_lt, UInt32.lt_iff_toNat_lt, UInt32.toNat_zero]
    omega
  have hhead : slice (buf.set i y) 0 24 = slice buf 0 24 := slice_set_before hi
  have hbody : slice (buf.set i y) 24 n = data.set (i - 24) y := by rw [slice_set hi, ← hdata]
  have hat : data[i - 24]? = buf[i]? := by
    rw [hdata, slice, List.getElem?_take_of_lt (by omega), List.getElem?_drop]
    congr 1
    omega
  have hwrong : p.dataCrc32 ≠ checksum (data.set (i - 24) y) := by
    intro heq
    have hsame := congrArg UInt32.toNat ((hsum hpos hcrc).symm.trans heq)
    rw [checksum_exact hfits, checksum_exact (by rwa [List.length_set])] at hsame
    exact byteSum_set (by omega) (hat ▸ hy) hsame.symm
  unfold readPacket
  simp only [List.length_set, hhead, hp, ← htotal, hbody]
  rw [if_neg (by omega), if_neg (UInt32.not_lt.mpr hcap), if_neg (by omega),
    if_pos ⟨hpos, hcrc, hwrong⟩]

/-! ## The codec -/

/-- The arguments of the call that a packet read back comes from. -/
def PacketCall.received (read : Packet × List UInt8) : PacketCall :=
  ⟨read.1.command, read.1.arg0, read.1.arg1, read.2⟩

/-- Packets written one after another are read back, a header is accepted
exactly if it is one that is written, and a payload whose header names its sum
is returned with that sum only. -/
theorem packet_codec :
    (∀ calls : List PacketCall, (∀ c ∈ calls, c.Fits) →
      let read := packets.parse () (calls.map PacketCall.bytes).flatten
      read.items = calls.map (fun c => (c.packet, c.data)) ∧
        read.items.map PacketCall.received = calls ∧ read.rest = [] ∧ read.err = none) ∧
    (∀ header : List UInt8, header.length = 24 →
      ((∃ p, Packet.fromBytes header = .ok p) ↔ Packet.Marked header) ∧
        ∀ p, Packet.fromBytes header = .ok p → p.toBytes = header) ∧
    (∀ buf p data n, readPacket buf = .ok (some ((p, data), n)) → p.dataCrc32 ≠ 0 → data ≠ [] →
      byteSum data = p.dataCrc32.toNat) ∧
    ∀ buf p data n i y, readPacket buf = .ok (some ((p, data), n)) → p.dataCrc32 ≠ 0 → 24 ≤ i → i < n →
      buf[i]? ≠ some y → readPacket (buf.set i y) = .error (.protocol "checksum mismatch") := by
  refine ⟨?_, ?_, ?_, ?_⟩
  · intro calls hfits
    have hspelled := (PacketCall.spelled hfits).parse fun _ => rfl
    simp only [List.map_map, Function.comp_def] at hspelled
    obtain ⟨hitems, hrest, herr⟩ := hspelled
    refine ⟨hitems, ?_, hrest, herr⟩
    rw [hitems, List.map_map]
    exact List.map_id calls
  · intro header hlen
    exact ⟨Packet.fromBytes_ok_iff hlen, fun p hp => Packet.toBytes_fromBytes hlen hp⟩
  · intro buf p data n h hcrc hne
    exact readPacket_sum h hne hcrc
  · intro buf p data n i y h hcrc hi hn hy
    exact readPacket_corrupted h hcrc hi hn hy

/-- A packet without payload is returned whatever sum its header names. -/
theorem packet_codec_no_payload :
    ¬ ∀ buf p data n, readPacket buf = .ok (some ((p, data), n)) → p.dataCrc32 ≠ 0 →
      byteSum data = p.dataCrc32.toNat := by
  intro h
  let p : Packet := ⟨.okay, 1, 1, 0, 7, Command.okay.toU32 ^^^ 0xffffffff⟩
  have hread : readPacket p.toBytes = .ok (some ((p, []), 24)) := by decide
  have hsum := h _ _ _ _ hread (by decide)
  cases hsum

end DroidMirror.Transport
