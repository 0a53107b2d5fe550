import Mathlib.Data.List.Induction
import DroidMirror.Server.Control

/-! # What the readers hold back

Two readers buffer what they cannot decode yet: the client of the video stream
and the demux of the control stream. Whatever the cuts, the buffer is what the
items taken leave of the bytes fed (`Grammar.Holds`), so it is shorter than the
one item it waits for; a bad item empties it. -/
namespace DroidMirror
open DroidMirror.Proto DroidMirror.Lib.Incremental

/-! ## The client -/

namespace Client

/-- What a client that was fed the bytes `fed` and gave the events `out` keeps. -/
structure Keeps (fed : List UInt8) (c : Client) (out : List Out) : Prop where
  suffix : c.buf <:+ fed
  short : c.buf.length < 4 + MAX_FRAME_LEN.toNat
  waiting : c.handshake = false → c.buf.length < 65806
  noHandshake : c.handshake = false → ∀ s, s <+: c.buf → tryDecodeHandshake s = .ok none
  noFrame : c.handshake = true → ∀ s, s <+: c.buf → tryDecodeFrame s = .ok none
  fatal_iff : c.fatal = true ↔ (wire.parse false fed).err ≠ none
  failed : c.fatal = true → c.buf = []
  held : c.fatal = false →
    ∃ is, wire.Holds false fed is c.handshake c.buf ∧ out = (replay new is).2

/-- The client waits when the decoder of its phase does. -/
theorem waits_of_map {α β : Type} {f : α → β} {x : Except ProtoError (Option α)}
    (h : x.map (Option.map f) = .ok none) : x = .ok none := by
  cases x with
  | error e => cases h
  | ok o =>
    cases o with
    | none => rfl
    | some a => cases h

/-- The limits follow from the buffer being held back. -/
theorem Keeps.of_holds {fed : List UInt8} {c : Client} {out : List Out} {is : List Item}
    (h : wire.Holds false fed is c.handshake c.buf) (hf : c.fatal = false)
    (herr : (wire.parse false fed).err = none) (hout : out = (replay new is).2) :
    Keeps fed c out := by
  have hmax := max_frame_len_toNat
  have hhandshake : c.handshake = false → ∀ s, s <+: c.buf → tryDecodeHandshake s = .ok none :=
    fun hc s hs => waits_of_map ((wire_handshake rfl).symm.trans (hc ▸ h.waits s hs))
  have hframe : c.handshake = true → ∀ s, s <+: c.buf → tryDecodeFrame s = .ok none :=
    fun hc s hs => waits_of_map ((wire_frame rfl).symm.trans (hc ▸ h.waits s hs))
  have hwaiting : c.handshake = false → c.buf.length < 65806 :=
    fun hc => length_lt_of_waits_handshake (hhandshake hc _ List.prefix_rfl)
  refine ⟨h.reads.suffix, ?_, hwaiting, hhandshake, hframe, ?_, ?_, fun _ => ⟨is, h, hout⟩⟩
  · cases hc : c.handshake with
    | false =>
      have := hwaiting hc
      omega
    | true => exact length_lt_of_waits (hframe hc _ List.prefix_rfl)
  · simp [hf, herr]
  · intro hfatal
    rw [hf] at hfatal
    cases hfatal

/-- After a bad item nothing is kept. -/
theorem Keeps.of_fatal {c : Client} {fed : List UInt8} (out : List Out) (hb : c.buf = [])
    (hf : c.fatal = true) (herr : (wire.parse false fed).err ≠ none) : Keeps fed c out := by
  have hmax := max_frame_len_toNat
  refine ⟨?_, ?_, ?_, ?_, ?_, iff_of_true hf herr, fun _ => hb, ?_⟩ <;> rw [hb]
  · exact List.nil_suffix
  · show 0 < 4 + MAX_FRAME_LEN.toNat
    omega
  · intro _
    show 0 < 65806
    omega
  · intro _ s hs
    rw [List.prefix_nil.mp hs]
    rfl
  · intro _ s hs
    rw [List.prefix_nil.mp hs]
    rfl
  · intro hc
    rw [hf] at hc
    cases hc

theorem feed_keeps (chunks : List (List UInt8)) :
    Keeps chunks.flatten (feed new chunks).1 (feed new chunks).2 := by
  rw [feed_new]
  generalize chunks.flatten = b
  unfold conclude
  cases he : (wire.parse false b).err with
  | some e => exact .of_fatal _ rfl rfl (by rw [he]; exact Option.some_ne_none e)
  | none =>
    have hphase := replay_phase (p := false) (b := b) new rfl
    have hholds : wire.Holds false b (wire.parse false b).items
        (replay new (wire.parse false b).items).1.handshake (wire.parse false b).rest :=
      hphase ▸ (wire.holds_nil (p := false) rfl).parse (s := b) he
    exact .of_holds hholds (replay_frame new _).1 he rfl

end Client

/-! ## The demux -/

namespace ControlDemux
variable (F : Type) [F32 F]

theorem pushAll_concat (chunks : List (List UInt8)) (chunk : List UInt8) : ∀ d : ControlDemux,
    pushAll F d (chunks ++ [chunk]) =
      ((push F (pushAll F d chunks).1 chunk).1,
        (pushAll F d chunks).2.1 ++ (push F (pushAll F d chunks).1 chunk).2.1,
        (pushAll F d chunks).2.2 ++ [(push F (pushAll F d chunks).1 chunk).2.2]) := by
  induction chunks with
  | nil => intro d; simp [pushAll]
  | cons c rest ih => intro d; simp only [List.cons_append, pushAll, ih, List.append_assoc]

/-- What the demux holds of the chunks `after` since its last error: the frames `is` were
applied, and the rest is in the buffer. -/
structure Held (before after : List (List UInt8)) (is : List Message)
    (r : ControlDemux × List Call × List (Except String Unit)) : Prop where
  since : before = [] ∨ ∃ e, (pushAll F new before).2.2.getLast? = some (.error e)
  calls : r.2.1 = (pushAll F new before).2.1 ++ is.flatMap (applyMessage F)
  results : r.2.2 = (pushAll F new before).2.2 ++ after.map fun _ => .ok ()
  holds : frames.Holds () after.flatten is () r.1.buf

/-- A push that ends in an error starts over with nothing held. -/
theorem held_error {chunks : List (List UInt8)} {chunk : List UInt8} {e : ProtoError}
    (he : (frames.parse () ((pushAll F new chunks).1.buf ++ chunk)).err = some e) :
    Held F (chunks ++ [chunk]) [] [] (pushAll F new (chunks ++ [chunk])) := by
  have hpush := push_error F he
  refine ⟨.inr ⟨e.toString, ?_⟩, (List.append_nil _).symm, (List.append_nil _).symm, ?_⟩
  · rw [pushAll_concat, hpush, List.getLast?_concat]
  · rw [pushAll_concat, hpush]
    exact frames.holds_nil rfl

/-- A push without an error takes the frames that are whole now. -/
theorem held_ok {before after : List (List UInt8)} {is : List Message} {chunk : List UInt8}
    (h : Held F before after is (pushAll F new (before ++ after)))
    (he : (frames.parse () ((pushAll F new (before ++ after)).1.buf ++ chunk)).err = none) :
    Held F before (after ++ [chunk])
      (is ++ (frames.parse () ((pushAll F new (before ++ after)).1.buf ++ chunk)).items)
      (pushAll F new (before ++ after ++ [chunk])) := by
  have hpush := push_ok F he
  refine ⟨h.since, ?_, ?_, ?_⟩
  · rw [pushAll_concat, hpush, h.calls, List.flatMap_append, List.append_assoc]
  · rw [pushAll_concat, hpush, h.results, List.map_append, List.append_assoc]
    rfl
  · rw [pushAll_concat, hpush, List.flatten_concat]
    exact h.holds.parse he

theorem pushAll_held (chunks : List (List UInt8)) :
    ∃ before after is, chunks = before ++ after ∧ Held F before after is (pushAll F new chunks) := by
  induction chunks using List.reverseRecOn with
  | nil => exact ⟨[], [], [], rfl, .inl rfl, rfl, rfl, frames.holds_nil rfl⟩
  | append_singleton chunks chunk ih =>
    obtain ⟨before, after, is, rfl, h⟩ := ih
    cases he : (frames.parse () ((pushAll F new (before ++ after)).1.buf ++ chunk)).err with
    | some e => exact ⟨_, [], [], (List.append_nil _).symm, held_error F he⟩
    | none => exact ⟨before, _, _, List.append_assoc _ _ _, held_ok F h he⟩

/-- What a demux that was pushed the chunks keeps; `r` is the demux, the calls it made and what
each push returned. -/
structure Keeps (chunks : List (List UInt8))
    (r : ControlDemux × List Call × List (Except String Unit)) : Prop where
  suffix : r.1.buf <:+ chunks.flatten
  short : r.1.buf.length < 4 + MAX_FRAME_LEN.toNat
  noFrame : ∀ s, s <+: r.1.buf → tryDecodeFrame s = .ok none
  failed : ∀ e, r.2.2.getLast? = some (.error e) → r.1.buf = []
  held : ∃ before after is, chunks = before ++ after ∧ Held F before after is r

theorem pushAll_keeps (chunks : List (List UInt8)) : Keeps F chunks (pushAll F new chunks) := by
  obtain ⟨before, after, is, rfl, h⟩ := pushAll_held F chunks
  have hsuffix := h.holds.reads.suffix
  refine ⟨?_, length_lt_of_waits h.holds.decode, h.holds.waits, ?_, before, after, is, rfl, h⟩
  · rw [List.flatten_append]
    exact hsuffix.trans (List.suffix_append _ _)
  · intro e he
    -- a push after the last error returned `Ok`, so there was none
    rw [h.results] at he
    cases after using List.reverseRecOn with
    | nil => exact List.suffix_nil.mp hsuffix
    | append_singleton after chunk =>
      rw [List.map_append, List.map_singleton, ← List.append_assoc, List.getLast?_concat] at he
      cases he

end ControlDemux

/-- **Buffering is bounded.** After any chunks, the client and the demux keep an end part of what
they were fed that no item stands whole in front of, shorter than the longest item, and nothing
after an error. -/
theorem readers_keep (F : Type) [F32 F] (chunks : List (List UInt8)) :
    Client.Keeps chunks.flatten (Client.feed Client.new chunks).1 (Client.feed Client.new chunks).2 ∧
      ControlDemux.Keeps F chunks (ControlDemux.pushAll F ControlDemux.new chunks) :=
  ⟨Client.feed_keeps chunks, ControlDemux.pushAll_keeps F chunks⟩

end DroidMirror
