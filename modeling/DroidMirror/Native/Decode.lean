import Mathlib.Data.List.Induction
import DroidMirror.Native.Scan
import DroidMirror.Proto.Message

/-! # The decoder

`OpenH264Decoder` in `crates/native/src/decode.rs`. What OpenH264 answers comes
with each call: whether a decoder can be created and what it makes of the packet
it is passed. A turn says which packets were passed and to which of the
decoders created so far. -/
namespace DroidMirror.Native
open DroidMirror.Proto

structure RgbaFrame where
  width : UInt32
  height : UInt32
  rgba : List UInt8
  deriving DecidableEq

/-- What a decoder makes of a packet. -/
inductive Decoded where
  | picture (w h : Nat) (rgba : List UInt8)
  | nothing
  | error (text : String)
  deriving DecidableEq

/-- A call of `Decode`. `created` and `again` answer the creations of a decoder,
`decoded` answers the packet. -/
inductive DecodeCall where
  | configure (codec : Codec) (csd : List UInt8) (created : Except String Unit) (decoded : Decoded)
    (again : Except String Unit)
  | decode (nal : List UInt8) (keyframe : Bool) (created : Except String Unit) (decoded : Decoded)

structure OpenH264Decoder where
  /-- The decoder in use: the how-manieth that was created. -/
  inner : Option Nat
  codec : Option Codec
  /-- Annex-B SPS/PPS from the last configure. Prepended to an IDR that does
  not already carry parameter sets. -/
  csd : List UInt8
  /-- After a bitstream error, ignore slices until the next IDR. -/
  waitIdr : Bool
  loggedFail : Bool
  /-- How many decoders were created. -/
  made : Nat
  deriving DecidableEq

/-- The outcome of a call. The unit that `configure` returns is `none` here. -/
structure DecodeTurn where
  dec : OpenH264Decoder
  result : Except String (Option RgbaFrame)
  passed : List (Nat × List UInt8)

inductive DecodeStep where
  | frame (f : RgbaFrame)
  | empty
  | failed (text : String)

/-- A picture without extent is none. -/
def DecodeStep.of : Decoded → DecodeStep
  | .picture w h rgba => if w = 0 ∨ h = 0 then .empty else .frame ⟨.ofNat w, .ofNat h, rgba⟩
  | .nothing => .empty
  | .error text => .failed text

namespace OpenH264Decoder

def new : OpenH264Decoder :=
  { inner := none, codec := none, csd := [], waitIdr := false, loggedFail := false, made := 0 }

/-- `inner = Some(Decoder::new()?)`, where the creation succeeds. -/
def renew (d : OpenH264Decoder) : OpenH264Decoder := { d with inner := some d.made, made := d.made + 1 }

/-- The decoder in use, created if there is none. -/
def decoder (d : OpenH264Decoder) (created : Except String Unit) :
    Except String (Nat × OpenH264Decoder) :=
  match d.inner with
  | some n => .ok (n, d)
  | none =>
    match created with
    | .ok () => .ok (d.made, d.renew)
    | .error e => .error e

def configure (d : OpenH264Decoder) (codec : Codec) (csd : List UInt8) (created : Except String Unit)
    (decoded : Decoded) (again : Except String Unit) : DecodeTurn :=
  if codec ≠ .h264 then
    ⟨d, .error "H.265 decode is not in the default build (openh264 is H.264 only)", []⟩
  else
    let d := { d with codec := some codec, csd, waitIdr := false, loggedFail := false }
    match created with
    | .error e => ⟨d, .error e, []⟩
    | .ok () =>
      if csd.isEmpty then ⟨d.renew, .ok none, []⟩
      else
        match decoded with
        | .error _ =>
          match again with
          | .error e => ⟨d.renew, .error e, [(d.made, csd)]⟩
          | .ok () => ⟨d.renew.renew, .ok none, [(d.made, csd)]⟩
        | .picture _ _ _ | .nothing => ⟨d.renew, .ok none, [(d.made, csd)]⟩

/-- The packet of a frame: an IDR without parameter sets gets the last ones. -/
def packet (d : OpenH264Decoder) (nal : List UInt8) (idr : Bool) : List UInt8 :=
  if idr && !Decode.containsSps nal && !d.csd.isEmpty then d.csd ++ nal else nal

/-- What a step leaves and returns. -/
def conclude (d : OpenH264Decoder) : DecodeStep → OpenH264Decoder × Option RgbaFrame
  | .frame f => ({ d with waitIdr := false, loggedFail := false }, some f)
  | .empty => (d, none)
  | .failed _ => ({ d with inner := none, waitIdr := true, loggedFail := true }, none)

def decode (d : OpenH264Decoder) (nal : List UInt8) (keyframe : Bool) (created : Except String Unit)
    (decoded : Decoded) : DecodeTurn :=
  if d.codec = some .h265 then ⟨d, .error "H.265 frame", []⟩
  else
    let idr := keyframe || Decode.containsIdr nal
    if d.waitIdr && !idr then ⟨d, .ok none, []⟩
    else
      match d.decoder created with
      | .error e => ⟨d, .error e, []⟩
      | .ok (n, d') =>
        let r := d'.conclude (.of decoded)
        ⟨r.1, .ok r.2, [(n, d.packet nal idr)]⟩

def turn (d : OpenH264Decoder) : DecodeCall → DecodeTurn
  | .configure codec csd created decoded again => d.configure codec csd created decoded again
  | .decode nal keyframe created decoded => d.decode nal keyframe created decoded

/-- The decoder after a sequence of calls. -/
def after (d : OpenH264Decoder) (calls : List DecodeCall) : OpenH264Decoder :=
  calls.foldl (fun d c => (d.turn c).dec) d

@[simp] theorem after_nil (d : OpenH264Decoder) : d.after [] = d := rfl

theorem after_append (d : OpenH264Decoder) (as bs : List DecodeCall) :
    d.after (as ++ bs) = (d.after as).after bs := List.foldl_append

theorem after_snoc (d : OpenH264Decoder) (as : List DecodeCall) (c : DecodeCall) :
    d.after (as ++ [c]) = ((d.after as).turn c).dec := after_append d as [c]

@[simp] theorem renew_csd (d : OpenH264Decoder) : d.renew.csd = d.csd := rfl
@[simp] theorem renew_codec (d : OpenH264Decoder) : d.renew.codec = d.codec := rfl
@[simp] theorem renew_waitIdr (d : OpenH264Decoder) : d.renew.waitIdr = d.waitIdr := rfl

/-! ## What a call does -/

/-- What `decode` did: nothing, or it passed the frame's packet to a decoder. -/
inductive Decoding (d : OpenH264Decoder) (nal : List UInt8) (keyframe : Bool)
    (created : Except String Unit) (decoded : Decoded) : DecodeTurn → Prop
  | refused (hcodec : d.codec = some .h265) :
      Decoding d nal keyframe created decoded ⟨d, .error "H.265 frame", []⟩
  | waited (hcodec : d.codec ≠ some .h265) (hwait : d.waitIdr = true) (hkey : keyframe = false)
      (hidr : ¬ Carries nal 5) : Decoding d nal keyframe created decoded ⟨d, .ok none, []⟩
  | stuck {e} (hcodec : d.codec ≠ some .h265)
      (hidr : d.waitIdr = true → keyframe = true ∨ Carries nal 5) (hinner : d.inner = none)
      (hcreated : created = .error e) : Decoding d nal keyframe created decoded ⟨d, .error e, []⟩
  | passed {n d'} (hcodec : d.codec ≠ some .h265)
      (hidr : d.waitIdr = true → keyframe = true ∨ Carries nal 5) (hdec : d.decoder created = .ok (n, d')) :
      Decoding d nal keyframe created decoded
        ⟨(d'.conclude (.of decoded)).1, .ok (d'.conclude (.of decoded)).2,
          [(n, d.packet nal (keyframe || Decode.containsIdr nal))]⟩

theorem decoding (d : OpenH264Decoder) (nal : List UInt8) (keyframe : Bool)
    (created : Except String Unit) (decoded : Decoded) :
    Decoding d nal keyframe created decoded (d.decode nal keyframe created decoded) := by
  unfold decode
  by_cases hcodec : d.codec = some .h265
  · rw [if_pos hcodec]
    exact .refused hcodec
  · rw [if_neg hcodec]
    by_cases hdrop : (d.waitIdr && !(keyframe || Decode.containsIdr nal)) = true
    · simp only [if_pos hdrop]
      simp only [Bool.and_eq_true, Bool.not_eq_true', Bool.or_eq_false_iff] at hdrop
      obtain ⟨hwait, hkey, hidr⟩ := hdrop
      refine .waited hcodec hwait hkey ?_
      rw [← Decode.containsIdr_iff, hidr]
      exact Bool.false_ne_true
    · simp only [if_neg hdrop]
      have hidr : d.waitIdr = true → keyframe = true ∨ Carries nal 5 := by
        intro hwait
        rw [← Decode.containsIdr_iff, ← Bool.or_eq_true]
        rw [hwait, Bool.true_and, Bool.not_eq_true', Bool.not_eq_false] at hdrop
        exact hdrop
      cases hdec : d.decoder created with
      | ok r => exact .passed hcodec hidr hdec
      | error e =>
        unfold decoder at hdec
        split at hdec
        · cases hdec
        · rename_i hinner
          split at hdec
          · cases hdec
          · cases hdec
            exact .stuck hcodec hidr hinner rfl

/-- The decoder a packet goes to is the one in use, or a new one. -/
theorem decoder_ok {d d' : OpenH264Decoder} {created : Except String Unit} {n : Nat}
    (h : d.decoder created = .ok (n, d')) :
    (d.inner = some n ∧ d' = d) ∨ (d.inner = none ∧ n = d.made ∧ d' = d.renew) := by
  unfold decoder at h
  split at h
  · rename_i hinner
    cases h
    exact .inl ⟨hinner, rfl⟩
  · rename_i hinner
    split at h
    · cases h
      exact .inr ⟨hinner, rfl, rfl⟩
    · cases h

/-- Only H.264 is ever configured. -/
theorem configure_codec (d : OpenH264Decoder) (codec : Codec) (csd : List UInt8)
    (created : Except String Unit) (decoded : Decoded) (again : Except String Unit) :
    (d.configure codec csd created decoded again).dec.codec = if codec = .h264 then some .h264 else d.codec := by
  by_cases hcodec : codec = .h264
  · subst hcodec
    unfold configure
    rw [if_neg (not_not.mpr rfl), if_pos rfl]
    simp only
    split
    · rfl
    · split
      · rfl
      · split
        · split <;> rfl
        · rfl
        · rfl
  · rw [configure, if_pos hcodec, if_neg hcodec]

theorem decoder_kept {d d' : OpenH264Decoder} {created : Except String Unit} {n : Nat}
    (h : d.decoder created = .ok (n, d')) : d'.codec = d.codec ∧ d'.csd = d.csd ∧ d'.waitIdr = d.waitIdr := by
  rcases decoder_ok h with ⟨_, rfl⟩ | ⟨_, _, rfl⟩
  · exact ⟨rfl, rfl, rfl⟩
  · exact ⟨rfl, rfl, rfl⟩

theorem conclude_kept (d : OpenH264Decoder) (step : DecodeStep) :
    (d.conclude step).1.codec = d.codec ∧ (d.conclude step).1.csd = d.csd := by
  cases step <;> exact ⟨rfl, rfl⟩

/-- A frame changes neither the codec nor the parameter sets. -/
theorem decode_kept (d : OpenH264Decoder) (nal : List UInt8) (keyframe : Bool)
    (created : Except String Unit) (decoded : Decoded) :
    (d.decode nal keyframe created decoded).dec.codec = d.codec ∧
      (d.decode nal keyframe created decoded).dec.csd = d.csd := by
  have hd := decoding d nal keyframe created decoded
  generalize d.decode nal keyframe created decoded = r at hd ⊢
  cases hd with
  | refused | waited | stuck => exact ⟨rfl, rfl⟩
  | @passed n d' _ _ hdec =>
    obtain ⟨hcodec, hcsd⟩ := conclude_kept d' (.of decoded)
    obtain ⟨hcodec', hcsd', _⟩ := decoder_kept hdec
    exact ⟨hcodec.trans hcodec', hcsd.trans hcsd'⟩

/-! ## H.265 -/

/-- The codec field never says H.265, so the test of it in `decode` never fires. -/
theorem codec_ne_h265 (calls : List DecodeCall) : (new.after calls).codec ≠ some .h265 := by
  induction calls using List.reverseRecOn with
  | nil => simp [new]
  | append_singleton calls c ih =>
    rw [after_snoc]
    cases c with
    | configure codec csd created decoded again =>
      rw [turn, configure_codec]
      split
      · exact fun h => by cases h
      · exact ih
    | decode nal keyframe created decoded =>
      rw [turn, (decode_kept ..).1]
      exact ih

/-- What `decode` refuses: with the codec field as it is, only a frame for which
a decoder is wanted and cannot be created. -/
theorem decode_refuses_iff {d : OpenH264Decoder} (hcodec : d.codec ≠ some .h265) (nal : List UInt8)
    (keyframe : Bool) (created : Except String Unit) (decoded : Decoded) :
    ((∃ e, (d.decode nal keyframe created decoded).result = .error e) ∧
      (d.decode nal keyframe created decoded).passed = []) ↔
    d.inner = none ∧ (∃ e, created = .error e) ∧
      (d.waitIdr = true → keyframe = true ∨ Carries nal 5) := by
  have hd := decoding d nal keyframe created decoded
  generalize d.decode nal keyframe created decoded = r at hd ⊢
  cases hd with
  | refused h => exact absurd h hcodec
  | waited _ hwait hkey hidr =>
    refine iff_of_false ?_ ?_
    · rintro ⟨⟨e, he⟩, _⟩
      cases he
    · rintro ⟨_, _, hpass⟩
      rcases hpass hwait with hk | hc
      · rw [hkey] at hk
        cases hk
      · exact hidr hc
  | stuck _ hidr hinner hcreated =>
    exact iff_of_true ⟨⟨_, rfl⟩, rfl⟩ ⟨hinner, ⟨_, hcreated⟩, hidr⟩
  | passed _ _ hdec =>
    refine iff_of_false ?_ ?_
    · rintro ⟨⟨e, he⟩, _⟩
      cases he
    · rintro ⟨hinner, ⟨e, rfl⟩, _⟩
      simp [decoder, hinner] at hdec

end OpenH264Decoder

/-! ## Histories -/

/-- The codec a `configure` announces. -/
def DecodeCall.announces : DecodeCall → Option Codec
  | .configure codec _ _ _ _ => some codec
  | .decode _ _ _ _ => none

/-- What the most recent configure announced. -/
def announced (calls : List DecodeCall) : Option Codec := (calls.filterMap DecodeCall.announces).getLast?

namespace OpenH264Decoder

/-- While H.265 is announced every frame is refused, and packets go to OpenH264
again only after H.264 was configured. -/
def RefusesH265 (calls : List DecodeCall) : Prop :=
  (∀ before nal keyframe created decoded rest,
    calls = before ++ .decode nal keyframe created decoded :: rest → announced before = some .h265 →
      let r := (new.after before).decode nal keyframe created decoded
      (∃ e, r.result = .error e) ∧ r.passed = []) ∧
  ∀ before csd created decoded again between nal keyframe created' decoded' rest,
    calls = before ++ .configure .h265 csd created decoded again ::
      (between ++ .decode nal keyframe created' decoded' :: rest) →
    ((new.after (before ++ .configure .h265 csd created decoded again :: between)).decode nal keyframe
      created' decoded').passed ≠ [] → ∃ c ∈ between, c.announces = some .h264

/-- No frame comes while H.265 is announced, unless there is no decoder, none
can be created and the frame is not one to be dropped. -/
def NoH265Frame (calls : List DecodeCall) : Prop :=
  ∀ before nal keyframe created decoded rest,
    calls = before ++ .decode nal keyframe created decoded :: rest → announced before = some .h265 →
      (new.after before).inner = none ∧ (∃ e, created = .error e) ∧
        ((new.after before).waitIdr = true → keyframe = true ∨ Carries nal 5)

/-- The last announcement is H.265 if no other one follows it. -/
theorem announced_h265 (before : List DecodeCall) {between : List DecodeCall} (csd : List UInt8)
    (created : Except String Unit) (decoded : Decoded) (again : Except String Unit)
    (h : ∀ c ∈ between, c.announces ≠ some .h264) :
    announced (before ++ .configure .h265 csd created decoded again :: between) = some .h265 := by
  have hcons : (DecodeCall.configure .h265 csd created decoded again :: between).filterMap
      DecodeCall.announces = .h265 :: between.filterMap DecodeCall.announces := rfl
  rw [announced, List.filterMap_append, hcons, List.getLast?_append, List.getLast?_cons]
  cases hlast : (between.filterMap DecodeCall.announces).getLast? with
  | none => rfl
  | some codec =>
    obtain ⟨c, hc, hcodec⟩ := List.mem_filterMap.mp (List.mem_of_getLast? hlast)
    cases codec with
    | h264 => exact absurd hcodec (h c hc)
    | h265 => rfl

theorem refuses_h265_iff (calls : List DecodeCall) : RefusesH265 calls ↔ NoH265Frame calls := by
  constructor
  · rintro ⟨hrefused, _⟩ before nal keyframe created decoded rest hcalls hlast
    exact (decode_refuses_iff (codec_ne_h265 before) ..).mp
      (hrefused before nal keyframe created decoded rest hcalls hlast)
  · intro h
    refine ⟨?_, ?_⟩
    · intro before nal keyframe created decoded rest hcalls hlast
      exact (decode_refuses_iff (codec_ne_h265 before) ..).mpr
        (h before nal keyframe created decoded rest hcalls hlast)
    · intro before csd created decoded again between nal keyframe created' decoded' rest hcalls hpassed
      by_contra hnone
      have hother : ∀ c ∈ between, c.announces ≠ some .h264 := fun c hc heq => hnone ⟨c, hc, heq⟩
      have hlast := announced_h265 before csd created decoded again hother
      refine hpassed ((decode_refuses_iff (codec_ne_h265 _) ..).mpr (h _ nal keyframe created' decoded' rest ?_ hlast)).2
      rw [hcalls, List.append_assoc, List.cons_append]

/-- After a refused configure a frame goes to OpenH264 all the same. -/
theorem refuses_h265_ignored : ¬ ∀ calls, RefusesH265 calls := by
  intro h
  have hrefused := (h [.configure .h265 [] (.ok ()) .nothing (.ok ()),
    .decode [0, 0, 0, 1, 0x26, 1] true (.ok ()) .nothing]).1 [_] _ _ _ _ [] rfl rfl
  exact absurd hrefused.2 (by decide)

end OpenH264Decoder

/-! ## After a failed packet -/

/-- A configure announces H.264, and every creation succeeds. -/
def DecodeCall.Supported : DecodeCall → Prop
  | .configure codec _ created _ again => codec = .h264 ∧ created = .ok () ∧ again = .ok ()
  | .decode _ _ created _ => created = .ok ()

/-- The parameter sets a `configure` brings. -/
def DecodeCall.brings : DecodeCall → Option (List UInt8)
  | .configure _ csd _ _ _ => some csd
  | .decode _ _ _ _ => none

/-- The parameter sets of the last configure. -/
def lastCsd (calls : List DecodeCall) : List UInt8 := ((calls.filterMap DecodeCall.brings).getLast?).getD []

namespace OpenH264Decoder

/-- No configure and no picture among the calls. -/
def Resyncing : OpenH264Decoder → List DecodeCall → Prop
  | _, [] => True
  | d, c :: calls => c.brings = none ∧ (∀ f, (d.turn c).result ≠ .ok (some f)) ∧ Resyncing (d.turn c).dec calls

/-- All the packets passed. -/
def passes : OpenH264Decoder → List DecodeCall → List (Nat × List UInt8)
  | _, [] => []
  | d, c :: calls => (d.turn c).passed ++ passes (d.turn c).dec calls

theorem configure_csd {d : OpenH264Decoder} {codec : Codec} {csd : List UInt8}
    {created again : Except String Unit} {decoded : Decoded}
    (h : (DecodeCall.configure codec csd created decoded again).Supported) :
    (d.configure codec csd created decoded again).dec.csd = csd := by
  obtain ⟨rfl, rfl, rfl⟩ := h
  unfold configure
  rw [if_neg (not_not.mpr rfl)]
  simp only
  split
  · rfl
  · split <;> rfl

theorem after_csd {calls : List DecodeCall} (h : ∀ c ∈ calls, c.Supported) :
    (new.after calls).csd = lastCsd calls := by
  induction calls using List.reverseRecOn with
  | nil => rfl
  | append_singleton calls c ih =>
    have ih := ih fun c' hc' => h c' (List.mem_append_left _ hc')
    have hc := h c (List.mem_append_right _ List.mem_cons_self)
    rw [after_snoc, lastCsd, List.filterMap_append, List.getLast?_append]
    cases c with
    | configure codec csd created decoded again => exact configure_csd hc
    | decode nal keyframe created decoded => exact (decode_kept ..).2.trans ih

/-- A decoder that has lost its place: it waits for an IDR. -/
structure Lost (d : OpenH264Decoder) (csd : List UInt8) : Prop where
  waits : d.waitIdr = true
  codec : d.codec ≠ some .h265
  csd : d.csd = csd

/-- A packet that fails takes its decoder along. -/
theorem failed_lost {d : OpenH264Decoder} {nal : List UInt8} {keyframe : Bool}
    {created : Except String Unit} {text : String}
    (h : (d.decode nal keyframe created (.error text)).passed ≠ []) :
    (d.decode nal keyframe created (.error text)).dec.inner = none ∧
      (d.decode nal keyframe created (.error text)).dec.Lost d.csd := by
  obtain ⟨hcodec, hcsd⟩ := decode_kept d nal keyframe created (.error text)
  have hd := decoding d nal keyframe created (.error text)
  generalize d.decode nal keyframe created (.error text) = r at hd h hcodec hcsd ⊢
  cases hd with
  | refused | waited | stuck => exact absurd rfl h
  | passed hh => exact ⟨rfl, rfl, hcodec.symm ▸ hh, hcsd⟩

/-- A frame without a picture leaves it lost; and one whose packet was not
passed leaves it as it was. -/
theorem Lost.decode {d : OpenH264Decoder} {csd nal : List UInt8} {keyframe : Bool} {decoded : Decoded}
    (hl : d.Lost csd) (h : ∀ f, (d.decode nal keyframe (.ok ()) decoded).result ≠ .ok (some f)) :
    (d.decode nal keyframe (.ok ()) decoded).dec.Lost csd ∧
      ((d.decode nal keyframe (.ok ()) decoded).passed = [] →
        (d.decode nal keyframe (.ok ()) decoded).dec = d) := by
  obtain ⟨hcodec, hcsd⟩ := decode_kept d nal keyframe (.ok ()) decoded
  have hd := decoding d nal keyframe (.ok ()) decoded
  generalize d.decode nal keyframe (.ok ()) decoded = r at hd h hcodec hcsd ⊢
  cases hd with
  | refused hc => exact absurd hc hl.codec
  | waited => exact ⟨hl, fun _ => rfl⟩
  | stuck _ _ _ hcreated => cases hcreated
  | @passed n d' _ _ hdec =>
    refine ⟨⟨?_, hcodec.symm ▸ hl.codec, hcsd.trans hl.csd⟩, fun hnone => absurd hnone (List.cons_ne_nil _ _)⟩
    cases hstep : DecodeStep.of decoded with
    | frame f => exact absurd (by simp [hstep, conclude]) (h f)
    | empty => exact (decoder_kept hdec).2.2.trans hl.waits
    | failed text => rfl

theorem Lost.after {csd : List UInt8} {calls : List DecodeCall} (hok : ∀ c ∈ calls, c.Supported) :
    ∀ {d : OpenH264Decoder}, d.Lost csd → Resyncing d calls →
      (d.after calls).Lost csd ∧ (passes d calls = [] → d.after calls = d) := by
  induction calls with
  | nil => exact fun hl _ => ⟨hl, fun _ => rfl⟩
  | cons c calls ih =>
    intro d hl hr
    obtain ⟨hc, hpicture, hrest⟩ := hr
    cases c with
    | configure => cases hc
    | decode nal keyframe created decoded =>
      obtain rfl : created = .ok () := hok _ List.mem_cons_self
      obtain ⟨hnext, hsame⟩ := hl.decode hpicture
      obtain ⟨hlast, hlater⟩ := ih (fun c' hc' => hok c' (List.mem_cons_of_mem _ hc')) hnext hrest
      refine ⟨hlast, ?_⟩
      intro hnone
      obtain ⟨hfirst, hothers⟩ := List.append_eq_nil_iff.mp hnone
      exact (hlater hothers).trans (hsame hfirst)

/-- The packet of an IDR has parameter sets if the last configure gave some. -/
theorem packet_idr (d : OpenH264Decoder) (nal : List UInt8) :
    d.packet nal true = nal ∧ (Carries nal 7 ∨ d.csd = []) ∨ d.packet nal true = d.csd ++ nal := by
  unfold OpenH264Decoder.packet
  rw [Bool.true_and]
  by_cases hsps : Decode.containsSps nal = true
  · rw [hsps, Bool.not_true, Bool.false_and, if_neg Bool.false_ne_true]
    exact .inl ⟨rfl, .inl (Decode.containsSps_iff.mp hsps)⟩
  · by_cases hcsd : d.csd = []
    · rw [hcsd, List.isEmpty_nil, Bool.not_true, Bool.and_false, if_neg Bool.false_ne_true]
      exact .inl ⟨rfl, .inr rfl⟩
    · rw [if_pos (by simp [hsps, hcsd])]
      exact .inr rfl

/-- The packet a lost decoder passes on. -/
theorem Lost.packet {d : OpenH264Decoder} {csd nal packet : List UInt8} {keyframe : Bool}
    {created : Except String Unit} {decoded : Decoded} {n : Nat} (hl : d.Lost csd)
    (h : (n, packet) ∈ (d.decode nal keyframe created decoded).passed) :
    (keyframe = true ∨ Carries nal 5) ∧ (d.inner = none → n = d.made) ∧
      (packet = nal ∧ (Carries nal 7 ∨ csd = []) ∨ packet = csd ++ nal) := by
  have hd := decoding d nal keyframe created decoded
  generalize d.decode nal keyframe created decoded = r at hd h
  cases hd with
  | refused | waited | stuck => cases h
  | @passed n' d' _ hidr hdec =>
    obtain ⟨rfl, rfl⟩ := Prod.mk.inj (List.mem_singleton.mp h)
    have hkey := hidr hl.waits
    refine ⟨hkey, ?_, ?_⟩
    · intro hnone
      rcases decoder_ok hdec with ⟨hsome, _⟩ | ⟨_, hn, _⟩
      · rw [hnone] at hsome
        cases hsome
      · exact hn
    · have hidr : (keyframe || Decode.containsIdr nal) = true := by
        rw [Bool.or_eq_true, Decode.containsIdr_iff]
        exact hkey
      rw [hidr, ← hl.csd]
      exact d.packet_idr nal

/-- The call passes a packet, and OpenH264 answers with an error. -/
def PacketFails (d : OpenH264Decoder) (c : DecodeCall) : Prop :=
  ∃ nal keyframe created text, c = .decode nal keyframe created (.error text) ∧ (d.turn c).passed ≠ []

/-- From a failed packet until a configure or a picture only the packets of
keyframes are passed, the first to a decoder made for it, and each with
parameter sets if any were configured. -/
theorem decoder_resyncs {before between : List DecodeCall} {failed : DecodeCall} {n : Nat}
    {nal packet : List UInt8} {keyframe : Bool} {created : Except String Unit} {decoded : Decoded}
    (hok : ∀ c ∈ before ++ failed :: between, c.Supported) (hfailed : (new.after before).PacketFails failed)
    (hwindow : Resyncing (new.after (before ++ [failed])) between)
    (hpassed : (n, packet) ∈
      ((new.after (before ++ failed :: between)).decode nal keyframe created decoded).passed) :
    (keyframe = true ∨ Carries nal 5) ∧
      (passes (new.after (before ++ [failed])) between = [] →
        n = (new.after (before ++ failed :: between)).made) ∧
      (packet = nal ∨ packet = lastCsd before ++ nal) ∧
      (lastCsd before ≠ [] → (packet = nal ∧ Carries nal 7) ∨ lastCsd before <+: packet) := by
  obtain ⟨nal₀, keyframe₀, created₀, text, rfl, hpass⟩ := hfailed
  obtain ⟨hinner, hlost⟩ := failed_lost hpass
  have hcsd := after_csd fun c hc => hok c (List.mem_append_left _ hc)
  rw [hcsd] at hlost
  rw [after_snoc] at hwindow ⊢
  rw [List.append_cons, after_append, after_snoc] at hpassed ⊢
  obtain ⟨hlast, hsame⟩ := hlost.after
    (fun c hc => hok c (List.mem_append_right _ (List.mem_cons_of_mem _ hc))) hwindow
  obtain ⟨hkey, hnew, hpacket⟩ := hlast.packet hpassed
  refine ⟨hkey, ?_, ?_, ?_⟩
  · intro hnone
    exact hnew (by rw [hsame hnone]; exact hinner)
  · exact hpacket.imp And.left id
  · intro hne
    rcases hpacket with ⟨hnal, hsps⟩ | hjoined
    · exact .inl ⟨hnal, hsps.resolve_right hne⟩
    · exact .inr ⟨nal, hjoined.symm⟩

/-- A slice is dropped, and the IDR behind it goes to the second decoder with the
parameter sets in front. -/
theorem decoder_resyncs_idr :
    ∃ calls : List DecodeCall, ∃ packet, packet = [0, 0, 1, 0x67, 9] ++ [0, 0, 0, 1, 0x65] ∧
      (1, packet) ∈ ((new.after calls).decode [0, 0, 0, 1, 0x65] false (.ok ()) .nothing).passed ∧
      (lastCsd calls ≠ [] → (packet = [0, 0, 0, 1, 0x65] ∧ Carries [0, 0, 0, 1, 0x65] 7) ∨
        lastCsd calls <+: packet) := by
  let failed : DecodeCall := .decode [0, 0, 0, 1, 0x41] false (.ok ()) (.error "no frame")
  let slice : DecodeCall := .decode [0, 0, 0, 1, 0x41] false (.ok ()) .nothing
  let first : DecodeCall := .configure .h264 [0, 0, 1, 0x67, 9] (.ok ()) .nothing (.ok ())
  have hpassed : (1, [0, 0, 1, 0x67, 9] ++ [0, 0, 0, 1, 0x65]) ∈
      ((new.after ([first] ++ failed :: [slice])).decode [0, 0, 0, 1, 0x65] false (.ok ()) .nothing).passed := by
    decide
  have hok : ∀ c ∈ [first] ++ failed :: [slice], c.Supported := by
    simp [first, failed, slice, DecodeCall.Supported]
  have hfailed : (new.after [first]).PacketFails failed := ⟨_, _, _, _, rfl, by decide⟩
  have hdropped : ((new.after ([first] ++ [failed])).turn slice).result = .ok none := by decide
  have hwindow : Resyncing (new.after ([first] ++ [failed])) [slice] := by
    refine ⟨rfl, ?_, trivial⟩
    intro f h
    cases hdropped.symm.trans h
  exact ⟨_, _, rfl, hpassed, (decoder_resyncs hok hfailed hwindow hpassed).2.2.2⟩

end OpenH264Decoder

end DroidMirror.Native
