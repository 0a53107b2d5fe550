import DroidMirror.Client.EndToEnd
import DroidMirror.Lib.Latch

/-! # The client's own view

The client keeps the codec, the size and the csd of the `Configure` events it
emits. A csd that is empty does not replace one that is not, in the client's own
copy only (`view_run`). -/
namespace DroidMirror.Client
open DroidMirror.Proto DroidMirror.Lib.Incremental DroidMirror.Lib.Latch

/-- The contents of a `Configure` event. -/
structure Configured where
  codec : Codec
  csd : List UInt8
  width : UInt16
  height : UInt16
  deriving DecidableEq

def configured? : Out → Option Configured
  | .configure codec csd width height => some ⟨codec, csd, width, height⟩
  | .frame .. | .deviceName .. | .error .. => none

/-- The last `Configure` event. -/
def lastConfigured : List Out → Option Configured := latch (fun o => (configured? o).map some) none

/-- A csd to decode with. -/
def usable? (csd : List UInt8) : Option (List UInt8) := if csd.isEmpty then none else some csd

/-- The last csd of a `Configure` event that is not empty. -/
def lastCsd : List Out → List UInt8 := latch (fun o => (configured? o).bind fun k => usable? k.csd) []

/-- What the client holds of a `Configure` event apart from the csd. -/
def format (c : Client) : Option Codec × UInt16 × UInt16 := (c.codec, c.width, c.height)

def Configured.format (k : Configured) : Option Codec × UInt16 × UInt16 := (some k.codec, k.width, k.height)

/-- How events set the format and the csd. -/
structure Follows (c : Client) (r : Client × List Out) : Prop where
  format : r.1.format = latch (fun o => (configured? o).map Configured.format) c.format r.2
  csd : r.1.csd = latch (fun o => (configured? o).bind fun k => usable? k.csd) c.csd r.2

/-- Before the handshake there is no csd. -/
def Blank (c : Client) : Prop := c.handshake = false → c.csd = []

theorem Follows.trans {c : Client} {r r' : Client × List Out} (h : Follows c r) (h' : Follows r.1 r') :
    Follows c (r'.1, r.2 ++ r'.2) where
  format := by rw [h'.format, h.format, latch_append]
  csd := by rw [h'.csd, h.csd, latch_append]

theorem applyHandshake_follows {c : Client} (hc : c.csd = []) (h : Handshake) :
    Follows c (applyHandshake c h) where
  format := rfl
  csd := by
    have hlatch : h.csd = (usable? h.csd).getD c.csd := by
      rw [hc, usable?]
      cases h.csd <;> rfl
    exact hlatch

theorem applyMessage_follows (c : Client) (m : Message) : Follows c (applyMessage c m) := by
  cases m with
  | configure codec width height csd =>
    refine ⟨rfl, ?_⟩
    have hlatch : (if csd.isEmpty then c.csd else csd) = (usable? csd).getD c.csd := by
      cases csd <;> rfl
    exact hlatch
  | videoFrame ptsUs keyframe nal =>
    simp only [applyMessage]
    split
    · exact ⟨rfl, rfl⟩
    · exact ⟨rfl, rfl⟩
  | _ => exact ⟨rfl, rfl⟩

/-! ## Runs -/

theorem Blank.of_handshake {c : Client} (h : c.handshake = true) : Blank c := by
  intro hc
  rw [h] at hc
  cases hc

theorem replay_follows {p : Bool} {b : List UInt8} : ∀ c : Client, c.handshake = p → Blank c →
    Follows c (replay c (wire.parse p b).items) ∧ Blank (replay c (wire.parse p b).items).1 := by
  induction p, b using wire.parse_induction with
  | none p b hd => intro c _ hc; rw [wire.parse_none hd]; exact ⟨⟨rfl, rfl⟩, hc⟩
  | error p b e hd => intro c _ hc; rw [wire.parse_error hd]; exact ⟨⟨rfl, rfl⟩, hc⟩
  | some p b i n hd ih =>
    intro c hp hc
    rw [wire.parse_some hd]
    rcases decodeItem_some hd with ⟨m, hstarted, rfl, _⟩ | ⟨hs, hstarted, rfl, _⟩
    · have hdone : (applyMessage c m).1.handshake = true :=
        (applyMessage_handshake c m).trans (hp.trans hstarted)
      obtain ⟨hrest, hblank⟩ := ih (applyMessage c m).1 hdone (.of_handshake hdone)
      exact ⟨(applyMessage_follows c m).trans hrest, hblank⟩
    · obtain ⟨hrest, hblank⟩ := ih (applyHandshake c hs).1 rfl (.of_handshake rfl)
      exact ⟨(applyHandshake_follows (hc (hp.trans hstarted)) hs).trans hrest, hblank⟩

theorem onBytes_follows {c : Client} (hc : Blank c) (chunk : List UInt8) :
    Follows c (onBytes c chunk) ∧ Blank (onBytes c chunk).1 := by
  cases hf : c.fatal with
  | true =>
    rw [onBytes_fatal hf]
    exact ⟨⟨rfl, rfl⟩, hc⟩
  | false =>
    obtain ⟨hfollows, hblank⟩ := replay_follows (b := c.buf ++ chunk) c rfl hc
    rw [onBytes_parse hf, conclude]
    split
    · exact ⟨⟨hfollows.format, hfollows.csd⟩, hblank⟩
    · exact ⟨hfollows.trans ⟨rfl, rfl⟩, hblank⟩

theorem run_follows (acts : List Action) : ∀ {c : Client}, Blank c → Follows c (run c acts) := by
  induction acts with
  | nil => exact fun _ => ⟨rfl, rfl⟩
  | cons a acts ih =>
    intro c hc
    cases a with
    | chunk bytes =>
      obtain ⟨hfollows, hblank⟩ := onBytes_follows hc bytes
      exact hfollows.trans (ih hblank)
    | skip =>
      obtain ⟨hformat, hcsd⟩ := ih (c := requestKeyframeSkip c) hc
      exact ⟨hformat, hcsd⟩

/-- The format told last, with that of a new client before the first. -/
def told : Option Configured → Option Codec × UInt16 × UInt16
  | none => (none, 0, 0)
  | some k => k.format

theorem format_latch (outs : List Out) : latch (fun o => (configured? o).map Configured.format)
    (format new) outs = told (lastConfigured outs) := by
  have hset : (fun o => (configured? o).map Configured.format) =
      fun o => ((configured? o).map some).map told := by
    funext o
    cases configured? o <;> rfl
  rw [hset]
  exact latch_map told none outs

theorem lastCsd_eq {outs : List Out} {k : Configured} (hk : lastConfigured outs = some k)
    (hcsd : k.csd ≠ []) : lastCsd outs = k.csd := by
  induction outs using List.reverseRecOn with
  | nil => cases hk
  | append_singleton outs o ih =>
    rw [lastConfigured, latch_snoc, ← lastConfigured] at hk
    rw [lastCsd, latch_snoc, ← lastCsd]
    cases ho : configured? o with
    | none =>
      rw [ho] at hk
      exact ih hk
    | some k' =>
      rw [ho] at hk
      cases hk
      have husable : usable? k.csd = some k.csd := if_neg (by simpa using hcsd)
      rw [Option.bind_some, husable]
      rfl

/-- After any calls the client holds the codec and the size of the last `Configure`
event, and the last csd that was not empty. -/
theorem view_run (acts : List Action) (k : Configured) (hk : lastConfigured (run new acts).2 = some k) :
    (run new acts).1.codec = some k.codec ∧ (run new acts).1.width = k.width ∧
      (run new acts).1.height = k.height ∧ (run new acts).1.csd = lastCsd (run new acts).2 ∧
      (k.csd ≠ [] → (run new acts).1.csd = k.csd) := by
  obtain ⟨hformat, hcsd⟩ := run_follows acts (c := new) fun _ => rfl
  rw [format_latch, hk] at hformat
  obtain ⟨hcodec, hsize⟩ := Prod.mk.inj hformat
  obtain ⟨hwidth, hheight⟩ := Prod.mk.inj hsize
  exact ⟨hcodec, hwidth, hheight, hcsd, fun hk' => hcsd.trans (lastCsd_eq hk hk')⟩

theorem view_run_handshake :
    let acts := [.chunk [0x44, 0x4D, 0x49, 0x52, 1, 1, 100, 0], .skip, .chunk [200, 0, 1, 0, 7, 0, 0, 0]]
    (run new acts).1.codec = some .h264 ∧ (run new acts).1.width = 100 ∧ (run new acts).1.height = 200 ∧
      (run new acts).1.csd = lastCsd (run new acts).2 ∧
      (([7] : List UInt8) ≠ [] → (run new acts).1.csd = [7]) :=
  view_run [.chunk [0x44, 0x4D, 0x49, 0x52, 1, 1, 100, 0], .skip, .chunk [200, 0, 1, 0, 7, 0, 0, 0]]
    ⟨.h264, [7], 100, 200⟩ (by decide +kernel)

/-- A handshake with a csd, and a `Configure` without one: the event tells the host
so, and the client keeps the old one. -/
theorem csd_kept : ¬ ∀ (acts : List Action) (k : Configured), lastConfigured (run new acts).2 = some k →
    (run new acts).1.codec = some k.codec ∧ (run new acts).1.csd = k.csd ∧
      (run new acts).1.width = k.width ∧ (run new acts).1.height = k.height := by
  intro h
  have hcsd := (h [.chunk [0x44, 0x4D, 0x49, 0x52, 1, 1, 100, 0, 200, 0, 1, 0, 7, 0, 0, 0],
    .chunk [8, 0, 0, 0, 2, 1, 200, 0, 100, 0, 0, 0]] ⟨.h264, [], 200, 100⟩ (by decide +kernel)).2.1
  exact absurd hcsd (by decide +kernel)

end DroidMirror.Client
