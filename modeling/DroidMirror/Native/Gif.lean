import DroidMirror.Lib.Run
import DroidMirror.Native.Decode
import DroidMirror.Proto.Scalar

/-! # GIF timing

`App::push_gif` in `crates/native/src/main.rs` with the worker of
`crates/native/src/capture.rs`. A frame carries the time since the last one the
worker's queue took. What the worker leaves out takes its time with it, and a
time past sixteen bits starts again at zero; otherwise the pictures stay within
the hundredth each of them is cut to (`gif_on_clock`). Times are in nanoseconds. -/
namespace DroidMirror.Native
open DroidMirror.Proto DroidMirror.Lib.LittleEndian DroidMirror.Lib.Run

/-! ## The window's side -/

section
variable (F : Type) [F32Unsigned F]

/-- The longest side becomes `maxEdge` pixels; smaller frames are kept. -/
def fitMaxEdge (width height : UInt32) (rgba : List UInt8) (maxEdge : UInt32) :
    UInt32 × UInt32 × List UInt8 :=
  let long := max (max width height) 1
  if long ≤ maxEdge ∨ width = 0 ∨ height = 0 then (width, height, rgba)
  else
    let scale : F := F32.ofInt maxEdge.toNat / F32.ofInt long.toNat
    let nw := max (F32Unsigned.toU32 (F32.round (F32.ofInt width.toNat * scale))) 1
    let nh := max (F32Unsigned.toU32 (F32.round (F32.ofInt height.toNat * scale))) 1
    let out := (List.range nh.toNat).flatMap fun y =>
      let sy := min (y * height.toNat / nh.toNat) (height.toNat - 1)
      (List.range nw.toNat).flatMap fun x =>
        let sx := min (x * width.toNat / nw.toNat) (width.toNat - 1)
        let si := (sy * width.toNat + sx) * 4
        slice rgba si (si + 4)
    (nw, nh, out)

end

structure GifFrame where
  width : UInt32
  height : UInt32
  rgba : List UInt8
  delayCs : UInt16
  deriving DecidableEq

/-- What a recording keeps: the clock, the time of the last frame the queue took, and the
frames it took, each with the time it arrived at. -/
structure GifRecording where
  clock : Nat
  gifLast : Option Nat
  queued : List (Nat × GifFrame)
  deriving DecidableEq

/-- A decoded frame, so long after the one before; whether the queue has room for it. -/
structure GifOffer where
  elapsed : Nat
  frame : RgbaFrame
  accepts : Bool

def asMillis (ns : Nat) : Nat := ns / 1000000

namespace GifRecording

/-- A recording that has just been started. -/
def start : GifRecording := ⟨0, none, []⟩

/-- The delay of a frame that arrives now, in hundredths of a second. -/
def delayCs (s : GifRecording) (now : Nat) : UInt16 :=
  (s.gifLast.map fun t => UInt16.ofNat (asMillis (now - t) / 10)).getD 10

def throttled (s : GifRecording) (now : Nat) : Bool := s.gifLast.isSome && s.delayCs now < 9

variable (F : Type) [F32Unsigned F]

def pushGif (s : GifRecording) (o : GifOffer) : GifRecording :=
  let now := s.clock + o.elapsed
  if s.throttled now then { s with clock := now }
  else
    let (width, height, rgba) := fitMaxEdge F o.frame.width o.frame.height o.frame.rgba 480
    if o.accepts then
      { clock := now, gifLast := some now
        queued := s.queued ++ [(now, ⟨width, height, rgba, max (s.delayCs now) 2⟩)] }
    else { s with clock := now }

def step (s : GifRecording) (o : GifOffer) : Option GifRecording := some (s.pushGif F o)

end GifRecording

/-! ## The worker -/

/-- What the encoder is passed besides the pixels. -/
structure GifImage where
  width : UInt16
  height : UInt16
  delay : UInt16
  deriving DecidableEq

def writeGifFrame (frame : GifFrame) : GifImage :=
  ⟨frame.width.toUInt16, frame.height.toUInt16, max frame.delayCs 2⟩

/-- The frame has the size of the file. -/
def keeps (first frame : GifFrame) : Bool := frame.width = first.width ∧ frame.height = first.height

/-- The images of a file, from the frames in the queue. -/
def writeGif : List GifFrame → Except String (List GifImage)
  | [] => .ok []
  | first :: rest =>
    if 65535 < first.width then .error "gif width"
    else if 65535 < first.height then .error "gif height"
    else .ok (writeGifFrame first :: (rest.filter (keeps first)).map writeGifFrame)

/-- When the frames that are written arrived. -/
def writtenArrivals : List (Nat × GifFrame) → List Nat
  | [] => []
  | first :: rest => first.1 :: (rest.filter fun q => keeps first.2 q.2).map Prod.fst

/-- From the first time to the last. -/
def span (times : List Nat) : Nat := times.getLast?.getD 0 - times.head?.getD 0

/-- How long the images are shown from the second on, in hundredths of a second. -/
def shownCs (images : List GifImage) : Nat := (images.tail.map fun i => i.delay.toNat).sum

namespace GifRecording

/-- The file shows its frames as long as they took to arrive, but for a hundredth each. -/
def OnTime (s : GifRecording) : Prop :=
  ∀ images, writeGif (s.queued.map Prod.snd) = .ok images →
    span (writtenArrivals s.queued) ≤ 10000000 * shownCs images + 10000000 * s.queued.length ∧
      10000000 * shownCs images ≤ span (writtenArrivals s.queued) + 10000000 * s.queued.length

/-! ## Runs that lose no time -/

variable (F : Type) [F32Unsigned F]

/-- The time since the last frame fits sixteen bits, in hundredths, and a frame that goes
out is scaled to the size of the first. -/
def Clean (s : GifRecording) (o : GifOffer) : Prop :=
  (∀ t ∈ s.gifLast, asMillis (s.clock + o.elapsed - t) / 10 ≤ 65535) ∧
    (o.accepts = true → s.throttled (s.clock + o.elapsed) = false → ∀ first ∈ s.queued.head?,
      (fitMaxEdge F o.frame.width o.frame.height o.frame.rgba 480).1 = first.2.width ∧
        (fitMaxEdge F o.frame.width o.frame.height o.frame.rgba 480).2.1 = first.2.height)

/-- A delay past sixteen bits stays at the largest, and a frame 90 ms after the last
one taken is queued if there is room. -/
def Lawful (s : GifRecording) (o : GifOffer) : Prop :=
  ∀ t ∈ s.gifLast,
    (∀ q, (s.pushGif F o).queued = s.queued ++ [q] →
      q.2.delayCs.toNat = min (asMillis (s.clock + o.elapsed - t) / 10) 65535) ∧
    (90000000 ≤ s.clock + o.elapsed - t → s.throttled (s.clock + o.elapsed) = false)

instance (s : GifRecording) (o : GifOffer) : Decidable (s.Clean F o) :=
  inferInstanceAs (Decidable (_ ∧ (_ → _ → _)))

/-- What a turn does. -/
theorem pushGif_cases (s : GifRecording) (o : GifOffer) :
    s.pushGif F o = { s with clock := s.clock + o.elapsed } ∨
      s.throttled (s.clock + o.elapsed) = false ∧ o.accepts = true ∧ ∃ frame : GifFrame,
        frame.width = (fitMaxEdge F o.frame.width o.frame.height o.frame.rgba 480).1 ∧
        frame.height = (fitMaxEdge F o.frame.width o.frame.height o.frame.rgba 480).2.1 ∧
        frame.delayCs = max (s.delayCs (s.clock + o.elapsed)) 2 ∧
        s.pushGif F o = ⟨s.clock + o.elapsed, some (s.clock + o.elapsed),
          s.queued ++ [(s.clock + o.elapsed, frame)]⟩ := by
  unfold pushGif
  simp only
  split
  · exact .inl rfl
  · rename_i ht
    split
    · rename_i ha
      exact .inr ⟨by simpa using ht, ha, _, rfl, rfl, rfl, rfl⟩
    · exact .inl rfl

/-- The hundredths of a time that fits are its delay. -/
theorem delayCs_toNat {s : GifRecording} {now t : Nat} (ht : s.gifLast = some t)
    (hfits : asMillis (now - t) / 10 ≤ 65535) :
    (s.delayCs now).toNat = asMillis (now - t) / 10 := by
  rw [delayCs, ht]
  show (UInt16.ofNat (asMillis (now - t) / 10)).toNat = _
  rw [UInt16.toNat_ofNat', Nat.mod_eq_of_lt (by omega)]

theorem throttled_iff {s : GifRecording} {now t : Nat} (ht : s.gifLast = some t)
    (hfits : asMillis (now - t) / 10 ≤ 65535) :
    s.throttled now = true ↔ asMillis (now - t) / 10 < 9 := by
  have hd := delayCs_toNat ht hfits
  rw [throttled, ht, Option.isSome_some, Bool.true_and, decide_eq_true_iff, UInt16.lt_iff_toNat_lt, hd]
  rfl

theorem toNat_max_two (d : UInt16) : (max d 2).toNat = max d.toNat 2 := by
  show (if d ≤ 2 then 2 else d).toNat = _
  split
  · rename_i h
    exact (Nat.max_eq_right (UInt16.le_iff_toNat_le.mp h)).symm
  · rename_i h
    rw [UInt16.le_iff_toNat_le] at h
    exact (Nat.max_eq_left (Nat.le_of_not_le h)).symm

/-- A frame that goes out carries its time, which the floor of two does not touch. -/
theorem queued_delay {s : GifRecording} {now t : Nat} (ht : s.gifLast = some t)
    (hfits : asMillis (now - t) / 10 ≤ 65535) (hon : s.throttled now = false) :
    (max (s.delayCs now) 2).toNat = asMillis (now - t) / 10 := by
  have hlong : ¬ asMillis (now - t) / 10 < 9 := by
    rw [← throttled_iff ht hfits, hon]
    exact Bool.false_ne_true
  rw [toNat_max_two, delayCs_toNat ht hfits]
  omega

theorem lawful_of_clean {s : GifRecording} {o : GifOffer} (h : s.Clean F o) : s.Lawful F o := by
  intro t ht
  have hfits := h.1 t ht
  refine ⟨?_, ?_⟩
  · intro q hq
    obtain heq | ⟨hon, _, frame, _, _, hdelay, heq⟩ := pushGif_cases F s o
    · rw [heq] at hq
      simp at hq
    · rw [heq] at hq
      have hlast := List.append_cancel_left hq
      cases hlast
      rw [hdelay, queued_delay ht hfits hon]
      exact (Nat.min_eq_left hfits).symm
  · intro hlong
    rw [← Bool.not_eq_true, throttled_iff ht hfits]
    unfold asMillis
    omega

/-! ## The clock of a recording -/

/-- When the last of some frames arrived. -/
def lastArrival (first : Nat × GifFrame) (rest : List (Nat × GifFrame)) : Nat :=
  (rest.getLast?.getD first).1

/-- The hundredths the frames after the first are shown for. -/
def shown (rest : List (Nat × GifFrame)) : Nat := (rest.map fun q => (max q.2.delayCs 2).toNat).sum

/-- A first frame and those after it, all of its size and each with its time. -/
structure Follows (first : Nat × GifFrame) (rest : List (Nat × GifFrame)) (s : GifRecording) : Prop where
  queued : s.queued = first :: rest
  last : s.gifLast = some (lastArrival first rest)
  le_clock : lastArrival first rest ≤ s.clock
  size : ∀ q ∈ rest, keeps first.2 q.2 = true
  shown_le : first.1 + 10000000 * shown rest ≤ lastArrival first rest
  le_shown : lastArrival first rest ≤ first.1 + 10000000 * shown rest + 10000000 * rest.length

/-- Nothing is queued yet, or the clock of the queue is right. -/
def OnClock (s : GifRecording) : Prop :=
  s.queued = [] ∧ s.gifLast = none ∨ ∃ first rest, Follows first rest s

theorem lastArrival_snoc (first q : Nat × GifFrame) (rest : List (Nat × GifFrame)) :
    lastArrival first (rest ++ [q]) = q.1 := by
  rw [lastArrival, List.getLast?_concat, Option.getD_some]

theorem shown_snoc (rest : List (Nat × GifFrame)) (q : Nat × GifFrame) :
    shown (rest ++ [q]) = shown rest + (max q.2.delayCs 2).toNat := by
  rw [shown, List.map_append, List.sum_append]
  rfl

/-- A clean turn that queues a frame adds its time, short of a hundredth. -/
theorem Follows.queue {first : Nat × GifFrame} {rest : List (Nat × GifFrame)} {s : GifRecording}
    (h : Follows first rest s) {now : Nat} (hnow : s.clock ≤ now)
    (hfits : asMillis (now - lastArrival first rest) / 10 ≤ 65535) (hon : s.throttled now = false)
    {frame : GifFrame} (hsize : keeps first.2 frame = true) (hdelay : frame.delayCs = max (s.delayCs now) 2) :
    Follows first (rest ++ [(now, frame)]) ⟨now, some now, s.queued ++ [(now, frame)]⟩ := by
  have hd := queued_delay h.last hfits hon
  have hmax : (max frame.delayCs 2).toNat = asMillis (now - lastArrival first rest) / 10 := by
    rw [toNat_max_two, hdelay, hd]
    have htwo := toNat_max_two (s.delayCs now)
    omega
  have hms : asMillis (now - lastArrival first rest) / 10 = (now - lastArrival first rest) / 10000000 := by
    rw [asMillis, Nat.div_div_eq_div_mul]
  have hle := h.le_clock
  have hlo := h.shown_le
  have hhi := h.le_shown
  rw [hms] at hmax
  constructor
  · rw [h.queued]
    rfl
  · rw [lastArrival_snoc]
  · rw [lastArrival_snoc]
  · intro q hq
    obtain hq | hq := List.mem_append.mp hq
    · exact h.size q hq
    · rw [List.mem_singleton.mp hq]
      exact hsize
  · rw [lastArrival_snoc, shown_snoc, hmax]
    omega
  · rw [lastArrival_snoc, shown_snoc, hmax, List.length_append, List.length_singleton]
    omega

theorem onClock_step {s s' : GifRecording} {o : GifOffer} (h : s.OnClock) (hc : s.Clean F o)
    (hs : s.step F o = some s') : s'.OnClock := by
  rw [step] at hs
  cases hs
  obtain heq | ⟨hon, haccepts, frame, hw, hh, hdelay, heq⟩ := pushGif_cases F s o
  · rw [heq]
    obtain h | ⟨first, rest, h⟩ := h
    · exact .inl h
    · exact .inr ⟨first, rest, { h with le_clock := Nat.le_trans h.le_clock (Nat.le_add_right _ _) }⟩
  · rw [heq]
    obtain ⟨hempty, _⟩ | ⟨first, rest, h⟩ := h
    · refine .inr ⟨(s.clock + o.elapsed, frame), [], ?_⟩
      rw [hempty]
      exact ⟨rfl, rfl, Nat.le_refl _, fun q hq => (by cases hq), Nat.le_refl _, Nat.le_add_right _ _⟩
    · have hfirst : first ∈ s.queued.head? := by rw [h.queued]; rfl
      obtain ⟨hfw, hfh⟩ := hc.2 haccepts hon first hfirst
      refine .inr ⟨first, _, h.queue (Nat.le_add_right _ _) (hc.1 _ h.last) hon ?_ hdelay⟩
      rw [keeps, decide_eq_true_iff, hw, hh]
      exact ⟨hfw, hfh⟩

/-! ## The file -/

theorem span_arrivals (first : Nat × GifFrame) (rest : List (Nat × GifFrame)) :
    span (first.1 :: rest.map Prod.fst) = lastArrival first rest - first.1 := by
  have hlast : (first.1 :: rest.map Prod.fst).getLast?.getD 0 = lastArrival first rest := by
    rw [← List.map_cons, List.getLast?_map, List.getLast?_cons, Option.map_some, Option.getD_some,
      lastArrival]
  rw [span, hlast]
  rfl

/-- Where every frame is kept the file shows what was queued. -/
theorem Follows.onTime {first : Nat × GifFrame} {rest : List (Nat × GifFrame)} {s : GifRecording}
    (h : Follows first rest s) : s.OnTime := by
  intro images himages
  have hkept : (rest.map Prod.snd).filter (keeps first.2) = rest.map Prod.snd := by
    rw [List.filter_eq_self]
    intro frame hframe
    obtain ⟨q, hq, rfl⟩ := List.mem_map.mp hframe
    exact h.size q hq
  have harrivals : writtenArrivals s.queued = first.1 :: rest.map Prod.fst := by
    rw [h.queued, writtenArrivals, List.filter_eq_self.mpr h.size]
  rw [h.queued, List.map_cons, writeGif, hkept] at himages
  split_ifs at himages
  have hshown : shownCs images = shown rest := by
    rw [← Except.ok.inj himages, shownCs, shown, List.tail_cons, List.map_map, List.map_map]
    rfl
  have hlo := h.shown_le
  have hhi := h.le_shown
  rw [harrivals, span_arrivals, hshown, h.queued, List.length_cons]
  omega

theorem OnClock.onTime {s : GifRecording} (h : s.OnClock) : s.OnTime := by
  obtain ⟨hempty, _⟩ | ⟨first, rest, h⟩ := h
  · intro images himages
    rw [hempty] at himages ⊢
    rw [← Except.ok.inj himages]
    exact ⟨Nat.zero_le _, Nat.zero_le _⟩
  · exact h.onTime

/-- A recording whose frames keep one size and come within eleven minutes of each other is on
time at its end, and in each of its turns the delay and the throttle follow the clock. -/
theorem gif_on_clock {offers : List GifOffer} {s : GifRecording}
    (hrun : run (step F) start offers = some s) (hclean : Meets (step F) (Clean F) start offers) :
    s.OnTime ∧ Meets (step F) (Lawful F) start offers := by
  have hclock : s.OnClock := run_invariant (fun _ _ _ h hc hs => onClock_step F h hc hs) hrun hclean
    (.inl ⟨rfl, rfl⟩)
  refine ⟨hclock.onTime, ?_⟩
  rw [meets_iff] at hclean ⊢
  intro before o after v hoffers hv
  exact lawful_of_clean F (hclean before o after v hoffers hv)

/-- A frame of one pixel a side, or two. -/
def square (side : UInt32) : RgbaFrame := ⟨side, side, List.replicate (4 * side.toNat * side.toNat) 0⟩

/-- Three frames of one size, the second of them refused. -/
def steady : List GifOffer := [⟨0, square 1, true⟩, ⟨100000000, square 1, false⟩, ⟨155000000, square 1, true⟩]

theorem gif_on_clock_steady : ∃ s, run (step ℚ) start steady = some s ∧ s.OnTime ∧
    Meets (step ℚ) (Lawful ℚ) start steady := by
  have hclean : Meets (step ℚ) (Clean ℚ) start steady := by decide +kernel
  exact ⟨_, rfl, gif_on_clock ℚ rfl hclean⟩

/-- A frame of another size is left out of the file, and with it the time to it. -/
def resized : List GifOffer :=
  [⟨0, square 1, true⟩, ⟨100000000, square 2, true⟩, ⟨100000000, square 1, true⟩]

/-- Eleven minutes without a frame, and then one. -/
def paused : List GifOffer := [⟨0, square 1, true⟩, ⟨655360000000, square 1, true⟩]

/-- The first recording is 100 ms short of its 200, and in the second the throttle drops the
frame after the pause. -/
theorem gif_off_clock :
    (∃ s, run (step ℚ) start resized = some s ∧ ¬ s.OnTime) ∧
      ¬ Meets (step ℚ) (Lawful ℚ) start paused := by
  constructor
  · refine ⟨_, rfl, fun h => ?_⟩
    have hwritten := h [⟨1, 1, 10⟩, ⟨1, 1, 10⟩] (by decide +kernel)
    exact absurd hwritten.1 (by decide +kernel)
  · intro h
    have hlawful := (h.2 _ rfl).1 0 (by decide +kernel)
    exact absurd (hlawful.2 (by decide +kernel)) (by decide +kernel)

end GifRecording

end DroidMirror.Native
