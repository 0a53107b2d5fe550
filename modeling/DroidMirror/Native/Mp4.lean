import Mathlib.Data.List.Induction
import DroidMirror.Client.Batch
import DroidMirror.Lib.Neighbours
import DroidMirror.Native.Nals

/-! # Muxing

`Mp4Rec` in `crates/native/src/capture.rs`. A sample is written when the next
one is pushed, since only then is its duration known; the last one is written by
`finish`. What the MP4 writer answers comes with each call. -/
namespace DroidMirror.Native.Mp4
open DroidMirror.Client DroidMirror.Proto DroidMirror.Lib.Neighbours

structure PendingSample where
  ptsUs : UInt64
  keyframe : Bool
  bytes : List UInt8
  deriving DecidableEq

structure Mp4Sample where
  startTime : UInt64
  duration : UInt32
  renderingOffset : Int32
  isSync : Bool
  bytes : List UInt8
  deriving DecidableEq

structure Mp4Rec where
  /-- What the writer accepted. -/
  written : List Mp4Sample
  samples : UInt32
  waitIdr : Bool
  pending : Option PendingSample
  loggedWait : Bool
  deriving DecidableEq

/-- `u64::saturating_sub`. -/
def saturatingSub (a b : UInt64) : UInt64 := if b ≤ a then a - b else 0

/-- `dur_ms.clamp(1, 10_000) as u32`. -/
def clampDuration (durMs : UInt64) : UInt32 :=
  (if durMs < 1 then 1 else if durMs > 10000 then 10000 else durMs).toUInt32

/-- The frame is flagged as a keyframe, or has a unit of type 5. -/
def isIdr (f : Frame) : Bool := f.keyframe || (nals f.nal).any (nalType · == 5)

namespace Mp4Rec

/-- A recorder whose file could be begun. -/
def start : Mp4Rec := { written := [], samples := 0, waitIdr := true, pending := none, loggedWait := false }

def writeSample (r : Mp4Rec) (ptsUs durMs : UInt64) (keyframe : Bool) (bytes : List UInt8)
    (answer : Except String Unit) : Except String Unit × Mp4Rec :=
  let sample : Mp4Sample :=
    { startTime := ptsUs / 1000
      duration := clampDuration durMs
      renderingOffset := 0
      isSync := keyframe
      bytes }
  match answer with
  | .error e => (.error e, r)
  | .ok () => (.ok (), { r with written := r.written ++ [sample], samples := r.samples + 1 })

def push (r : Mp4Rec) (f : Frame) (answer : Except String Unit) : Except String Unit × Mp4Rec :=
  if r.waitIdr && !isIdr f then (.ok (), { r with loggedWait := true })
  else
    let bytes := avccSample f.nal
    if bytes.isEmpty then (.ok (), r)
    else
      let next : PendingSample := ⟨f.ptsUs, isIdr f, bytes⟩
      match r.pending with
      | none => (.ok (), { r with waitIdr := false, pending := some next })
      | some prev =>
        let durMs := saturatingSub f.ptsUs prev.ptsUs / 1000
        let w := writeSample { r with waitIdr := false, pending := none } prev.ptsUs durMs prev.keyframe
          prev.bytes answer
        match w.1 with
        | .error e => (.error e, w.2)
        | .ok () => (.ok (), { w.2 with pending := some next })

/-- The answers are the one to the last sample and the one to the trailer. -/
def finish (r : Mp4Rec) (answer trailer : Except String Unit) : Except String Unit × Mp4Rec :=
  let w : Except String Unit × Mp4Rec := match r.pending with
    | none => (.ok (), r)
    | some prev => writeSample { r with pending := none } prev.ptsUs 33 prev.keyframe prev.bytes answer
  match w.1 with
  | .error e => (.error e, w.2)
  | .ok () =>
    match trailer with
    | .error e => (.error e, w.2)
    | .ok () => (if w.2.samples = 0 then .error "no frames were recorded" else .ok (), w.2)

/-- The frames pushed one after another, the writer accepting every sample. -/
def pushAll (r : Mp4Rec) (frames : List Frame) : Mp4Rec :=
  frames.foldl (fun r f => (r.push f (.ok ())).2) r

/-- The result of `finish` after the frames, and the file. -/
def record (frames : List Frame) : Except String Unit × Mp4Rec :=
  (start.pushAll frames).finish (.ok ()) (.ok ())

end Mp4Rec

/-! ## What is to be recorded -/

/-- The frame has something for a sample. -/
def hasPicture (f : Frame) : Bool := !(avccSample f.nal).isEmpty

/-- The frames with picture data, from the first IDR among them on. -/
def recorded (frames : List Frame) : List Frame := (frames.filter hasPicture).dropWhile (!isIdr ·)

/-- The duration of a sample that another one follows. -/
def durMs (f next : Frame) : UInt64 := saturatingSub next.ptsUs f.ptsUs / 1000

def sample (f : Frame) (durMs : UInt64) : Mp4Sample :=
  { startTime := f.ptsUs / 1000, duration := clampDuration durMs, renderingOffset := 0, isSync := isIdr f,
    bytes := avccSample f.nal }

/-- The samples of the frames, the last one of 33 ms. -/
def samplesOf (frames : List Frame) : List Mp4Sample :=
  (pairs frames).map (fun p => sample p.1 (durMs p.1 p.2)) ++ frames.getLast?.toList.map (sample · 33)

theorem recorded_snoc (frames : List Frame) (f : Frame) : recorded (frames ++ [f]) =
    if recorded frames = [] ∧ isIdr f = false then [] else
      if hasPicture f then recorded frames ++ [f] else recorded frames := by
  have hsplit : recorded (frames ++ [f]) =
      if (recorded frames).isEmpty then ([f].filter hasPicture).dropWhile (!isIdr ·)
      else recorded frames ++ [f].filter hasPicture := by
    rw [recorded, List.filter_append, List.dropWhile_append]
    rfl
  rw [hsplit]
  by_cases hnone : recorded frames = []
  · rw [hnone, List.isEmpty_nil, if_pos rfl]
    by_cases hp : hasPicture f = true
    · cases hidr : isIdr f <;> simp [hp, hidr]
    · simp [hp]
  · rw [if_neg (by rwa [List.isEmpty_iff]), if_neg (fun h => hnone h.1)]
    by_cases hp : hasPicture f = true
    · simp [hp]
    · simp [hp]

/-! ## The pending sample -/

/-- A frame that waits for its duration. -/
def pendingOf (f : Frame) : PendingSample := ⟨f.ptsUs, isIdr f, avccSample f.nal⟩

section
variable {r : Mp4Rec} {f : Frame}

theorem push_waiting (h : (r.waitIdr && !isIdr f) = true) :
    r.push f (.ok ()) = (.ok (), { r with loggedWait := true }) := by
  rw [Mp4Rec.push, if_pos h]

theorem push_bare (h : (r.waitIdr && !isIdr f) = false) (hp : hasPicture f = false) :
    r.push f (.ok ()) = (.ok (), r) := by
  have hempty : (avccSample f.nal).isEmpty = true := by simpa [hasPicture] using hp
  simp only [Mp4Rec.push, h, hempty, Bool.false_eq_true, if_false, if_true]

theorem push_first (h : (r.waitIdr && !isIdr f) = false) (hp : hasPicture f = true)
    (hnone : r.pending = none) :
    r.push f (.ok ()) = (.ok (), { r with waitIdr := false, pending := some (pendingOf f) }) := by
  have hempty : (avccSample f.nal).isEmpty = false := by simpa [hasPicture] using hp
  simp only [Mp4Rec.push, h, hempty, hnone, Bool.false_eq_true, if_false]
  rfl

/-- The frame before it is written with the time up to it. -/
theorem push_next {last : Frame} (h : (r.waitIdr && !isIdr f) = false) (hp : hasPicture f = true)
    (hlast : r.pending = some (pendingOf last)) :
    r.push f (.ok ()) = (.ok (),
      { r with
        written := r.written ++ [sample last (durMs last f)]
        samples := r.samples + 1
        waitIdr := false
        pending := some (pendingOf f) }) := by
  have hempty : (avccSample f.nal).isEmpty = false := by simpa [hasPicture] using hp
  simp only [Mp4Rec.push, h, hempty, hlast, Bool.false_eq_true, if_false]
  rfl

end

/-- A recorder that is to record these frames: the last one pending, the others written. -/
structure Holds (r : Mp4Rec) (kept : List Frame) : Prop where
  waits : r.waitIdr = kept.isEmpty
  pending : r.pending = kept.getLast?.map pendingOf
  written : r.written = (pairs kept).map fun p => sample p.1 (durMs p.1 p.2)
  samples : r.samples = .ofNat r.written.length

theorem start_holds : Holds .start (recorded []) := ⟨rfl, rfl, rfl, rfl⟩

/-- One frame more. -/
theorem Holds.push {r : Mp4Rec} {frames : List Frame} (h : Holds r (recorded frames)) (f : Frame) :
    (r.push f (.ok ())).1 = .ok () ∧ Holds (r.push f (.ok ())).2 (recorded (frames ++ [f])) := by
  obtain ⟨hwaits, hpending, hwritten, hsamples⟩ := h
  rw [recorded_snoc]
  by_cases hskip : recorded frames = [] ∧ isIdr f = false
  · obtain ⟨hnone, hidr⟩ := hskip
    rw [if_pos ⟨hnone, hidr⟩, push_waiting (by rw [hwaits, hnone, hidr]; rfl)]
    rw [hnone] at hwaits hpending hwritten
    exact ⟨rfl, hwaits, hpending, hwritten, hsamples⟩
  · have hkeep : (r.waitIdr && !isIdr f) = false := by
      rw [hwaits, Bool.and_eq_false_imp, List.isEmpty_iff]
      intro hnone
      simpa using fun hidr => hskip ⟨hnone, hidr⟩
    rw [if_neg hskip]
    cases hp : hasPicture f with
    | false =>
      rw [push_bare hkeep hp]
      exact ⟨rfl, hwaits, hpending, hwritten, hsamples⟩
    | true =>
      rcases List.eq_nil_or_concat (recorded frames) with hnone | ⟨init, last, hlast⟩
      · rw [hnone] at hpending hwritten ⊢
        rw [push_first hkeep hp hpending]
        exact ⟨rfl, rfl, rfl, hwritten, hsamples⟩
      · rw [List.concat_eq_append] at hlast
        rw [hlast] at hpending hwritten ⊢
        rw [List.getLast?_concat] at hpending
        rw [push_next hkeep hp hpending]
        refine ⟨rfl, ?_, ?_, ?_, ?_⟩
        · simp
        · simp
        · rw [if_pos rfl, pairs_snoc, List.map_append, ← hwritten]
          rfl
        · rw [hsamples, List.length_append, List.length_singleton, UInt32.ofNat_add]
          rfl

theorem pushAll_holds (frames : List Frame) : Holds (Mp4Rec.start.pushAll frames) (recorded frames) := by
  induction frames using List.reverseRecOn with
  | nil => exact start_holds
  | append_singleton frames f ih =>
    rw [Mp4Rec.pushAll, List.foldl_append]
    exact (ih.push f).2

theorem finish_none {r : Mp4Rec} (h : r.pending = none) : r.finish (.ok ()) (.ok ()) =
    (if r.samples = 0 then .error "no frames were recorded" else .ok (), r) := by
  simp only [Mp4Rec.finish, h]

theorem finish_some {r : Mp4Rec} {last : Frame} (h : r.pending = some (pendingOf last)) :
    r.finish (.ok ()) (.ok ()) =
      (if r.samples + 1 = 0 then .error "no frames were recorded" else .ok (),
        { r with
          written := r.written ++ [sample last 33]
          samples := r.samples + 1
          pending := none }) := by
  simp only [Mp4Rec.finish, h]
  rfl

theorem ofNat_eq_zero_iff (n : Nat) : UInt32.ofNat n = 0 ↔ n % 2 ^ 32 = 0 := by
  rw [← UInt32.toNat_inj, UInt32.toNat_ofNat', UInt32.toNat_zero]

/-- What is in the file at the end, and when `finish` is not content. -/
theorem record_eq (frames : List Frame) :
    (Mp4Rec.record frames).2.written = samplesOf (recorded frames) ∧
      ((∃ e, (Mp4Rec.record frames).1 = .error e) ↔ (recorded frames).length % 2 ^ 32 = 0) := by
  obtain ⟨_, hpending, hwritten, hsamples⟩ := pushAll_holds frames
  have hempty : ∀ c : Prop, [Decidable c] →
      ((∃ e, (if c then .error "no frames were recorded" else .ok () : Except String Unit) = .error e) ↔ c) := by
    intro c _
    by_cases hc : c
    · simp [hc]
    · simp [hc]
  unfold Mp4Rec.record
  rcases List.eq_nil_or_concat (recorded frames) with hnone | ⟨init, last, hlast⟩
  · rw [hnone] at hpending hwritten ⊢
    rw [finish_none hpending]
    refine ⟨hwritten, (hempty _).trans ?_⟩
    rw [hsamples, hwritten]
    decide
  · rw [List.concat_eq_append] at hlast
    rw [hlast] at hpending hwritten ⊢
    rw [List.getLast?_concat] at hpending
    have hcount : (Mp4Rec.start.pushAll frames).written.length + 1 = (init ++ [last]).length := by
      rw [hwritten, List.length_map, length_pairs]
      simp
    rw [finish_some hpending]
    refine ⟨?_, (hempty _).trans ?_⟩
    · rw [samplesOf, List.getLast?_concat, ← hwritten]
      rfl
    · rw [hsamples, ← UInt32.ofNat_one, ← UInt32.ofNat_add, ofNat_eq_zero_iff, hcount]

/-! ## Completeness -/

theorem map_samplesOf {β : Type} {g : Mp4Sample → β} {h : Frame → β} (hg : ∀ f d, g (sample f d) = h f)
    (frames : List Frame) : (samplesOf frames).map g = frames.map h := by
  rcases List.eq_nil_or_concat frames with rfl | ⟨init, last, rfl⟩
  · rfl
  · rw [List.concat_eq_append, samplesOf, List.getLast?_concat]
    have hinit : (pairs (init ++ [last])).map (fun p => h p.1) = init.map h := by
      have hfst := congrArg (List.map h) (pairs_fst (init ++ [last]))
      rwa [List.map_map, List.dropLast_concat] at hfst
    rw [List.map_append, List.map_map, List.map_append, ← hinit]
    simp [Function.comp_def, hg]

/-- The file holds the recorded frames, the first of them in sync, and `finish`
fails if there are none. -/
def Complete (frames : List Frame) : Prop :=
  (Mp4Rec.record frames).2.written.map (·.bytes) = (recorded frames).map (avccSample ·.nal) ∧
    (Mp4Rec.record frames).2.written.map (·.isSync) = (recorded frames).map isIdr ∧
    (∀ s ∈ (Mp4Rec.record frames).2.written.head?, s.isSync = true) ∧
    ((∃ e, (Mp4Rec.record frames).1 = .error e) ↔ recorded frames = [])

theorem isIdr_head {frames : List Frame} {f : Frame} (h : (recorded frames).head? = some f) :
    isIdr f = true := by
  have hnot := List.head?_dropWhile_not (!isIdr ·) (frames.filter hasPicture)
  rw [recorded] at h
  rw [h] at hnot
  simpa using hnot

/-- Recordings are complete until the count of the samples wraps around to zero. -/
theorem complete_iff (frames : List Frame) :
    Complete frames ↔ recorded frames = [] ∨ (recorded frames).length % 2 ^ 32 ≠ 0 := by
  obtain ⟨hwritten, herror⟩ := record_eq frames
  have hbytes := map_samplesOf (g := (·.bytes)) (h := (avccSample ·.nal)) (fun _ _ => rfl) (recorded frames)
  have hsync := map_samplesOf (g := (·.isSync)) (h := isIdr) (fun _ _ => rfl) (recorded frames)
  have hfirst : ∀ s ∈ (samplesOf (recorded frames)).head?, s.isSync = true := by
    intro s hs
    have hhead := congrArg List.head? hsync
    rw [List.head?_map, List.head?_map, Option.mem_def.mp hs] at hhead
    obtain ⟨f, hf, hidr⟩ := Option.map_eq_some_iff.mp hhead.symm
    exact hidr.symm.trans (isIdr_head hf)
  unfold Complete
  rw [hwritten, herror]
  constructor
  · intro ⟨_, _, _, hfails⟩
    by_cases hnone : recorded frames = []
    · exact .inl hnone
    · exact .inr (mt hfails.mp hnone)
  · intro h
    refine ⟨hbytes, hsync, hfirst, ?_⟩
    constructor
    · exact fun hzero => h.resolve_right (not_not.mpr hzero)
    · intro hnone
      rw [hnone]
      rfl

/-- A recording of 2^32 samples, all IDRs, is reported as empty. -/
theorem complete_wraps : ¬ ∀ frames, Complete frames := by
  intro h
  have hmany : ∀ n : Nat, 0 < n → n % 2 ^ 32 = 0 →
      ∃ frames, recorded frames ≠ [] ∧ (recorded frames).length % 2 ^ 32 = 0 := by
    intro n hpos hmod
    let f : Frame := ⟨0, true, [0, 0, 0, 1, 0x65]⟩
    have hpicture : hasPicture f = true := by decide
    have hsame : recorded (List.replicate n f) = List.replicate n f := by
      rw [recorded, List.filter_replicate, if_pos hpicture]
      obtain ⟨n, rfl⟩ := Nat.exists_eq_add_of_lt hpos
      rw [List.replicate_succ, List.dropWhile_cons, if_neg (by simp [isIdr, f])]
    refine ⟨List.replicate n f, ?_, ?_⟩
    · rw [hsame, ne_eq, List.replicate_eq_nil_iff]
      omega
    · rw [hsame, List.length_replicate, hmod]
  obtain ⟨frames, hne, hmod⟩ := hmany (2 ^ 32) (by decide) (by decide)
  exact hne ((h frames).2.2.2.mp ((record_eq frames).2.mpr hmod))

end DroidMirror.Native.Mp4
