import DroidMirror.Client.Core

/-! # What one call decoded

`on_bytes` returns events only. For statements about the frames on the wire
its events are kept here together with the frames that a pending skip left out
(`annotated_events` erases them again). The skip flag is followed through such
a batch by `Flows`. -/
namespace DroidMirror
open DroidMirror.Proto DroidMirror.Lib.Incremental

/-- A video frame on the wire. -/
structure Frame where
  ptsUs : UInt64
  keyframe : Bool
  nal : List UInt8
  deriving DecidableEq

def Frame.out (f : Frame) : Out := .frame f.ptsUs f.keyframe f.nal

def Out.frame? : Out → Option Frame
  | .frame ptsUs keyframe nal => some ⟨ptsUs, keyframe, nal⟩
  | _ => none

def Item.frame? : Item → Option Frame
  | .message (.videoFrame ptsUs keyframe nal) => some ⟨ptsUs, keyframe, nal⟩
  | _ => none

/-- An event, or a frame that gave none. -/
inductive Entry where
  | event (o : Out)
  | skipped (f : Frame)
  deriving DecidableEq

namespace Entry

def out? : Entry → Option Out
  | .event o => some o
  | .skipped _ => none

def frame? : Entry → Option Frame
  | .event o => o.frame?
  | .skipped f => some f

end Entry

namespace Client

/-- An item's entries, given the events applying it gave. -/
def entries (i : Item) (outs : List Out) : List Entry :=
  match i.frame?, outs with
  | some f, [] => [.skipped f]
  | _, outs => outs.map .event

def annotate (c : Client) : List Item → List Entry
  | [] => []
  | i :: rest => entries i (applyItem c i).2 ++ annotate (applyItem c i).1 rest

/-- What `on_bytes` decodes from a chunk. -/
def annotated (c : Client) (chunk : List UInt8) : List Entry :=
  if c.fatal then []
  else
    let r := wire.parse c.handshake (c.buf ++ chunk)
    annotate c r.items ++ (errorEvent r.err).map .event

/-! ## One item -/

/-- A batch walked with the skip flag: which frames it left out, and the flag
it ends with. -/
inductive Flows : Bool → List Entry → Bool → Prop
  | nil (g : Bool) : Flows g [] g
  | event {g h : Bool} {o : Out} {rest : List Entry} : o.frame? = none → Flows g rest h →
      Flows g (.event o :: rest) h
  | frame {g h : Bool} {f : Frame} {rest : List Entry} : (g = true → f.keyframe = true) →
      Flows (g && !f.keyframe) rest h → Flows g (.event f.out :: rest) h
  | skipped {h : Bool} {f : Frame} {rest : List Entry} : f.keyframe = false → Flows true rest h →
      Flows true (.skipped f :: rest) h

theorem Flows.events {g h : Bool} {outs : List Out} {rest : List Entry}
    (ho : ∀ o ∈ outs, o.frame? = none) (hr : Flows g rest h) : Flows g (outs.map .event ++ rest) h := by
  induction outs with
  | nil => exact hr
  | cons o outs ih =>
    exact .event (ho o List.mem_cons_self) (ih fun o' h' => ho o' (List.mem_cons_of_mem _ h'))

theorem Flows.of_event {g h : Bool} {o : Out} {rest : List Entry} (ho : o.frame? = none)
    (hf : Flows g (.event o :: rest) h) : Flows g rest h := by
  cases hf with
  | event _ hr => exact hr
  | frame _ hr => cases ho

theorem Flows.of_frame {g h : Bool} {f : Frame} {rest : List Entry}
    (hf : Flows g (.event f.out :: rest) h) :
    (g = true → f.keyframe = true) ∧ Flows (g && !f.keyframe) rest h := by
  generalize ho : f.out = o at hf
  cases hf with
  | event hn hr => rw [← ho] at hn; cases hn
  | @frame _ _ f' _ hk hr =>
    obtain rfl : f = f' := Option.some.inj (congrArg Out.frame? ho)
    exact ⟨hk, hr⟩

theorem Flows.of_skipped {g h : Bool} {f : Frame} {rest : List Entry}
    (hf : Flows g (.skipped f :: rest) h) : g = true ∧ f.keyframe = false ∧ Flows true rest h := by
  cases hf with
  | skipped hk hr => exact ⟨rfl, hk, hr⟩

theorem entries_flows (c : Client) (i : Item) {rest : List Entry} {h : Bool}
    (hr : Flows (applyItem c i).1.skipUntilKey rest h) :
    Flows c.skipUntilKey (entries i (applyItem c i).2 ++ rest) h := by
  cases i with
  | handshake hs => exact Flows.events (by simp [applyItem, applyHandshake, Out.frame?]) hr
  | message m =>
    cases m with
    | videoFrame ptsUs keyframe nal =>
      cases hs : c.skipUntilKey <;> cases keyframe <;>
        simp only [applyItem, applyMessage, hs, entries, Item.frame?] at hr ⊢
      · exact .frame (f := ⟨ptsUs, false, nal⟩) (fun h => absurd h Bool.false_ne_true)
          (by simpa [hs] using hr)
      · exact .frame (f := ⟨ptsUs, true, nal⟩) (fun h => absurd h Bool.false_ne_true)
          (by simpa using hr)
      · exact .skipped rfl (by simpa [hs] using hr)
      · exact .frame (f := ⟨ptsUs, true, nal⟩) (fun _ => rfl) (by simpa using hr)
    | configure codec width height csd =>
      exact Flows.events (by simp [applyItem, applyMessage, Out.frame?]) hr
    | _ => exact Flows.events (by simp [applyItem, applyMessage, Out.frame?]) hr

theorem entries_events (c : Client) (i : Item) :
    (entries i (applyItem c i).2).filterMap Entry.out? = (applyItem c i).2 := by
  cases i with
  | handshake hs => rfl
  | message m =>
    cases m with
    | videoFrame ptsUs keyframe nal =>
      cases hs : c.skipUntilKey <;> cases keyframe <;> simp [applyItem, applyMessage, hs, entries,
        Item.frame?, Entry.out?]
    | _ => rfl

theorem entries_frames (c : Client) (i : Item) :
    (entries i (applyItem c i).2).filterMap Entry.frame? = i.frame?.toList := by
  cases i with
  | handshake hs => rfl
  | message m =>
    cases m with
    | videoFrame ptsUs keyframe nal =>
      cases hs : c.skipUntilKey <;> cases keyframe <;> simp [applyItem, applyMessage, hs, entries,
        Item.frame?, Entry.frame?, Out.frame?]
    | _ => rfl

/-! ## One call -/

theorem annotate_flows (c : Client) (is : List Item) :
    Flows c.skipUntilKey (annotate c is) (replay c is).1.skipUntilKey := by
  induction is generalizing c with
  | nil => exact .nil _
  | cons i rest ih => exact entries_flows c i (ih _)

theorem annotate_events (c : Client) (is : List Item) :
    (annotate c is).filterMap Entry.out? = (replay c is).2 := by
  induction is generalizing c with
  | nil => rfl
  | cons i rest ih => rw [annotate, List.filterMap_append, entries_events, ih]; rfl

theorem annotate_frames (c : Client) (is : List Item) :
    (annotate c is).filterMap Entry.frame? = is.filterMap Item.frame? := by
  induction is generalizing c with
  | nil => rfl
  | cons i rest ih =>
    rw [annotate, List.filterMap_append, entries_frames, ih]
    cases hi : i.frame? with
    | none => rw [List.filterMap_cons_none hi]; rfl
    | some f => rw [List.filterMap_cons_some hi]; rfl

theorem annotated_events (c : Client) (chunk : List UInt8) :
    (annotated c chunk).filterMap Entry.out? = (onBytes c chunk).2 := by
  unfold annotated
  split
  · rename_i hf
    rw [onBytes_fatal hf]
    rfl
  · rename_i hf
    rw [onBytes_parse (by simpa using hf), conclude_events, List.filterMap_append, annotate_events]
    congr 1
    cases (wire.parse c.handshake (c.buf ++ chunk)).err <;> rfl

theorem Flows.append_event {g h : Bool} {es : List Entry} {o : Out} (hf : Flows g es h)
    (ho : o.frame? = none) : Flows g (es ++ [.event o]) h := by
  induction hf with
  | nil g => exact .event ho (.nil g)
  | event h' _ ih => exact .event h' ih
  | frame h' _ ih => exact .frame h' ih
  | skipped h' _ ih => exact .skipped h' ih

theorem annotated_flows (c : Client) (chunk : List UInt8) :
    Flows c.skipUntilKey (annotated c chunk) (onBytes c chunk).1.skipUntilKey := by
  unfold annotated
  split
  · rename_i hf
    rw [onBytes_fatal hf]
    exact .nil _
  · rename_i hf
    rw [onBytes_parse (by simpa using hf), conclude]
    have hflows := annotate_flows c (wire.parse c.handshake (c.buf ++ chunk)).items
    simp only
    cases (wire.parse c.handshake (c.buf ++ chunk)).err with
    | none => simpa [errorEvent] using hflows
    | some e => exact hflows.append_event (o := .error e.toString) rfl

/-! ## What a client has read -/

/-- The phase and the bytes a client still reads from, none once it failed. -/
abbrev Reading := Option (Bool × List UInt8)

def reading (c : Client) : Reading := if c.fatal then none else some (c.handshake, c.buf)

namespace Reading

def items : Reading → List UInt8 → List Item
  | none, _ => []
  | some (p, b), chunk => (wire.parse p (b ++ chunk)).items

def after : Reading → List UInt8 → Reading
  | none, _ => none
  | some (p, b), chunk =>
    let r := wire.parse p (b ++ chunk)
    match r.err with
    | none => some (r.phase, r.rest)
    | some _ => none

/-- What a fresh client has read of a stream. -/
def of (bytes : List UInt8) : Reading := after (some (false, [])) bytes

theorem after_append (r : Reading) (a b : List UInt8) : (r.after a).after b = r.after (a ++ b) := by
  match r with
  | none => rfl
  | some (p, buf) =>
    simp only [after]
    rw [← List.append_assoc]
    cases he : (wire.parse p (buf ++ a)).err with
    | some e => rw [(wire.parse_append_error b he).1]
    | none =>
      rw [wire.parse_append b he]
      rfl

theorem items_append (r : Reading) (a b : List UInt8) :
    r.items (a ++ b) = r.items a ++ (r.after a).items b := by
  match r with
  | none => rfl
  | some (p, buf) =>
    simp only [after, items]
    rw [← List.append_assoc]
    cases he : (wire.parse p (buf ++ a)).err with
    | some e =>
      rw [(wire.parse_append_error b he).2]
      exact (List.append_nil _).symm
    | none =>
      rw [wire.parse_append b he]
      rfl

/-- What is gathered of the items chunk by chunk is what is gathered of the
items of all the bytes; an empty chunk is not read. -/
theorem foldl_chunks {α : Type} (add : α → List Item → α)
    (hadd : ∀ a is js, add (add a is) js = add a (is ++ js)) (a : α) (bytes : List UInt8)
    (chunks : List (List UInt8)) :
    chunks.foldl (fun v chunk => if chunk.isEmpty then v else (add v.1 (v.2.items chunk), v.2.after chunk))
        (add a (items (some (false, [])) bytes), of bytes) =
      (add a (items (some (false, [])) (bytes ++ chunks.flatten)), of (bytes ++ chunks.flatten)) := by
  induction chunks generalizing bytes with
  | nil => simp
  | cons chunk rest ih =>
    rw [List.foldl_cons, List.flatten_cons, ← List.append_assoc, ← ih (bytes ++ chunk)]
    congr 1
    split
    · rename_i he
      rw [List.isEmpty_iff.mp he, List.append_nil]
    · have hafter := after_append (some (false, [])) bytes chunk
      rw [items_append, ← hadd]
      exact congrArg (Prod.mk _) hafter

end Reading

theorem reading_fatal {c : Client} (h : c.fatal = true) : c.reading = none := if_pos h

theorem reading_ok {c : Client} (h : c.fatal = false) : c.reading = some (c.handshake, c.buf) :=
  if_neg (by simp [h])

theorem reading_requestKeyframeSkip (c : Client) : c.requestKeyframeSkip.reading = c.reading := rfl

theorem reading_onBytes (c : Client) (chunk : List UInt8) :
    (onBytes c chunk).1.reading = c.reading.after chunk := by
  cases hf : c.fatal with
  | true => rw [onBytes_fatal hf, reading_fatal hf]; rfl
  | false =>
    have hphase := replay_phase (p := c.handshake) (b := c.buf ++ chunk) c rfl
    have hkept := (replay_frame c (wire.parse c.handshake (c.buf ++ chunk)).items).1.trans hf
    rw [onBytes_parse hf, reading_ok hf]
    simp only [Reading.after]
    cases he : (wire.parse c.handshake (c.buf ++ chunk)).err with
    | none =>
      rw [conclude_ok c he, ← hphase]
      exact reading_ok hkept
    | some e =>
      rw [conclude, he]
      exact reading_fatal rfl

theorem annotated_frames (c : Client) (chunk : List UInt8) :
    (annotated c chunk).filterMap Entry.frame? = (c.reading.items chunk).filterMap Item.frame? := by
  unfold annotated reading
  split
  · rfl
  · rw [List.filterMap_append, annotate_frames]
    simp only [Reading.items]
    cases (wire.parse c.handshake (c.buf ++ chunk)).err <;> simp [errorEvent, Entry.frame?, Out.frame?]

/-! ## Batches without a frame left out -/

/-- No frame was left out of the batch. -/
def Unskipped (es : List Entry) : Prop := ∀ f, Entry.skipped f ∉ es

/-- A batch is whole if the skip flag is not set, or its first frame is a
keyframe. -/
theorem Flows.unskipped_iff {g h : Bool} {es : List Entry} (hf : Flows g es h) :
    Unskipped es ↔ (g = true → ∀ f ∈ (es.filterMap Entry.frame?).head?, f.keyframe = true) := by
  induction hf with
  | nil g => exact iff_of_true (fun f hf => nomatch hf) (fun _ f hf => nomatch hf)
  | @event g h o rest ho hr ih =>
    have hsame : Unskipped (.event o :: rest) ↔ Unskipped rest := by
      simp [Unskipped]
    have hnone : Entry.frame? (.event o) = none := ho
    rw [hsame, ih, List.filterMap_cons_none hnone]
  | @frame g h f rest hk hr ih =>
    have hunset : (g && !f.keyframe) = false := by
      cases hg : g with
      | false => rfl
      | true => simp [hk hg]
    have hrest : Unskipped rest := ih.mpr (by rw [hunset]; exact fun h => nomatch h)
    refine iff_of_true (fun f' hf' => ?_) (fun hg f' hf' => ?_)
    · rcases List.mem_cons.mp hf' with hf' | hf'
      · cases hf'
      · exact hrest f' hf'
    · cases hf'
      exact hk hg
  | @skipped h f rest hk hr ih =>
    refine iff_of_false (fun hno => hno f List.mem_cons_self) (fun hno => ?_)
    have := hno rfl f rfl
    rw [hk] at this
    cases this

/-- The events an item gives when no skip is pending. -/
def plainEvents (i : Item) : List Out := (applyItem new i).2

theorem entries_plain {c : Client} {i : Item} (h : Unskipped (entries i (applyItem c i).2)) :
    (applyItem c i).2 = plainEvents i := by
  cases i with
  | handshake hs => rfl
  | message m =>
    cases m with
    | videoFrame ptsUs keyframe nal =>
      cases hs : c.skipUntilKey <;> cases keyframe <;>
        simp [plainEvents, applyItem, applyMessage, hs, new]
      simp [Unskipped, entries, Item.frame?, applyItem, applyMessage, hs] at h
    | _ => rfl

theorem replay_plain {c : Client} {is : List Item} (h : Unskipped (annotate c is)) :
    (replay c is).2 = is.flatMap plainEvents := by
  induction is generalizing c with
  | nil => rfl
  | cons i rest ih =>
    have hhead : Unskipped (entries i (applyItem c i).2) := fun f hf =>
      h f (List.mem_append_left _ hf)
    have htail : Unskipped (annotate (applyItem c i).1 rest) := fun f hf =>
      h f (List.mem_append_right _ hf)
    rw [replay, entries_plain hhead, ih htail, List.flatMap_cons]

/-- An unskipped batch gives its items' events, and the error if there is one. -/
theorem annotated_plain {c : Client} {chunk : List UInt8} (h : Unskipped (annotated c chunk)) :
    ∃ err, (annotated c chunk).filterMap Entry.out? =
      (c.reading.items chunk).flatMap plainEvents ++ errorEvent err := by
  rw [annotated_events]
  unfold annotated at h
  cases hf : c.fatal with
  | true =>
    rw [onBytes_fatal hf, reading_fatal hf]
    exact ⟨none, rfl⟩
  | false =>
    rw [hf, if_neg Bool.false_ne_true] at h
    rw [onBytes_parse hf, reading_ok hf, conclude_events, replay_plain]
    · exact ⟨(wire.parse c.handshake (c.buf ++ chunk)).err, rfl⟩
    · exact fun f hf => h f (List.mem_append_left _ hf)

end Client

end DroidMirror
