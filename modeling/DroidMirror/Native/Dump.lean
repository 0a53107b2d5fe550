import Mathlib.Data.List.TakeWhile
import DroidMirror.Native.Backpressure

/-! # Dumping the stream

With `--dump-nals` there is no decode thread and no window, but the queue to
the decoder is there. The frames are kept off it; a configuration is not, and
one that finds the queue full waits for ever (`dump_stalls`). So the session
waits on some way of taking the stream exactly if the stream holds more
configurations than the queue has places (`dump_never_waits_iff`). -/
namespace DroidMirror
open DroidMirror.Proto

/-- The item makes the client ask for a decoder. -/
def Item.configures : Item → Bool
  | .handshake _ | .message (.configure ..) => true
  | .message _ => false

def Out.configures : Out → Bool
  | .configure .. => true
  | .frame .. | .deviceName _ | .error _ => false

def Entry.configures : Entry → Bool
  | .event o => o.configures
  | .skipped _ => false

namespace Client

theorem entries_configures (c : Client) (i : Item) :
    (entries i (applyItem c i).2).countP Entry.configures = if i.configures then 1 else 0 := by
  cases i with
  | handshake hs => rfl
  | message m =>
    cases m with
    | videoFrame ptsUs keyframe nal =>
      cases hs : c.skipUntilKey <;> cases keyframe <;>
        simp [applyItem, applyMessage, hs, entries, Item.frame?, Item.configures, Entry.configures,
          Out.configures]
    | _ => rfl

theorem annotate_configures (c : Client) (is : List Item) :
    (annotate c is).countP Entry.configures = is.countP Item.configures := by
  induction is generalizing c with
  | nil => rfl
  | cons i rest ih =>
    rw [annotate, List.countP_append, entries_configures, ih, List.countP_cons, Nat.add_comm]

theorem annotated_configures (c : Client) (chunk : List UInt8) :
    (annotated c chunk).countP Entry.configures = (c.reading.items chunk).countP Item.configures := by
  unfold annotated
  cases hf : c.fatal with
  | true =>
    rw [if_pos rfl, reading_fatal hf]
    rfl
  | false =>
    rw [if_neg Bool.false_ne_true, reading_ok hf, List.countP_append, annotate_configures]
    cases (Lib.Incremental.Grammar.parse wire c.handshake (c.buf ++ chunk)).err <;> rfl

end Client

end DroidMirror

namespace DroidMirror.Native
open DroidMirror.Proto DroidMirror.Lib.Incremental DroidMirror.Lib.Run
open DroidMirror.Client (Reading)

/-- How many configurations a byte stream holds up to its first bad message;
the handshake is one. -/
def configurations (bytes : List UInt8) : Nat :=
  (wire.parse false bytes).items.countP Item.configures

/-- The bytes of the chunks up to the end of the stream, an empty chunk. -/
def streamOf (chunks : List (List UInt8)) : List UInt8 :=
  (chunks.takeWhile fun chunk => !chunk.isEmpty).flatten

/-- The chunks a run reads. -/
def chunksRead {F : Type} (ls : List (Label F)) : List (List UInt8) := ls.filterMap Label.chunk?

namespace Session
variable {F : Type} [F32 F] {env : Env}

/-- The session is at a blocking send. -/
def Waits (env : Env) (s : Session) : Prop :=
  ∃ o rest, s.batch = .event o :: rest ∧ handle env { s with batch := rest } o = none

/-- However the chunks are read and handled, the session never waits. -/
def NeverWaits (F : Type) [F32 F] (env : Env) (chunks : List (List UInt8)) : Prop :=
  ∀ (ls : List (Label F)) (t : Session), chunksRead ls <+: chunks →
    run (step env) (start env) ls = some t → ¬ Waits env t

/-! ## Steps -/

/-- An event is handled, a configuration with a place in the queue; or it is one
and finds the queue full. -/
theorem handle_dump (hd : env.dumpNals = true) (s : Session) (o : Out) :
    (∃ s', handle env s o = some s' ∧ s'.client = s.client ∧ s'.batch = s.batch ∧
      s'.ended = s.ended ∧ s'.queue.length = s.queue.length + (if o.configures then 1 else 0) ∧
      (o.configures = true → s.queue.length < NAL_DEPTH)) ∨
    handle env s o = none ∧ o.configures = true ∧ NAL_DEPTH ≤ s.queue.length := by
  cases o with
  | deviceName name => exact .inl ⟨_, rfl, rfl, rfl, rfl, rfl, fun h => absurd h Bool.false_ne_true⟩
  | error text => exact .inl ⟨_, rfl, rfl, rfl, rfl, rfl, fun h => absurd h Bool.false_ne_true⟩
  | frame ptsUs keyframe nal =>
    left
    simp only [handle, offerFrame, hd, if_true]
    exact ⟨_, rfl, rfl, rfl, rfl, rfl, fun h => absurd h Bool.false_ne_true⟩
  | configure codec csd width height =>
    by_cases hq : s.queue.length < NAL_DEPTH
    · left
      simp only [handle, enqueue, hq, if_true]
      refine ⟨_, rfl, rfl, rfl, rfl, ?_, fun _ => trivial⟩
      rw [List.length_append]
      rfl
    · right
      refine ⟨?_, rfl, Nat.le_of_not_lt hq⟩
      simp only [handle, enqueue, hq, if_false, if_true]

/-- The configurations queued and those still in the batch, and what the client
has read. -/
def counted (s : Session) : Nat × Reading :=
  (s.queue.length + s.batch.countP Entry.configures, s.client.reading)

def count (v : Nat × Reading) (chunk : List UInt8) : Nat × Reading :=
  if chunk.isEmpty then v
  else (v.1 + (v.2.items chunk).countP Item.configures, v.2.after chunk)

theorem counted_step (hd : env.dumpNals = true) {s s' : Session} {l : Label F}
    (h : step env s l = some s') : s'.counted = l.chunk?.elim s.counted (count s.counted) := by
  cases l with
  | read chunk =>
    cases step_move env h with
    | read _ he hb =>
      simp only [Label.chunk?, Option.elim, count, counted, hb, read]
      split
      · rfl
      · simp [Client.reading_onBytes, Client.annotated_configures]
  | command cmd written =>
    cases step_move env h with
    | command _ _ he hb =>
      obtain ⟨hc, hbatch, hq, _, _⟩ := command_frame env s cmd written
      simp only [Label.chunk?, Option.elim, counted, hc, hbatch, hq]
  | take =>
    simp only [step, hd] at h
    cases h
  | handle =>
    simp only [step] at h
    split at h
    · cases h
    · rename_i f rest hb
      cases h
      simp [Label.chunk?, counted, hb, Entry.configures]
    · rename_i o rest hb
      rcases handle_dump hd { s with batch := rest } o with ⟨u, hu, hc, hbatch, _, hq, _⟩ | ⟨hn, _⟩
      · cases hu.symm.trans h
        simp only [Label.chunk?, Option.elim, counted, hc, hbatch, hq, hb, List.countP_cons]
        rw [Nat.add_assoc, Nat.add_comm (List.countP _ rest)]
        rfl
      · cases hn.symm.trans h

/-- What is queued and still to be queued are the configurations of the bytes
read. -/
theorem counted_run (hd : env.dumpNals = true) {ls : List (Label F)} {t : Session}
    (h : run (step env) (start env) ls = some t) :
    t.queue.length + t.batch.countP Entry.configures = configurations (bytesRead ls) := by
  have hall : Meets (step env) (fun _ _ => True) (start env) ls := meets_true _ _
  have hview := run_script (fun s l s' _ hs => counted_step hd hs) h hall
  have hof := Reading.foldl_chunks (fun n is => n + is.countP Item.configures) (fun n is js => by
    rw [List.countP_append, Nat.add_assoc]) 0 [] (ls.filterMap Label.chunk?)
  rw [List.nil_append] at hof
  have hcount := congrArg Prod.fst (hview.trans hof)
  rw [Nat.zero_add] at hcount
  exact hcount

/-- A session that has ended reads no more. -/
theorem ended_reads {ls : List (Label F)} : ∀ {s t : Session}, s.ended = true →
    run (step env) s ls = some t → chunksRead ls = [] := by
  induction ls with
  | nil => exact fun _ _ => rfl
  | cons l ls ih =>
    intro s t he h
    obtain ⟨s', hs, hrun⟩ := run_cons.mp h
    have hrest : s'.ended = true → chunksRead ls = [] := fun he' => ih he' hrun
    cases step_move env hs with
    | read chunk hopen hb => exact absurd he (hopen ▸ Bool.false_ne_true)
    | command cmd written hopen hb => exact absurd he (hopen ▸ Bool.false_ne_true)
    | _ => exact hrest he

/-- The chunks read are those of the stream, and maybe the empty one at its end. -/
theorem reads_stream {ls : List (Label F)} : ∀ {s t : Session}, run (step env) s ls = some t →
    ∃ chunks, (∀ chunk ∈ chunks, (!chunk.isEmpty) = true) ∧
      (chunksRead ls = chunks ∨ chunksRead ls = chunks ++ [[]]) := by
  induction ls with
  | nil => exact fun _ => ⟨[], (fun _ h => nomatch h), .inl rfl⟩
  | cons l ls ih =>
    intro s t h
    obtain ⟨s', hs, hrun⟩ := run_cons.mp h
    obtain ⟨chunks, hchunks, hreads⟩ := ih hrun
    cases l with
    | read chunk =>
      cases hc : chunk.isEmpty with
      | true =>
        have hend : s'.ended = true := by
          cases step_move env hs with
          | read _ he hb => rw [read, if_pos hc]
        refine ⟨[], (fun _ h => nomatch h), .inr ?_⟩
        rw [List.isEmpty_iff.mp hc]
        exact congrArg (List.cons []) (ended_reads hend hrun)
      | false =>
        refine ⟨chunk :: chunks, List.forall_mem_cons.mpr ⟨by rw [hc]; rfl, hchunks⟩, ?_⟩
        exact hreads.imp (congrArg (List.cons chunk)) (congrArg (List.cons chunk))
    | command cmd written => exact ⟨chunks, hchunks, hreads⟩
    | handle => exact ⟨chunks, hchunks, hreads⟩
    | take => exact ⟨chunks, hchunks, hreads⟩

/-- The batch is handled to its end or up to a blocking send. -/
theorem handles (hd : env.dumpNals = true) (es : List Entry) : ∀ {s : Session}, s.batch = es →
    s.queue.length ≤ NAL_DEPTH → ∃ n t, run (step (F := F) env) s (List.replicate n .handle) = some t ∧
      (Waits env t ∨ t.batch = [] ∧ t.ended = s.ended ∧ t.queue.length ≤ NAL_DEPTH) := by
  induction es with
  | nil =>
    intro s hb hq
    exact ⟨0, s, rfl, .inr ⟨hb, rfl, hq⟩⟩
  | cons e es ih =>
    intro s hb hq
    cases e with
    | skipped f =>
      obtain ⟨n, t, hrun, ht⟩ :=
        ih (s := { s with batch := es, fates := s.fates ++ [⟨f, .skipped⟩] }) rfl hq
      refine ⟨n + 1, t, run_cons.mpr ⟨_, ?_, hrun⟩, ht⟩
      simp only [step, hb]
    | event o =>
      rcases handle_dump hd { s with batch := es } o with ⟨u, hu, _, hbatch, hend, hlen, hroom⟩ | ⟨hn, _⟩
      · have hqu : u.queue.length ≤ NAL_DEPTH := by
          rw [hlen]
          split
          · rename_i ho
            exact hroom ho
          · exact hq
        obtain ⟨n, t, hrun, ht⟩ := ih hbatch hqu
        refine ⟨n + 1, t, run_cons.mpr ⟨u, ?_, hrun⟩, ?_⟩
        · simp only [step, hb]
          exact hu
        · rw [hend] at ht
          exact ht
      · exact ⟨0, s, rfl, .inl ⟨o, es, hb, hn⟩⟩

omit [F32 F] in
theorem chunksRead_handles (n : Nat) (ls : List (Label F)) :
    chunksRead (List.replicate n .handle ++ ls) = chunksRead ls := by
  induction n with
  | zero => rfl
  | succ n ih => exact ih

/-- The chunks are read and handled to their end or up to a blocking send. -/
theorem reads (hd : env.dumpNals = true) (chunks : List (List UInt8)) : ∀ {s : Session}, s.batch = [] →
    s.ended = false → s.queue.length ≤ NAL_DEPTH → (∀ chunk ∈ chunks, (!chunk.isEmpty) = true) →
    ∃ (ls : List (Label F)) (t : Session), run (step env) s ls = some t ∧ chunksRead ls <+: chunks ∧
      (Waits env t ∨ chunksRead ls = chunks ∧ t.batch = [] ∧ t.queue.length ≤ NAL_DEPTH) := by
  induction chunks with
  | nil =>
    intro s hb he hq _
    exact ⟨[], s, rfl, List.nil_prefix, .inr ⟨rfl, hb, hq⟩⟩
  | cons chunk chunks ih =>
    intro s hb he hq hne
    obtain ⟨hchunk, hrest⟩ := List.forall_mem_cons.mp hne
    have hread : s.read chunk = { s with
        client := (s.client.onBytes chunk).1, batch := s.client.annotated chunk } := by
      rw [read, if_neg (by simpa using hchunk)]
    have hstep : step (F := F) env s (.read chunk) = some (s.read chunk) := by
      simp [step, he, hb]
    obtain ⟨hqueue, _, _⟩ := read_frame s chunk
    have hroom : (s.read chunk).queue.length ≤ NAL_DEPTH := hqueue ▸ hq
    obtain ⟨n, u, hu, hend⟩ := handles (F := F) hd (s.read chunk).batch rfl hroom
    rcases hend with hwaits | ⟨hbu, heu, hqu⟩
    · refine ⟨.read chunk :: List.replicate n .handle, u, run_cons.mpr ⟨_, hstep, hu⟩, ?_, .inl hwaits⟩
      have hreads := chunksRead_handles (F := F) n []
      rw [List.append_nil] at hreads
      change chunk :: chunksRead (List.replicate n (.handle : Label F)) <+: chunk :: chunks
      rw [hreads]
      exact (List.prefix_cons_inj chunk).mpr List.nil_prefix
    · have hopen : u.ended = false := by rw [heu, hread, he]
      obtain ⟨ls, t, hrun, hprefix, ht⟩ := ih hbu hopen hqu hrest
      refine ⟨.read chunk :: (List.replicate n .handle ++ ls), t,
        run_cons.mpr ⟨_, hstep, run_append.mpr ⟨u, hu, hrun⟩⟩, ?_⟩
      change chunk :: chunksRead (List.replicate n (.handle : Label F) ++ ls) <+: chunk :: chunks ∧
        (_ ∨ chunk :: chunksRead (List.replicate n (.handle : Label F) ++ ls) = chunk :: chunks ∧ _)
      rw [chunksRead_handles]
      refine ⟨(List.prefix_cons_inj chunk).mpr hprefix, ht.imp_right ?_⟩
      exact fun hdone => ⟨congrArg (List.cons chunk) hdone.1, hdone.2⟩

/-! ## Waiting -/

/-- A session that waits does so on a full queue, with a configuration in hand. -/
theorem waits_full (hd : env.dumpNals = true) {s : Session} (h : Waits env s) :
    NAL_DEPTH ≤ s.queue.length ∧ 0 < s.batch.countP Entry.configures := by
  obtain ⟨o, rest, hb, hnone⟩ := h
  rcases handle_dump hd { s with batch := rest } o with ⟨s', hs, _⟩ | ⟨_, ho, hq⟩
  · cases hs.symm.trans hnone
  · refine ⟨hq, ?_⟩
    rw [hb]
    exact List.countP_pos_iff.mpr ⟨.event o, List.mem_cons_self, ho⟩

/-- Nothing can happen any more to a session that waits. -/
theorem waits_stalls (hd : env.dumpNals = true) {s : Session} (h : Waits env s) (l : Label F) :
    step env s l = none := by
  obtain ⟨o, rest, hb, hnone⟩ := h
  cases l with
  | read chunk => simp [step, hb]
  | command cmd written => simp [step, hb]
  | handle =>
    simp only [step, hb]
    exact hnone
  | take => simp only [step, hd]

theorem configurations_mono {a b : List UInt8} (h : a <+: b) : configurations a ≤ configurations b := by
  obtain ⟨rest, rfl⟩ := h
  have hitems := Reading.items_append (some (false, [])) a rest
  have hcount := congrArg (List.countP Item.configures) hitems
  rw [List.countP_append] at hcount
  exact Nat.le.intro hcount.symm

theorem bytesRead_stream {ls : List (Label F)} {t : Session} {chunks : List (List UInt8)}
    (h : run (step env) (start env) ls = some t) (hreads : chunksRead ls <+: chunks) :
    bytesRead ls <+: streamOf chunks := by
  obtain ⟨nonempty, hall, hread⟩ := reads_stream h
  have hbytes : bytesRead ls = nonempty.flatten := by
    change (chunksRead ls).flatten = _
    rcases hread with hread | hread <;> simp [hread]
  have hprefix : nonempty <+: chunks := by
    refine List.IsPrefix.trans ?_ hreads
    rcases hread with hread | hread <;> simp [hread]
  obtain ⟨rest, rfl⟩ := hprefix
  rw [hbytes, streamOf, List.takeWhile_append_of_pos hall, List.flatten_append]
  exact List.prefix_append ..

/-- **Dumping.** However the chunks are read and handled the session never waits
on the queue, exactly if the stream holds no more configurations than the queue
has places. -/
theorem dump_never_waits_iff (hd : env.dumpNals = true) (chunks : List (List UInt8)) :
    NeverWaits F env chunks ↔ configurations (streamOf chunks) ≤ NAL_DEPTH := by
  constructor
  · intro hnever
    have hstream : ∀ chunk ∈ chunks.takeWhile (fun chunk => !chunk.isEmpty), (!chunk.isEmpty) = true := by
      intro chunk hc
      exact List.mem_takeWhile_imp (p := fun chunk : List UInt8 => !chunk.isEmpty) hc
    obtain ⟨ls, t, hrun, hprefix, ht⟩ :=
      reads (F := F) hd _ (s := start env) rfl rfl (Nat.zero_le _) hstream
    rcases ht with hwaits | ⟨hall, hb, hq⟩
    · have hreads := hprefix.trans (List.takeWhile_prefix fun chunk : List UInt8 => !chunk.isEmpty)
      exact absurd hwaits (hnever ls t hreads hrun)
    · have hcount := counted_run hd hrun
      have hbytes : bytesRead ls = streamOf chunks := congrArg List.flatten hall
      rw [hb, hbytes] at hcount
      exact hcount ▸ hq
  · intro hle ls t hreads hrun hwaits
    obtain ⟨hfull, hmore⟩ := waits_full hd hwaits
    have hcount := counted_run hd hrun
    have hmono := configurations_mono (bytesRead_stream hrun hreads)
    omega

theorem dump_never_waits_eight : NeverWaits ℚ ⟨false, true, fun _ => true⟩
    [burst.take 20, burst.drop 20, (List.replicate 7 (Client.encode (.configure .h264 4 5 []))).flatten] :=
  (dump_never_waits_iff rfl _).mpr (by decide +kernel)

/-- A handshake and eight more configurations. -/
def resizes : List UInt8 :=
  Handshake.bytes ⟨1, .h264, 2, 3, [], "", 0⟩ ++
    (List.replicate 8 (Client.encode (.configure .h264 4 5 []))).flatten

/-- The ninth configuration finds the queue full, and nothing happens any more. -/
theorem dump_stalls :
    ¬ ∀ (env : Env) (ls : List (Label Float32)) (t : Session), env.dumpNals = true →
      run (step env) (start env) ls = some t → t.batch ≠ [] →
      ∃ l : Label Float32, step env t l ≠ none := by
  intro h
  have hrun : (run (step (F := Float32) ⟨false, true, fun _ => true⟩)
      (start ⟨false, true, fun _ => true⟩) (.read resizes :: List.replicate 9 .handle)).map
        (fun t => (t.batch, t.queue.length)) = some ([.event (.configure .h264 [] 4 5)], 8) := by
    decide +kernel
  obtain ⟨t, ht, hview⟩ := Option.map_eq_some_iff.mp hrun
  obtain ⟨hb, hq⟩ := Prod.mk.inj hview
  have hwaits : Waits ⟨false, true, fun _ => true⟩ t := by
    refine ⟨_, [], hb, ?_⟩
    simp only [handle, enqueue, hq]
    rfl
  obtain ⟨l, hl⟩ := h _ _ t rfl ht (by rw [hb]; exact List.cons_ne_nil _ _)
  exact hl (waits_stalls rfl hwaits l)

end Session

end DroidMirror.Native
