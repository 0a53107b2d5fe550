import DroidMirror.Lib.Chunks
import DroidMirror.Lib.Effects
import DroidMirror.Transport.Acks

/-! # Pushing a file

Both clients push a file over the sync service with the same routine; they
differ in how a message is written and in how a failed read is reported. The
routine is `push`: `Answers` decide how each of its calls ends, and a
`SyncStream` records what passed. Where every write is acknowledged and the
reply starts with `OKAY`, each client returns and has written the same messages,
cut its own way (`AdbClient.push_returns`, `AdbServer.push_returns`). -/
namespace DroidMirror.Transport
open DroidMirror.Lib.LittleEndian DroidMirror.Lib.Chunks DroidMirror.Lib.Effects
open DroidMirror.Lib.Incremental

/-! ## The stream -/

inductive SyncEvent where
  | opened (dest : String)
  | wrote (payload : List UInt8)
  | received (payload : List UInt8)
  | closed
  deriving DecidableEq

/-- How a read ends; its time may run out. -/
inductive Incoming where
  | payload (data : List UInt8)
  | failed (e : AdbError)
  | timeout
  deriving DecidableEq

/-- What the reads still return, and what passed so far. When nothing is left
to return a read times out. -/
structure SyncStream where
  incoming : List Incoming
  log : List SyncEvent
  deriving DecidableEq

abbrev Exchange := Effect AdbError SyncStream

def SyncStream.pass (s : SyncStream) (events : List SyncEvent) : SyncStream :=
  { s with log := s.log ++ events }

/-- What a push meets: how the opening ends and, when so much has passed, the
remote id in the stream's slot, if it is still listed, and how a write on the
wire ends. The two calls name no stream: a push has one. -/
structure Answers where
  opened : Except AdbError Unit
  listed : Nat → Option UInt32
  written : Nat → Except AdbError Unit

namespace Answers

def openStream (answers : Answers) (dest : String) : Exchange Unit := do
  modify (·.pass [.opened dest])
  liftExcept answers.opened

/-- A payload goes out: a `WRTE` up to its acknowledgement, or a `write_all`. -/
def send (answers : Answers) (payload : List UInt8) : Exchange Unit := do
  let s ← get
  set (s.pass [.wrote payload])
  liftExcept (answers.written s.log.length)

/-- `close_stream`, which does not fail. -/
def closeStream : Exchange Unit := modify (·.pass [.closed])

end Answers

def AdbClient.write (maxPayload : UInt32) (answers : Answers) (data : List UInt8) : Exchange Unit := do
  match answers.listed (← get).log.length with
  | none => throw .closed
  | some remote =>
    if remote = 0 then throw (.msg "stream not open")
    else (writeChunks maxPayload data).forM answers.send

def AdbServer.write (answers : Answers) (data : List UInt8) : Exchange Unit := do
  if data.isEmpty then pure ()
  else
    match answers.listed (← get).log.length with
    | none => throw .closed
    | some _ => answers.send data

/-! ## The routine -/

def bytesOf (s : String) : List UInt8 := s.toUTF8.data.toList

/-- An id, a 32-bit field and what follows. -/
def syncMessage (id : String) (field : UInt32) (body : List UInt8) : List UInt8 :=
  bytesOf id ++ leU32 field ++ body

/-- `format!("{remote},{mode}")`. -/
def pushSpec (remote : String) (mode : UInt32) : List UInt8 :=
  bytesOf (remote ++ "," ++ toString mode)

def sendMessage (spec : List UInt8) : List UInt8 := syncMessage "SEND" (UInt32.ofNat spec.length) spec

def dataMessage (chunk : List UInt8) : List UInt8 :=
  syncMessage "DATA" (UInt32.ofNat chunk.length) chunk

def doneMessage (mtime : UInt32) : List UInt8 := syncMessage "DONE" mtime []

def QUIT : List UInt8 := bytesOf "QUIT\x00\x00\x00\x00"

def DATA_MAX : Nat := 64 * 1024

/-- The clock's seconds since the epoch, if it is past it. -/
def mtimeOf (now : Option UInt64) : UInt32 := (now.map (·.toUInt32)).getD 0

/-- `String::from_utf8_lossy`'s first character and the bytes it stands for.
Bytes that are not UTF-8 become U+FFFD, one for the longest front of them that a
character could begin with. -/
def lossyChar (first : UInt8) (rest : List UInt8) : Char × Nat :=
  let width :=
    if first < 0xc2 then 1 else if first < 0xe0 then 2 else if first < 0xf0 then 3
    else if first < 0xf5 then 4 else 1
  let low : UInt8 := match first with | 0xe0 => 0xa0 | 0xf0 => 0x90 | _ => 0x80
  let high : UInt8 := match first with | 0xed => 0x9f | 0xf4 => 0x8f | _ => 0xbf
  let follows := match rest with
    | [] => []
    | second :: rest =>
      if low ≤ second ∧ second ≤ high then second :: rest.takeWhile fun b => 0x80 ≤ b ∧ b ≤ 0xbf
      else []
  let taken := follows.take (width - 1)
  if taken.length + 1 < width ∨ (width = 1 ∧ 0x80 ≤ first) then ('\uFFFD', taken.length + 1)
  else
    let lead := if width = 1 then first.toNat else first.toNat % 2 ^ (7 - width)
    (Char.ofNat (taken.foldl (fun acc b => acc * 64 + b.toNat % 64) lead), width)

/-- The characters after so many bytes. -/
def lossyFrom : Nat → List UInt8 → List Char
  | _, [] => []
  | skip + 1, _ :: rest => lossyFrom skip rest
  | 0, first :: rest =>
    let (c, n) := lossyChar first rest
    c :: lossyFrom (n - 1) rest

/-- `String::from_utf8_lossy`. -/
def fromUtf8Lossy (bytes : List UInt8) : String := String.ofList (lossyFrom 0 bytes)

/-- The reads of the reply, up to the one that makes it eight bytes. -/
def readStatus (reported : AdbError → AdbError) :
    List UInt8 → List Incoming → List SyncEvent → Except AdbError (List UInt8) × SyncStream
  | _, [], log => (.error .timeout, ⟨[], log⟩)
  | _, .timeout :: incoming, log => (.error .timeout, ⟨incoming, log⟩)
  | _, .failed e :: incoming, log => (.error (reported e), ⟨incoming, log⟩)
  | acc, .payload chunk :: incoming, log =>
    let acc := acc ++ chunk
    let log := log ++ [.received chunk]
    if 8 ≤ acc.length then (.ok acc, ⟨incoming, log⟩) else readStatus reported acc incoming log

def readReply (reported : AdbError → AdbError) : Exchange (List UInt8) :=
  ExceptT.mk fun s => readStatus reported [] s.incoming s.log

/-- What the reply says. -/
def verdict (status : List UInt8) : Except AdbError Unit :=
  if bytesOf "OKAY" <+: status then .ok ()
  else if bytesOf "FAIL" <+: status then
    let n := (readU32 (slice status 4 8)).toNat
    .error (.msg (if 8 + n ≤ status.length then fromUtf8Lossy (slice status 8 (8 + n)) else "push failed"))
  else .error (.protocol "sync reply was not OKAY/FAIL")

def push (answers : Answers) (write : List UInt8 → Exchange Unit) (reported : AdbError → AdbError)
    (data : List UInt8) (remote : String) (mode : UInt32) (now : Option UInt64) : Exchange Unit := do
  answers.openStream "sync:"
  let spec := pushSpec remote mode
  write (sendMessage spec)
  (chunks DATA_MAX data).forM fun chunk => write (dataMessage chunk)
  write (doneMessage (mtimeOf now))
  let status ← readReply reported
  tryCatch (write QUIT) fun _ => pure ()
  Answers.closeStream
  liftExcept (verdict status)

def AdbClient.push (maxPayload : UInt32) (answers : Answers) : List UInt8 → String → UInt32 →
    Option UInt64 → Exchange Unit :=
  Transport.push answers (AdbClient.write maxPayload answers) fun _ => .closed

def AdbServer.push (answers : Answers) : List UInt8 → String → UInt32 → Option UInt64 → Exchange Unit :=
  Transport.push answers (AdbServer.write answers) id

/-! ## A push that meets no trouble -/

/-- Nothing stands in the way of a write. -/
structure Answers.Acknowledge (answers : Answers) : Prop where
  opened : answers.opened = .ok ()
  listed : ∀ n, ∃ remote, remote ≠ 0 ∧ answers.listed n = some remote
  written : ∀ n, answers.written n = .ok ()

/-- The reads return a reply that starts with `OKAY`, cut anyhow. -/
def RepliesOkay (incoming : List Incoming) : Prop :=
  ∃ (replies : List (List UInt8)) (later : List Incoming),
    incoming = replies.map .payload ++ later ∧ 8 ≤ replies.flatten.length ∧
      bytesOf "OKAY" <+: replies.flatten

namespace SyncStream

theorem pass_nil (s : SyncStream) : s.pass [] = s := by
  rw [pass, List.append_nil]

theorem pass_first (incoming : List Incoming) (events : List SyncEvent) :
    (⟨incoming, []⟩ : SyncStream).pass events = ⟨incoming, events⟩ := rfl

theorem pass_pass (s : SyncStream) (events events' : List SyncEvent) :
    (s.pass events).pass events' = s.pass (events ++ events') := by
  rw [pass, pass, pass, List.append_assoc]

theorem foldl_pass {α : Type} (f : α → List SyncEvent) (l : List α) (s : SyncStream) :
    l.foldl (fun s a => s.pass (f a)) s = s.pass (l.flatMap f) := by
  induction l generalizing s with
  | nil => exact s.pass_nil.symm
  | cons a l ih => rw [List.foldl_cons, ih, pass_pass, List.flatMap_cons]

end SyncStream

/-- A loop in which each pass only lets events pass. -/
theorem forM_passes {α : Type} {f : α → Exchange Unit} {events : α → List SyncEvent} {l : List α}
    (h : ∀ a ∈ l, ∀ s, Returns (f a) s () (s.pass (events a))) (s : SyncStream) :
    Returns (l.forM f) s () (s.pass (l.flatMap events)) := by
  rw [← SyncStream.foldl_pass]
  exact .forM (fun _ => True) _ (fun s _ a ha => ⟨h a ha s, trivial⟩) trivial

namespace Answers.Acknowledge
variable {answers : Answers}

theorem openStream (h : answers.Acknowledge) (dest : String) (s : SyncStream) :
    Returns (answers.openStream dest) s () (s.pass [.opened dest]) := by
  unfold Answers.openStream
  rw [h.opened]
  exact (Returns.modify _ s).bind (.pure () _)

theorem send (h : answers.Acknowledge) (payload : List UInt8) (s : SyncStream) :
    Returns (answers.send payload) s () (s.pass [.wrote payload]) := by
  unfold Answers.send
  refine (Returns.get s).bind ?_
  rw [h.written]
  exact (Returns.modify (fun _ => s.pass [.wrote payload]) s).bind (.pure () _)

/-- `AdbClient.write` cuts what it is given. -/
theorem client_write (h : answers.Acknowledge) (maxPayload : UInt32) (data : List UInt8)
    (s : SyncStream) : Returns (AdbClient.write maxPayload answers data) s ()
      (s.pass ((writeChunks maxPayload data).map .wrote)) := by
  obtain ⟨remote, hremote, hlisted⟩ := h.listed s.log.length
  refine (Returns.get s).bind ?_
  simp only [hlisted, if_neg hremote]
  rw [List.map_eq_flatMap]
  exact forM_passes (fun payload _ s => h.send payload s) s

/-- `AdbServer.write` does not. -/
theorem server_write (h : answers.Acknowledge) {data : List UInt8} (hdata : data ≠ [])
    (s : SyncStream) : Returns (AdbServer.write answers data) s () (s.pass [.wrote data]) := by
  obtain ⟨remote, _, hlisted⟩ := h.listed s.log.length
  unfold AdbServer.write
  rw [if_neg (by rwa [List.isEmpty_iff])]
  refine (Returns.get s).bind ?_
  rw [hlisted]
  exact h.send data s

end Answers.Acknowledge

/-- The reads stop inside the reply, and what they took starts like it. -/
theorem readStatus_okay (reported : AdbError → AdbError) (acc : List UInt8) {cs : List (List UInt8)}
    (hacc : acc.length < 8) (hlen : 8 ≤ (acc ++ cs.flatten).length) (later : List Incoming)
    (log : List SyncEvent) : ∃ taken left, taken ++ left = cs ∧ taken ≠ [] ∧
      8 ≤ (acc ++ taken.flatten).length ∧
      readStatus reported acc (cs.map .payload ++ later) log =
        (.ok (acc ++ taken.flatten), ⟨left.map .payload ++ later, log ++ taken.map .received⟩) := by
  induction cs generalizing acc log with
  | nil =>
    rw [List.flatten_nil, List.append_nil] at hlen
    omega
  | cons c cs ih =>
    simp only [List.map_cons, List.cons_append, readStatus]
    by_cases hfull : 8 ≤ (acc ++ c).length
    · refine ⟨[c], cs, rfl, List.cons_ne_nil c [], ?_, ?_⟩
      · rwa [List.flatten_singleton]
      · rw [if_pos hfull, List.flatten_singleton]
        rfl
    · rw [List.flatten_cons, ← List.append_assoc] at hlen
      obtain ⟨taken, left, hcs, _, hlong, heq⟩ :=
        ih _ (Nat.lt_of_not_le hfull) hlen (log ++ [.received c])
      refine ⟨c :: taken, left, by rw [← hcs]; rfl, List.cons_ne_nil c taken, ?_, ?_⟩
      · rwa [List.flatten_cons, ← List.append_assoc]
      · rw [if_neg hfull, heq, List.flatten_cons, List.append_assoc, List.append_assoc]
        rfl

theorem readReply_okay (reported : AdbError → AdbError) {incoming : List Incoming}
    (h : RepliesOkay incoming) (log : List SyncEvent) : ∃ status taken left,
      bytesOf "OKAY" <+: status ∧ taken ≠ [] ∧
        Returns (readReply reported) ⟨incoming, log⟩ status ⟨left, log ++ taken.map .received⟩ := by
  obtain ⟨replies, later, rfl, hlen, hokay⟩ := h
  obtain ⟨taken, left, hcut, hne, hlong, hread⟩ :=
    readStatus_okay reported [] (by decide) hlen later log
  refine ⟨taken.flatten, taken, left.map Incoming.payload ++ later, ?_, hne, hread⟩
  rw [← hcut, List.flatten_append] at hokay
  exact List.prefix_of_prefix_length_le hokay (List.prefix_append ..) (Nat.le_trans (by decide) hlong)

/-- The messages of a push, up to the one that asks for the reply. -/
def pushMessages (data : List UInt8) (remote : String) (mode : UInt32) (now : Option UInt64) :
    List (List UInt8) :=
  sendMessage (pushSpec remote mode) ::
    ((chunks DATA_MAX data).map dataMessage ++ [doneMessage (mtimeOf now)])

theorem syncMessage_ne_nil (id : String) (field : UInt32) (body : List UInt8) :
    syncMessage id field body ≠ [] := by
  intro hnil
  have hlen := congrArg List.length hnil
  simp [syncMessage] at hlen

theorem verdict_okay {status : List UInt8} (h : bytesOf "OKAY" <+: status) : verdict status = .ok () :=
  if_pos h

section
variable (answers : Answers) (write : List UInt8 → Exchange Unit) (data : List UInt8) (remote : String)
  (mode : UInt32) (now : Option UInt64)

/-- A push up to the message that asks for the reply. -/
def pushRequest : Exchange Unit := do
  answers.openStream "sync:"
  write (sendMessage (pushSpec remote mode))
  (chunks DATA_MAX data).forM fun chunk => write (dataMessage chunk)
  write (doneMessage (mtimeOf now))

/-- The rest of it. -/
def pushReply (reported : AdbError → AdbError) : Exchange Unit := do
  let status ← readReply reported
  tryCatch (write QUIT) fun _ => pure ()
  Answers.closeStream
  liftExcept (verdict status)

theorem push_split (reported : AdbError → AdbError) :
    push answers write reported data remote mode now =
      pushRequest answers write data remote mode now >>= fun _ => pushReply write reported := by
  simp only [push, pushRequest, pushReply, bind_assoc]

end

/-- What has been written by then is every message, each cut as the writes cut it. -/
theorem pushRequest_returns {answers : Answers} (h : answers.Acknowledge)
    {write : List UInt8 → Exchange Unit} {cut : List UInt8 → List (List UInt8)}
    (hwrite : ∀ message, message ≠ [] → ∀ s, Returns (write message) s () (s.pass ((cut message).map .wrote)))
    (incoming : List Incoming) (data : List UInt8) (remote : String) (mode : UInt32) (now : Option UInt64) :
    Returns (pushRequest answers write data remote mode now) ⟨incoming, []⟩ ()
      ⟨incoming, [.opened "sync:"] ++ ((pushMessages data remote mode now).flatMap cut).map .wrote⟩ := by
  have hlog : ((((⟨incoming, []⟩ : SyncStream).pass [.opened "sync:"]).pass
      ((cut (sendMessage (pushSpec remote mode))).map .wrote)).pass
      ((chunks DATA_MAX data).flatMap fun chunk => (cut (dataMessage chunk)).map .wrote)).pass
      ((cut (doneMessage (mtimeOf now))).map .wrote) = ⟨incoming,
        [.opened "sync:"] ++ ((pushMessages data remote mode now).flatMap cut).map .wrote⟩ := by
    rw [pushMessages, List.flatMap_cons, List.flatMap_append, List.flatMap_singleton, List.flatMap_map,
      List.map_append, List.map_append, List.map_flatMap, SyncStream.pass_pass, SyncStream.pass_pass,
      SyncStream.pass_pass, SyncStream.pass_first]
  rw [← hlog]
  unfold pushRequest
  refine (h.openStream _ _).bind ?_
  refine (hwrite (sendMessage _) (syncMessage_ne_nil _ _ _) _).bind ?_
  refine (forM_passes (fun chunk _ s => hwrite (dataMessage chunk) (syncMessage_ne_nil _ _ _) s) _).bind ?_
  exact hwrite (doneMessage _) (syncMessage_ne_nil _ _ _) _

/-- The routine over a way to write, where the reply starts with `OKAY`. -/
theorem push_returns {answers : Answers} (h : answers.Acknowledge) {write : List UInt8 → Exchange Unit}
    {cut : List UInt8 → List (List UInt8)}
    (hwrite : ∀ message, message ≠ [] → ∀ s, Returns (write message) s () (s.pass ((cut message).map .wrote)))
    (reported : AdbError → AdbError) {incoming : List Incoming} (hreply : RepliesOkay incoming)
    (data : List UInt8) (remote : String) (mode : UInt32) (now : Option UInt64) :
    ∃ taken left, taken ≠ [] ∧ Returns (push answers write reported data remote mode now) ⟨incoming, []⟩ ()
      ⟨left, [.opened "sync:"] ++ ((pushMessages data remote mode now).flatMap cut).map .wrote ++
        taken.map .received ++ (cut QUIT).map .wrote ++ [.closed]⟩ := by
  obtain ⟨status, taken, left, hokay, hne, hread⟩ := readReply_okay reported hreply
    ([.opened "sync:"] ++ ((pushMessages data remote mode now).flatMap cut).map .wrote)
  refine ⟨taken, left, hne, ?_⟩
  rw [push_split]
  refine (pushRequest_returns h hwrite incoming data remote mode now).bind ?_
  unfold pushReply
  refine hread.bind ?_
  refine ((hwrite QUIT (by decide) _).tryCatch _).bind ?_
  refine (Returns.modify _ _).bind ?_
  rw [verdict_okay hokay]
  exact .pure () _

theorem AdbClient.push_returns {answers : Answers} (h : answers.Acknowledge) (maxPayload : UInt32)
    {incoming : List Incoming} (hreply : RepliesOkay incoming) (data : List UInt8) (remote : String)
    (mode : UInt32) (now : Option UInt64) : ∃ taken left, taken ≠ [] ∧
      Returns (push maxPayload answers data remote mode now) ⟨incoming, []⟩ () ⟨left, [.opened "sync:"] ++
        ((pushMessages data remote mode now).flatMap (writeChunks maxPayload)).map .wrote ++
        taken.map .received ++ (writeChunks maxPayload QUIT).map .wrote ++ [.closed]⟩ :=
  Transport.push_returns h (fun message _ s => h.client_write maxPayload message s) _ hreply ..

theorem AdbServer.push_returns {answers : Answers} (h : answers.Acknowledge) {incoming : List Incoming}
    (hreply : RepliesOkay incoming) (data : List UInt8) (remote : String) (mode : UInt32)
    (now : Option UInt64) : ∃ taken left, taken ≠ [] ∧
      Returns (push answers data remote mode now) ⟨incoming, []⟩ () ⟨left, [.opened "sync:"] ++
        ((pushMessages data remote mode now).flatMap fun message => [message]).map .wrote ++
        taken.map .received ++ [QUIT].map .wrote ++ [.closed]⟩ :=
  Transport.push_returns h (fun _ hne s => h.server_write hne s) _ hreply ..

end DroidMirror.Transport
