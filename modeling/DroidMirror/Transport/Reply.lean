import DroidMirror.Transport.Lossy
import DroidMirror.Transport.SyncService

/-! # The reply to a push

The reply loop stops at the payload that makes eight bytes, which a `FAIL` with
a reason has before its end. So the result is what the device said only where
that payload brings the rest along, and its reason is a text
(`push_reply_iff`). -/
namespace DroidMirror.Transport
open DroidMirror.Lib.LittleEndian DroidMirror.Lib.Chunks DroidMirror.Lib.Effects

/-! ## Complete replies -/

/-- A complete status of the sync service. -/
inductive SyncStatus where
  | okay (field : UInt32)
  | fail (reason : List UInt8) (fits : reason.length < 2 ^ 32)

namespace SyncStatus

def bytes : SyncStatus → List UInt8
  | okay field => syncMessage "OKAY" field []
  | fail reason _ => syncMessage "FAIL" (UInt32.ofNat reason.length) reason

/-- The result is what the device said, a reason byte for byte. -/
def Told (result : Except AdbError Unit) : SyncStatus → Prop
  | okay _ => result = .ok ()
  | fail reason _ => ∃ text, result = .error (.msg text) ∧ bytesOf text = reason

/-- What is reported when so many bytes of the reply were read. -/
def reported (read : Nat) : SyncStatus → Except AdbError Unit
  | okay _ => .ok ()
  | fail reason _ =>
    .error (.msg (if 8 + reason.length ≤ read then fromUtf8Lossy reason else "push failed"))

theorem length_syncReply {id : String} (hid : (bytesOf id).length = 4) (field : UInt32)
    (body : List UInt8) : (syncMessage id field body).length = 8 + body.length := by
  rw [syncMessage, List.length_append, List.length_append, length_leU32, hid]

theorem eight_le_length (status : SyncStatus) : 8 ≤ status.bytes.length := by
  cases status with
  | okay field => exact (length_syncReply rfl field []).ge
  | fail reason fits =>
    rw [bytes, length_syncReply rfl]
    exact Nat.le_add_right 8 reason.length

theorem slice_take {buf : List UInt8} {i j k : Nat} (hj : j ≤ k) (hl : j ≤ buf.length) :
    slice (buf.take k) i j = slice buf i j := by
  have hsplit : slice (buf.take k ++ buf.drop k) i j = slice (buf.take k) i j :=
    slice_append_left (by rw [List.length_take]; omega)
  rw [← hsplit, List.take_append_drop]

/-- Any front that has the id and the field in it is judged by what it has of the reason. -/
theorem verdict_take {read : Nat} (h : 8 ≤ read) (status : SyncStatus) :
    verdict (status.bytes.take read) = status.reported read := by
  cases status with
  | okay field =>
    have hokay : bytesOf "OKAY" <+: (syncMessage "OKAY" field []).take read := by
      rw [List.prefix_take_iff, syncMessage, List.append_assoc]
      exact ⟨List.prefix_append _ _, Nat.le_trans (by decide) h⟩
    exact if_pos hokay
  | fail reason fits =>
    have hbytes : bytes (fail reason fits) =
        bytesOf "FAIL" ++ leU32 (UInt32.ofNat reason.length) ++ reason := rfl
    have hlen : (bytes (fail reason fits)).length = 8 + reason.length := length_syncReply rfl _ _
    have hfail : bytesOf "FAIL" <+: bytes (fail reason fits) := by
      rw [hbytes, List.append_assoc]
      exact List.prefix_append _ _
    have hnot : ¬ bytesOf "OKAY" <+: (bytes (fail reason fits)).take read := by
      intro hokay
      have hboth := List.prefix_of_prefix_length_le (List.prefix_take_iff.mp hokay).1 hfail (Nat.le_refl 4)
      exact absurd hboth (by decide)
    have hid : (bytesOf "FAIL").length = 4 := rfl
    have hfront : 4 + (leU32 (UInt32.ofNat reason.length)).length = 8 := by rw [length_leU32]
    have hfield : (readU32 (slice ((bytes (fail reason fits)).take read) 4 8)).toNat = reason.length := by
      rw [slice_take h (by omega), hbytes, slice_middle hid hfront, readU32_leU32, UInt32.toNat_ofNat',
        Nat.mod_eq_of_lt fits]
    have htext (hread : 8 + reason.length ≤ read) :
        slice ((bytes (fail reason fits)).take read) 8 (8 + reason.length) = reason := by
      rw [slice_take hread hlen.ge, hbytes, slice_append_right (Nat.le_refl 8)]
      exact slice_all (by show reason.length ≤ 8 + reason.length - 8; omega)
    rw [verdict, if_neg hnot, if_pos (List.prefix_take_iff.mpr ⟨hfail, Nat.le_trans (by decide) h⟩)]
    simp only [hfield, List.length_take, hlen]
    by_cases hread : 8 + reason.length ≤ read
    · rw [reported, if_pos hread, if_pos (by omega), htext hread]
    · rw [reported, if_neg hread, if_neg (by omega)]

end SyncStatus

/-! ## What the loop reads -/

/-- The bytes read when the loop stops, the payload that made eight included. -/
def bytesRead : Nat → List (List UInt8) → Nat
  | n, [] => n
  | n, c :: cs => if 8 ≤ n + c.length then n + c.length else bytesRead (n + c.length) cs

theorem eight_le_bytesRead {n : Nat} {cs : List (List UInt8)} (h : 8 ≤ n + cs.flatten.length) :
    8 ≤ bytesRead n cs := by
  induction cs generalizing n with
  | nil => exact h
  | cons c cs ih =>
    rw [bytesRead]
    split
    · assumption
    · apply ih
      rw [List.flatten_cons, List.length_append] at h
      omega

/-- The loop ends with the payloads read up to that one, however the reply is cut. -/
theorem readStatus_reply (reported : AdbError → AdbError) (acc : List UInt8) {cs : List (List UInt8)}
    (hacc : acc.length < 8) (hlen : 8 ≤ acc.length + cs.flatten.length) (later : List Incoming)
    (log : List SyncEvent) : ∃ s, readStatus reported acc (cs.map .payload ++ later) log =
      (.ok ((acc ++ cs.flatten).take (bytesRead acc.length cs)), s) := by
  induction cs generalizing acc log with
  | nil =>
    rw [List.flatten_nil, List.length_nil] at hlen
    omega
  | cons c cs ih =>
    simp only [List.map_cons, List.cons_append, readStatus, bytesRead, List.flatten_cons,
      List.length_append] at hlen ⊢
    by_cases hfull : 8 ≤ acc.length + c.length
    · refine ⟨⟨cs.map .payload ++ later, log ++ [.received c]⟩, ?_⟩
      rw [if_pos hfull, if_pos hfull, ← List.append_assoc, ← List.length_append, List.take_left]
    · rw [if_neg hfull, if_neg hfull]
      obtain ⟨s, hs⟩ := ih (acc ++ c) (by rw [List.length_append]; omega)
        (by rw [List.length_append]; omega) (log ++ [.received c])
      refine ⟨s, ?_⟩
      rw [hs, List.append_assoc, List.length_append]

/-! ## The outcome of a push -/

/-- The push gets as far as its reply. -/
def Asks (answers : Answers) (write : List UInt8 → Exchange Unit) (data : List UInt8) (remote : String)
    (mode : UInt32) (now : Option UInt64) : Prop :=
  ∀ incoming, ∃ log, Returns (pushRequest answers write data remote mode now) ⟨incoming, []⟩ ()
    ⟨incoming, log⟩

/-- However the writes after the reply end, the reply decides. -/
theorem pushReply_outcome (write : List UInt8 → Exchange Unit) (reported : AdbError → AdbError)
    {s t : SyncStream} {status : List UInt8} (h : Returns (readReply reported) s status t) :
    ((pushReply write reported).run.run s).1 = verdict status := by
  obtain ⟨u, hquit⟩ := Returns.caught (write QUIT) t
  unfold pushReply
  have hclose : Returns Answers.closeStream u () (u.pass [.closed]) := Returns.modify _ u
  rw [h.run_bind, hquit.run_bind, hclose.run_bind]
  cases verdict status <;> rfl

section
variable {answers : Answers} {write : List UInt8 → Exchange Unit} {data : List UInt8} {remote : String}
  {mode : UInt32} {now : Option UInt64}

/-- A push that gets to its reply ends by as much of it as the loop reads. -/
theorem push_outcome (h : Asks answers write data remote mode now) (reported : AdbError → AdbError)
    {status : SyncStatus} {cs : List (List UInt8)} (hcs : cs.flatten = status.bytes)
    (later : List Incoming) :
    ((push answers write reported data remote mode now).run.run ⟨cs.map .payload ++ later, []⟩).1 =
      status.reported (bytesRead 0 cs) := by
  obtain ⟨log, hlog⟩ := h (cs.map .payload ++ later)
  have hlen : 8 ≤ 0 + cs.flatten.length := by
    rw [hcs]
    exact Nat.le_trans status.eight_le_length (Nat.le_add_left _ _)
  obtain ⟨s, hs⟩ := readStatus_reply reported [] (by decide) hlen later log
  have hread : Returns (readReply reported) ⟨cs.map .payload ++ later, log⟩ _ s := hs
  rw [push_split, hlog.run_bind, pushReply_outcome write reported hread, List.nil_append, hcs]
  exact status.verdict_take (eight_le_bytesRead hlen)

/-- Writes that are acknowledged take the push to its reply. -/
theorem asks_of_writes (h : answers.Acknowledge) {cut : List UInt8 → List (List UInt8)}
    (hwrite : ∀ message, message ≠ [] → ∀ s,
      Returns (write message) s () (s.pass ((cut message).map .wrote))) :
    Asks answers write data remote mode now := by
  intro incoming
  exact ⟨_, pushRequest_returns h hwrite incoming data remote mode now⟩

end

/-! ## Cuts that change nothing -/

/-- The bytes of a text are those that are UTF-8. -/
theorem exists_bytesOf_iff {bytes : List UInt8} :
    (∃ text, bytesOf text = bytes) ↔ ByteArray.IsValidUTF8 ⟨bytes.toArray⟩ := by
  constructor
  · rintro ⟨text, rfl⟩
    exact text.isValidUTF8
  · intro h
    exact ⟨⟨⟨bytes.toArray⟩, h⟩, rfl⟩

theorem bytesOf_injective {text text' : String} (h : bytesOf text = bytesOf text') : text = text' := by
  have hlossy := congrArg fromUtf8Lossy h
  rwa [fromUtf8Lossy_bytesOf, fromUtf8Lossy_bytesOf] at hlossy

/-- A reason is a text in UTF-8, and the payload that makes eight bytes brings the rest of the
reply; but for the very text by which a reply that was cut is reported. -/
def ReadWhole (cs : List (List UInt8)) : SyncStatus → Prop
  | .okay _ => True
  | .fail reason _ => ByteArray.IsValidUTF8 ⟨reason.toArray⟩ ∧
    (8 + reason.length ≤ bytesRead 0 cs ∨ reason = bytesOf "push failed")

theorem SyncStatus.Told.unique {status : SyncStatus} {a b : Except AdbError Unit} (ha : status.Told a)
    (hb : status.Told b) : a = b := by
  cases status with
  | okay field => exact Eq.trans ha (Eq.symm hb)
  | fail reason fits =>
    obtain ⟨text, rfl, htext⟩ := ha
    obtain ⟨text', rfl, htext'⟩ := hb
    rw [bytesOf_injective (htext.trans htext'.symm)]

theorem told_reported_iff (cs : List (List UInt8)) (status : SyncStatus) :
    status.Told (status.reported (bytesRead 0 cs)) ↔ ReadWhole cs status := by
  cases status with
  | okay field => exact ⟨fun _ => trivial, fun _ => rfl⟩
  | fail reason fits =>
    simp only [SyncStatus.Told, SyncStatus.reported, ReadWhole, Except.error.injEq, AdbError.msg.injEq,
      exists_eq_left', ← exists_bytesOf_iff]
    by_cases h : 8 + reason.length ≤ bytesRead 0 cs
    · rw [if_pos h, and_iff_left (.inl h)]
      constructor
      · exact fun hreason => ⟨_, hreason⟩
      · rintro ⟨text, rfl⟩
        rw [fromUtf8Lossy_bytesOf]
    · rw [if_neg h, or_iff_right h]
      constructor
      · exact fun hreason => ⟨⟨_, hreason⟩, hreason.symm⟩
      · exact fun hreason => hreason.2.symm

/-- How a push ends when the device's reads return this. -/
def endsWith (push : Exchange Unit) (incoming : List Incoming) : Except AdbError Unit :=
  (push.run.run ⟨incoming, []⟩).1

/-- **The outcome of a push.** Two cuts of one reply have the same result, and it is what the
device said, exactly where both bring the reply whole by the payload that makes eight bytes
and a reason is UTF-8. -/
theorem push_reply_iff (answers : Answers) (maxPayload : UInt32) (data : List UInt8) (remote : String)
    (mode : UInt32) (now : Option UInt64)
    (hclient : Asks answers (AdbClient.write maxPayload answers) data remote mode now)
    (hserver : Asks answers (AdbServer.write answers) data remote mode now) (status : SyncStatus)
    (cs cs' : List (List UInt8)) (hcs : cs.flatten = status.bytes) (hcs' : cs'.flatten = status.bytes)
    (later later' : List Incoming) :
    (endsWith (AdbClient.push maxPayload answers data remote mode now) (cs.map .payload ++ later) =
        endsWith (AdbClient.push maxPayload answers data remote mode now) (cs'.map .payload ++ later') ∧
      status.Told
        (endsWith (AdbClient.push maxPayload answers data remote mode now) (cs.map .payload ++ later)) ↔
      ReadWhole cs status ∧ ReadWhole cs' status) ∧
    (endsWith (AdbServer.push answers data remote mode now) (cs.map .payload ++ later) =
        endsWith (AdbServer.push answers data remote mode now) (cs'.map .payload ++ later') ∧
      status.Told (endsWith (AdbServer.push answers data remote mode now) (cs.map .payload ++ later)) ↔
      ReadWhole cs status ∧ ReadWhole cs' status) := by
  have hboth (a b : Except AdbError Unit) (ha : a = status.reported (bytesRead 0 cs))
      (hb : b = status.reported (bytesRead 0 cs')) :
      a = b ∧ status.Told a ↔ ReadWhole cs status ∧ ReadWhole cs' status := by
    rw [← told_reported_iff, ← told_reported_iff, ← ha, ← hb]
    constructor
    · intro ⟨heq, htold⟩
      exact ⟨htold, heq ▸ htold⟩
    · intro ⟨htold, htold'⟩
      exact ⟨htold.unique htold', htold⟩
  constructor
  · exact hboth _ _ (push_outcome hclient _ hcs later) (push_outcome hclient _ hcs' later')
  · exact hboth _ _ (push_outcome hserver _ hcs later) (push_outcome hserver _ hcs' later')

/-- A reply of `FAIL` with the reason `no`. -/
def refusal : SyncStatus := .fail (bytesOf "no") (by decide)

theorem client_asks (data : List UInt8) (remote : String) (mode : UInt32) (now : Option UInt64) :
    Asks allAcknowledged (AdbClient.write 4096 allAcknowledged) data remote mode now :=
  asks_of_writes allAcknowledged_acknowledge
    fun message _ s => allAcknowledged_acknowledge.client_write 4096 message s

theorem server_asks (data : List UInt8) (remote : String) (mode : UInt32) (now : Option UInt64) :
    Asks allAcknowledged (AdbServer.write allAcknowledged) data remote mode now := by
  have hwrite (message : List UInt8) (hne : message ≠ []) (s : SyncStream) :
      Returns (AdbServer.write allAcknowledged message) s () (s.pass ([message].map .wrote)) :=
    allAcknowledged_acknowledge.server_write hne s
  exact asks_of_writes allAcknowledged_acknowledge hwrite

/-- The refusal in one payload. -/
theorem push_reply_whole :
    refusal.Told
        (endsWith (AdbClient.push 4096 allAcknowledged [1] "/a" 0o644 none) [.payload refusal.bytes]) ∧
      refusal.Told
        (endsWith (AdbServer.push allAcknowledged [1] "/a" 0o644 none) [.payload refusal.bytes]) := by
  obtain ⟨hc, hs⟩ := push_reply_iff allAcknowledged 4096 [1] "/a" 0o644 none
    (client_asks _ _ _ _) (server_asks _ _ _ _) refusal [refusal.bytes] [refusal.bytes]
    (List.append_nil _) (List.append_nil _) [] []
  have hwhole : ReadWhole [refusal.bytes] refusal := ⟨exists_bytesOf_iff.mp ⟨"no", rfl⟩, .inl (by decide)⟩
  exact ⟨(hc.mpr ⟨hwhole, hwhole⟩).2, (hs.mpr ⟨hwhole, hwhole⟩).2⟩

/-- The refusal, cut after its first eight bytes. -/
def refusalCut : List Incoming := [.payload (refusal.bytes.take 8), .payload (refusal.bytes.drop 8)]

/-- Cut so, the refusal is reported without its reason. -/
theorem push_reply_cut :
    ¬ refusal.Told (endsWith (AdbClient.push 4096 allAcknowledged [1] "/a" 0o644 none) refusalCut) ∧
      ¬ refusal.Told (endsWith (AdbServer.push allAcknowledged [1] "/a" 0o644 none) refusalCut) := by
  have hcs : [refusal.bytes.take 8, refusal.bytes.drop 8].flatten = refusal.bytes := by decide
  have hclient : endsWith (AdbClient.push 4096 allAcknowledged [1] "/a" 0o644 none) refusalCut =
      .error (.msg "push failed") := push_outcome (client_asks _ _ _ _) _ hcs []
  have hserver : endsWith (AdbServer.push allAcknowledged [1] "/a" 0o644 none) refusalCut =
      .error (.msg "push failed") := push_outcome (server_asks _ _ _ _) _ hcs []
  have hnot : ¬ refusal.Told (.error (.msg "push failed")) := by
    rintro ⟨text, htext, hreason⟩
    cases htext
    exact absurd hreason (by decide)
  rw [hclient, hserver]
  exact ⟨hnot, hnot⟩

end DroidMirror.Transport
