import DroidMirror.Transport.Push

/-! # What a push delivers

The sync service reads a stream of messages: four bytes of id, a 32-bit field
and, after `SEND` and `DATA`, as many bytes as the field says. `push_delivers`
says when the payloads of a push that meets no trouble read as the file: the
field of `SEND` has to hold the length of the path and the mode. -/
namespace DroidMirror.Transport
open DroidMirror.Lib.LittleEndian DroidMirror.Lib.Chunks DroidMirror.Lib.Effects
open DroidMirror.Lib.Incremental

/-! ## The service -/

inductive SyncItem where
  | send (spec : List UInt8)
  | data (block : List UInt8)
  | done (mtime : UInt32)
  deriving DecidableEq

/-- The message in front, or the id of a message the grammar does not know. -/
def readItem (buf : List UInt8) : Except (List UInt8) (Option (SyncItem × Nat)) :=
  if buf.length < 8 then .ok none
  else
    let id := slice buf 0 4
    let field := readU32 (slice buf 4 8)
    if id = bytesOf "DONE" then .ok (some (.done field, 8))
    else if id = bytesOf "SEND" ∨ id = bytesOf "DATA" then
      let total := 8 + field.toNat
      if buf.length < total then .ok none
      else
        let body := slice buf 8 total
        .ok (some (if id = bytesOf "SEND" then .send body else .data body, total))
    else .error id

theorem readItem_takes {b : List UInt8} {m : SyncItem} {n : Nat} (h : readItem b = .ok (some (m, n))) :
    0 < n ∧ n ≤ b.length := by
  revert h
  fun_cases readItem b with
  | case2 h8 =>
    intro h
    obtain ⟨_, rfl⟩ := Prod.mk.inj (Option.some.inj (Except.ok.inj h))
    exact ⟨by decide, Nat.le_of_not_lt h8⟩
  | case4 h8 id field hid hbody total hfull =>
    intro h
    obtain ⟨_, rfl⟩ := Prod.mk.inj (Option.some.inj (Except.ok.inj h))
    exact ⟨Nat.add_pos_left (by decide) _, Nat.le_of_not_lt hfull⟩
  | _ =>
    intro h
    cases h

theorem readItem_stable {b : List UInt8} (s : List UInt8) (h : readItem b ≠ .ok none) :
    readItem (b ++ s) = readItem b := by
  by_cases h8 : b.length < 8
  · exact absurd (if_pos h8) h
  · have hid : slice (b ++ s) 0 4 = slice b 0 4 := slice_append_left (by omega)
    have hfield : slice (b ++ s) 4 8 = slice b 4 8 := slice_append_left (by omega)
    unfold readItem at h ⊢
    rw [if_neg h8] at h
    rw [if_neg h8, if_neg (by simp; omega), hid, hfield]
    dsimp only at h ⊢
    split
    · rfl
    · rename_i hdone
      rw [if_neg hdone] at h
      split
      · rename_i hbody
        rw [if_pos hbody] at h
        by_cases hfull : b.length < 8 + (readU32 (slice b 4 8)).toNat
        · exact absurd (if_pos hfull) h
        · rw [if_neg hfull, if_neg (by simp; omega), slice_append_left (by omega)]
      · rfl

def syncService : Grammar Unit UInt8 (List UInt8) SyncItem where
  decode _ := readItem
  next _ _ := ()
  takes := readItem_takes
  stable s := readItem_stable s

theorem syncService_decode (b : List UInt8) : syncService.decode () b = readItem b := rfl

/-! ## The messages of a push -/

theorem length_syncMessage {id : String} (hid : (bytesOf id).length = 4) (field : UInt32)
    (body : List UInt8) : (syncMessage id field body).length = 8 + body.length := by
  rw [syncMessage, List.length_append, List.length_append, hid, length_leU32]

theorem syncMessage_id {id : String} (hid : (bytesOf id).length = 4) (field : UInt32)
    (body s : List UInt8) : slice (syncMessage id field body ++ s) 0 4 = bytesOf id := by
  rw [syncMessage, List.append_assoc, List.append_assoc]
  exact slice_middle (a := []) rfl ((Nat.zero_add _).trans hid)

theorem syncMessage_field {id : String} (hid : (bytesOf id).length = 4) (field : UInt32)
    (body s : List UInt8) : readU32 (slice (syncMessage id field body ++ s) 4 8) = field := by
  rw [syncMessage, List.append_assoc, slice_middle hid (by rw [length_leU32]), readU32_leU32]

/-- A front part that has the first eight bytes has the message's id and field. -/
theorem front_of_syncMessage {id : String} (hid : (bytesOf id).length = 4) {field : UInt32}
    {body b : List UInt8} (hb : b <+: syncMessage id field body) (h8 : 8 ≤ b.length) :
    slice b 0 4 = bytesOf id ∧ readU32 (slice b 4 8) = field := by
  obtain ⟨t, ht⟩ := hb
  constructor
  · rw [← slice_append_left (r := t) (by omega), ht, ← syncMessage_id hid field body [], List.append_nil]
  · rw [← slice_append_left (r := t) (by omega), ht, ← List.append_nil (syncMessage ..),
      syncMessage_field hid]

theorem length_lt_of_front {b m : List UInt8} (hb : b <+: m) (hne : b ≠ m) : b.length < m.length :=
  Nat.lt_of_le_of_ne hb.length_le fun h => hne (hb.eq_of_length h)

theorem doneMessage_spells (mtime : UInt32) : syncService.Spells () (doneMessage mtime) (.done mtime) := by
  have hid : (bytesOf "DONE").length = 4 := by decide
  constructor
  · intro s
    rw [syncService_decode, readItem, if_neg (by simp [doneMessage, length_syncMessage hid]),
      doneMessage, syncMessage_id hid, if_pos rfl, syncMessage_field hid, length_syncMessage hid]
    rfl
  · intro s hs hne
    have hlt := length_lt_of_front hs hne
    rw [doneMessage, length_syncMessage hid] at hlt
    exact if_pos hlt

/-- A message with a body is read back when its field holds the body's length. -/
theorem bodyMessage_spells {id : String} (hid : (bytesOf id).length = 4)
    (hdone : bytesOf id ≠ bytesOf "DONE") (hbody : bytesOf id = bytesOf "SEND" ∨ bytesOf id = bytesOf "DATA")
    {body : List UInt8} (h : body.length < 2 ^ 32) :
    syncService.Spells () (syncMessage id (UInt32.ofNat body.length) body)
      (if bytesOf id = bytesOf "SEND" then .send body else .data body) := by
  have hfield : (UInt32.ofNat body.length).toNat = body.length := by
    rw [UInt32.toNat_ofNat', Nat.mod_eq_of_lt h]
  have hlen := length_syncMessage hid (UInt32.ofNat body.length) body
  constructor
  · intro s
    have htake : slice (syncMessage id (UInt32.ofNat body.length) body ++ s) 8 (8 + body.length) = body := by
      rw [syncMessage]
      exact slice_middle (by rw [List.length_append, hid, length_leU32]) rfl
    rw [syncService_decode, readItem, if_neg (by simp [hlen]; omega), syncMessage_id hid,
      if_neg hdone, if_pos hbody, syncMessage_field hid, hfield, hlen]
    dsimp only
    rw [if_neg (by simp [hlen]), htake]
  · intro s hs hne
    have hlt := length_lt_of_front hs hne
    by_cases h8 : s.length < 8
    · exact if_pos h8
    · obtain ⟨hfront, hsize⟩ := front_of_syncMessage hid hs (Nat.le_of_not_lt h8)
      rw [syncService_decode, readItem, if_neg h8, hfront, if_neg hdone, if_pos hbody, hsize, hfield]
      exact if_pos (hlen ▸ hlt)

theorem sendMessage_spells {spec : List UInt8} (h : spec.length < 2 ^ 32) :
    syncService.Spells () (sendMessage spec) (.send spec) :=
  bodyMessage_spells (by decide) (by decide) (.inl rfl) h

theorem dataMessage_spells {block : List UInt8} (h : block.length ≤ DATA_MAX) :
    syncService.Spells () (dataMessage block) (.data block) :=
  bodyMessage_spells (by decide) (by decide) (.inr rfl) (Nat.lt_of_le_of_lt h (by decide))

theorem blocks_spelled {blocks : List (List UInt8)} (h : ∀ block ∈ blocks, block.length ≤ DATA_MAX)
    {last : List (List UInt8 × SyncItem)} (hlast : syncService.Spelled () last) :
    syncService.Spelled () (blocks.map (fun block => (dataMessage block, .data block)) ++ last) := by
  induction blocks with
  | nil => exact hlast
  | cons block blocks ih =>
    exact .cons (dataMessage_spells (h block List.mem_cons_self))
      (ih fun b hb => h b (List.mem_cons_of_mem block hb))

/-- The items of a push. -/
def pushItems (data : List UInt8) (spec : List UInt8) (mtime : UInt32) : List SyncItem :=
  .send spec :: ((chunks DATA_MAX data).map .data ++ [.done mtime])

/-- Each message of a push with its item. -/
def pushParts (data : List UInt8) (remote : String) (mode : UInt32) (now : Option UInt64) :
    List (List UInt8 × SyncItem) :=
  (sendMessage (pushSpec remote mode), .send (pushSpec remote mode)) ::
    ((chunks DATA_MAX data).map (fun block => (dataMessage block, .data block)) ++
      [(doneMessage (mtimeOf now), .done (mtimeOf now))])

theorem pushParts_fst (data : List UInt8) (remote : String) (mode : UInt32) (now : Option UInt64) :
    (pushParts data remote mode now).map Prod.fst = pushMessages data remote mode now := by
  rw [pushParts, List.map_cons, List.map_append, List.map_map]
  rfl

theorem pushParts_snd (data : List UInt8) (remote : String) (mode : UInt32) (now : Option UInt64) :
    (pushParts data remote mode now).map Prod.snd = pushItems data (pushSpec remote mode) (mtimeOf now) := by
  rw [pushParts, List.map_cons, List.map_append, List.map_map]
  rfl

theorem pushParts_spelled (data : List UInt8) {remote : String} {mode : UInt32}
    (h : (pushSpec remote mode).length < 2 ^ 32) (now : Option UInt64) :
    syncService.Spelled () (pushParts data remote mode now) :=
  .cons (sendMessage_spells h) (blocks_spelled (fun _ => length_of_mem_chunks)
    (.cons (doneMessage_spells _) (.nil _)))

/-- The messages of a push read as its items. -/
theorem pushMessages_read (data : List UInt8) {remote : String} {mode : UInt32}
    (h : (pushSpec remote mode).length < 2 ^ 32) (now : Option UInt64) :
    let r := syncService.parse () (pushMessages data remote mode now).flatten
    r.items = pushItems data (pushSpec remote mode) (mtimeOf now) ∧ r.rest = [] ∧ r.err = none := by
  have hread := (pushParts_spelled data h now).parse fun _ => rfl
  rw [pushParts_fst, pushParts_snd] at hread
  exact hread

/-- The body of a `SEND` is as long as its field can say. -/
theorem send_short {b spec : List UInt8} (h : .send spec ∈ (syncService.parse () b).items) :
    spec.length < 2 ^ 32 := by
  obtain ⟨_, k, n, _, hread⟩ := syncService.decode_of_mem_items h
  rw [syncService_decode] at hread
  generalize b.drop k = buf at hread
  revert hread
  fun_cases readItem buf with
  | case4 h8 id field hid hbody total hfull body =>
    intro hread
    obtain ⟨hitem, _⟩ := Prod.mk.inj (Option.some.inj (Except.ok.inj hread))
    split at hitem
    · rw [← SyncItem.send.inj hitem, length_slice]
      have hlt := field.toNat_lt
      omega
    · cases hitem
  | _ =>
    intro hread
    cases hread

/-! ## Delivery -/

/-- The payloads written before the first part of the reply was read. -/
def beforeReply : List SyncEvent → List (List UInt8)
  | [] | .received _ :: _ => []
  | .wrote payload :: log => payload :: beforeReply log
  | .opened _ :: log | .closed :: log => beforeReply log

theorem beforeReply_wrote (payloads : List (List UInt8)) (log : List SyncEvent) :
    beforeReply (payloads.map .wrote ++ log) = payloads ++ beforeReply log := by
  induction payloads with
  | nil => rfl
  | cons payload payloads ih => exact congrArg (payload :: ·) ih

/-- What was written for the messages is what was written before the reply. -/
theorem beforeReply_push {taken : List (List UInt8)} (h : taken ≠ []) (dest : String)
    (payloads : List (List UInt8)) (log : List SyncEvent) :
    beforeReply ([.opened dest] ++ payloads.map .wrote ++ taken.map .received ++ log) = payloads := by
  obtain ⟨chunk, taken, rfl⟩ := List.exists_cons_of_ne_nil h
  rw [List.append_assoc, List.append_assoc]
  exact (beforeReply_wrote payloads _).trans (List.append_nil payloads)

/-- The bytes read as the file: its path and mode, its contents in blocks, and
its time, with nothing left over. -/
structure ReadsAsFile (data spec : List UInt8) (mtime : UInt32) (bytes : List UInt8) : Prop where
  items : ∃ blocks : List (List UInt8), (∀ block ∈ blocks, block.length ≤ 65536) ∧
    blocks.flatten = data ∧
    (syncService.parse () bytes).items = .send spec :: (blocks.map .data ++ [.done mtime])
  rest : (syncService.parse () bytes).rest = []
  err : (syncService.parse () bytes).err = none

/-- What the two clients did for the same file. -/
structure Delivers (maxPayload : UInt32) (data spec : List UInt8) (mtime : UInt32)
    (client server : Except AdbError Unit × SyncStream) : Prop where
  pushed : client.1 = .ok () ∧ server.1 = .ok ()
  bounded : ∀ payload ∈ beforeReply client.2.log, payload.length ≤ maxPayload.toNat
  file : ReadsAsFile data spec mtime (beforeReply client.2.log).flatten
  same : (beforeReply server.2.log).flatten = (beforeReply client.2.log).flatten

theorem readsAsFile_iff (data : List UInt8) (remote : String) (mode : UInt32) (now : Option UInt64) :
    ReadsAsFile data (pushSpec remote mode) (mtimeOf now) (pushMessages data remote mode now).flatten ↔
      (pushSpec remote mode).length < 2 ^ 32 := by
  constructor
  · intro h
    obtain ⟨blocks, _, _, hitems⟩ := h.items
    exact send_short (hitems ▸ List.mem_cons_self)
  · intro h
    obtain ⟨hitems, hrest, herr⟩ := pushMessages_read data h now
    exact ⟨⟨chunks DATA_MAX data, fun _ => length_of_mem_chunks, flatten_chunks (by decide) data, hitems⟩,
      hrest, herr⟩

theorem flatten_writeChunks (maxPayload : UInt32) (data : List UInt8) :
    (writeChunks maxPayload data).flatten = data := by
  unfold writeChunks
  split
  · rename_i hnil
    rw [List.isEmpty_iff.mp hnil]
    rfl
  · exact flatten_chunks (Nat.lt_of_lt_of_le Nat.zero_lt_one (Nat.le_max_right _ _)) data

theorem acceptedMaxPayload_pos (arg1 : UInt32) : 1 ≤ (acceptedMaxPayload arg1).toNat := by
  have hle : (4096 : UInt32) ≤ acceptedMaxPayload arg1 := by
    unfold acceptedMaxPayload
    split
    · decide
    · split
      · decide
      · rename_i hlow _
        exact UInt32.not_lt.mp hlow
  exact Nat.le_trans (by decide) (UInt32.le_iff_toNat_le.mp hle)

/-- Messages that are cut without loss keep their bytes. -/
theorem flatten_cut {cut : List UInt8 → List (List UInt8)} (h : ∀ message, (cut message).flatten = message)
    (messages : List (List UInt8)) : (messages.flatMap cut).flatten = messages.flatten := by
  induction messages with
  | nil => rfl
  | cons message messages ih =>
    rw [List.flatMap_cons, List.flatten_append, h, ih, List.flatten_cons]

/-- Both clients deliver when the messages read as the file. -/
theorem delivers_iff_readsAsFile {client server : Answers} (hclient : client.Acknowledge)
    (hserver : server.Acknowledge) {fromDevice fromServer : List Incoming}
    (hdevice : RepliesOkay fromDevice) (hreply : RepliesOkay fromServer) (arg1 : UInt32)
    (data : List UInt8) (remote : String) (mode : UInt32) (now : Option UInt64) :
    Delivers (acceptedMaxPayload arg1) data (pushSpec remote mode) (mtimeOf now)
        ((AdbClient.push (acceptedMaxPayload arg1) client data remote mode now).run.run ⟨fromDevice, []⟩)
        ((AdbServer.push server data remote mode now).run.run ⟨fromServer, []⟩) ↔
      ReadsAsFile data (pushSpec remote mode) (mtimeOf now) (pushMessages data remote mode now).flatten := by
  obtain ⟨taken, left, htaken, hc⟩ :=
    AdbClient.push_returns hclient (acceptedMaxPayload arg1) hdevice data remote mode now
  obtain ⟨taken', left', htaken', hs⟩ := AdbServer.push_returns hserver hreply data remote mode now
  rw [List.append_assoc] at hc hs
  rw [hc, hs]
  have hclientBytes := beforeReply_push htaken "sync:"
    ((pushMessages data remote mode now).flatMap (writeChunks (acceptedMaxPayload arg1)))
    ((writeChunks (acceptedMaxPayload arg1) QUIT).map .wrote ++ [.closed])
  have hserverBytes := beforeReply_push htaken' "sync:"
    ((pushMessages data remote mode now).flatMap fun message => [message]) ([QUIT].map .wrote ++ [.closed])
  have hcut := flatten_cut (flatten_writeChunks (acceptedMaxPayload arg1)) (pushMessages data remote mode now)
  have hwhole := flatten_cut (fun _ => List.flatten_singleton) (pushMessages data remote mode now)
  constructor
  · intro h
    have hfile := h.file
    rw [hclientBytes, hcut] at hfile
    exact hfile
  · intro hfile
    refine ⟨⟨rfl, rfl⟩, ?_, ?_, ?_⟩
    · rw [hclientBytes]
      intro payload hpayload
      obtain ⟨message, _, hmem⟩ := List.mem_flatMap.mp hpayload
      have hlen := writeChunks_length hmem
      rwa [Nat.max_eq_left (acceptedMaxPayload_pos arg1)] at hlen
    · rw [hclientBytes, hcut]
      exact hfile
    · rw [hclientBytes, hserverBytes, hcut, hwhole]

/-- Where every write is acknowledged and both replies start with `OKAY`, the
file is delivered exactly when the length of its path and mode fits the field
that announces them. -/
theorem push_delivers {client server : Answers} (hclient : client.Acknowledge)
    (hserver : server.Acknowledge) {fromDevice fromServer : List Incoming}
    (hdevice : RepliesOkay fromDevice) (hreply : RepliesOkay fromServer) (arg1 : UInt32)
    (data : List UInt8) (remote : String) (mode : UInt32) (now : Option UInt64) :
    Delivers (acceptedMaxPayload arg1) data (pushSpec remote mode) (mtimeOf now)
        ((AdbClient.push (acceptedMaxPayload arg1) client data remote mode now).run.run ⟨fromDevice, []⟩)
        ((AdbServer.push server data remote mode now).run.run ⟨fromServer, []⟩) ↔
      (pushSpec remote mode).length < 2 ^ 32 :=
  (delivers_iff_readsAsFile hclient hserver hdevice hreply arg1 data remote mode now).trans
    (readsAsFile_iff data remote mode now)

/-- Writes that are all acknowledged, on a stream the other side calls 1. -/
def allAcknowledged : Answers := ⟨.ok (), fun _ => some 1, fun _ => .ok ()⟩

theorem allAcknowledged_acknowledge : allAcknowledged.Acknowledge :=
  ⟨rfl, fun _ => ⟨1, by decide, rfl⟩, fun _ => rfl⟩

/-- `OKAY` and its field, in two parts. -/
def okayReply : List Incoming := [.payload (bytesOf "OK"), .payload (bytesOf "AY" ++ leU32 0)]

theorem okayReply_okay : RepliesOkay okayReply :=
  ⟨[bytesOf "OK", bytesOf "AY" ++ leU32 0], [], rfl, by decide, by decide⟩

theorem push_delivers_three :
    Delivers (acceptedMaxPayload 0) [1, 2, 3] (pushSpec "/a" 0o644) (mtimeOf (some 5))
      ((AdbClient.push (acceptedMaxPayload 0) allAcknowledged [1, 2, 3] "/a" 0o644 (some 5)).run.run
        ⟨okayReply, []⟩)
      ((AdbServer.push allAcknowledged [1, 2, 3] "/a" 0o644 (some 5)).run.run ⟨okayReply, []⟩) :=
  (push_delivers allAcknowledged_acknowledge allAcknowledged_acknowledge okayReply_okay okayReply_okay 0
    [1, 2, 3] "/a" 0o644 (some 5)).mpr (by decide)

theorem length_le_utf8Encode (cs : List Char) : cs.length ≤ cs.utf8Encode.size := by
  induction cs with
  | nil => exact Nat.zero_le _
  | cons c cs ih =>
    have hpos : 0 < [c].utf8Encode.size := by
      simp [List.utf8Encode_singleton, Char.utf8Size_pos]
    rw [List.utf8Encode_cons, ByteArray.size_append, List.length_cons]
    omega

/-- The path and the mode have a byte or more for each character of the path. -/
theorem length_le_pushSpec (cs : List Char) (mode : UInt32) :
    cs.length ≤ (pushSpec (String.ofList cs) mode).length := by
  have hle := length_le_utf8Encode cs
  have hsize : (pushSpec (String.ofList cs) mode).length =
      (String.ofList cs ++ "," ++ toString mode).toByteArray.size := rfl
  rw [hsize, String.toByteArray_append, String.toByteArray_append, String.toByteArray_ofList,
    ByteArray.size_append, ByteArray.size_append]
  omega

/-- The field of a `SEND` with 2^32 bytes or more announces fewer. -/
theorem push_misdelivers :
    ¬ Delivers (acceptedMaxPayload 0) [] (pushSpec (String.ofList (List.replicate (2 ^ 32) 'a')) 0o644)
      (mtimeOf none)
      ((AdbClient.push (acceptedMaxPayload 0) allAcknowledged [] (String.ofList (List.replicate (2 ^ 32) 'a'))
        0o644 none).run.run ⟨okayReply, []⟩)
      ((AdbServer.push allAcknowledged [] (String.ofList (List.replicate (2 ^ 32) 'a')) 0o644 none).run.run
        ⟨okayReply, []⟩) := by
  intro h
  have hfile := (delivers_iff_readsAsFile allAcknowledged_acknowledge allAcknowledged_acknowledge
    okayReply_okay okayReply_okay 0 [] _ 0o644 none).mp h
  have hlt := (readsAsFile_iff [] _ 0o644 none).mp hfile
  have hle := length_le_pushSpec (List.replicate (2 ^ 32) 'a') 0o644
  rw [List.length_replicate] at hle
  exact Nat.not_lt.mpr hle hlt

end DroidMirror.Transport
