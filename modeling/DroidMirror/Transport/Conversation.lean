import DroidMirror.Transport.Devices
import DroidMirror.Transport.SmartSocket

/-! # Talking to the adb server

A connection to the adb server starts with a request and a status for each. A
`Socket` is the client's end: the bytes the server sends, however they arrive,
and what was written. `connect` asks for the devices and `openService` for a
service of one of them. The service is asked for only once the device was
granted, and what follows the second `OKAY` is left for the stream
(`openService_spec`). -/
namespace DroidMirror.Transport
open DroidMirror.Lib DroidMirror.Lib.Effects DroidMirror.Lib.Trim DroidMirror.Lib.Incremental
open DroidMirror.Proto (fromUtf8)

/-! ## The socket -/

/-- The client's end of a connection: why dialling fails, if it does, the bytes that come
before reading ends and how it ends, what was written, and how many bytes more are taken
before writing fails, if it does. -/
structure Socket where
  refused : Option String
  incoming : List UInt8
  ended : String
  sent : List UInt8
  room : Option Nat
  broken : String

abbrev Talk := Effect AdbError Socket

/-- `TcpStream::connect` and what its failure is reported as. -/
def dial (addr : String) : Talk Unit := do
  match (← get).refused with
  | some e => throw (.io ("adb server " ++ addr ++ ": " ++ e))
  | none => pure ()

def readExact (n : Nat) : Talk (List UInt8) := ExceptT.mk fun s =>
  if n ≤ s.incoming.length then (.ok (s.incoming.take n), { s with incoming := s.incoming.drop n })
  else (.error (.io s.ended), { s with incoming := [] })

def writeAll (data : List UInt8) : Talk Unit := ExceptT.mk fun s =>
  match s.room with
  | none => (.ok (), { s with sent := s.sent ++ data })
  | some n =>
    if data.length ≤ n then (.ok (), { s with sent := s.sent ++ data, room := some (n - data.length) })
    else (.error (.io s.broken), { s with sent := s.sent ++ data.take n, room := some 0 })

def sendRequest (msg : String) : Talk Unit := (writeRequest msg).forM writeAll

def readHexPayload : Talk (List UInt8) := do
  let lenBuf ← readExact 4
  match fromUtf8 lenBuf with
  | none => throw (.protocol "adb length is not hex")
  | some lenStr =>
    match Hex.parseHex 64 lenStr.toList with
    | none => throw (.protocol ("adb length " ++ lenStr))
    | some len => if 0 < len then readExact len else pure []

/-- `str::trim`. -/
def trimmed (text : String) : String := String.ofList (trim isWhitespace text.toList)

def expectOkay : Talk Unit := do
  let status ← readExact 4
  if status = bytesOf "OKAY" then pure ()
  else if status = bytesOf "FAIL" then do
    let msg ← readHexPayload
    throw (.msg (trimmed (fromUtf8Lossy msg)))
  else throw (.protocol ("adb server status " ++ fromUtf8Lossy status))

/-- `AdbServer::connect`, up to the serial it keeps. -/
def AdbServer.connect (addr : String) (serial : Option String) : Talk String := do
  dial addr
  sendRequest "host:devices"
  expectOkay
  let list ← readHexPayload
  liftExcept (pickSerial (fromUtf8Lossy list) serial)

/-- `dest.trim_end_matches('\0')`. -/
def serviceOf (dest : String) : String := String.ofList (dest.toList.rdropWhile (· == '\x00'))

def transportRequest (serial : String) : String := "host:transport:" ++ serial

/-- `open_stream`, up to where the socket is split. -/
def AdbServer.openService (addr serial dest : String) : Talk Unit := do
  dial addr
  sendRequest (transportRequest serial)
  expectOkay
  sendRequest (serviceOf dest)
  expectOkay

/-! ## One exchange -/

/-- Nothing stands in the way of dialling and writing. -/
structure Socket.Clear (s : Socket) : Prop where
  dials : s.refused = none
  writes : s.room = none

theorem dial_returns {s : Socket} (h : s.Clear) (addr : String) : Returns (dial addr) s () s := by
  refine (Returns.get s).bind ?_
  rw [h.dials]
  exact .pure () s

theorem sendRequest_returns {s : Socket} (h : s.Clear) (msg : String) :
    Returns (sendRequest msg) s () { s with sent := s.sent ++ requestBytes msg } := by
  have hwrite (data : List UInt8) {t : Socket} (ht : t.Clear) :
      Returns (writeAll data) t () { t with sent := t.sent ++ data } := by
    show (match t.room with | none => _ | some n => _ : Except AdbError Unit × Socket) = _
    rw [ht.writes]
  have hbytes : s.sent ++ requestBytes msg =
      (s.sent ++ hexHeader (bytesOf msg).length) ++ bytesOf msg := by
    rw [requestBytes_eq, List.append_assoc]
  rw [hbytes]
  refine (hwrite _ h).bind ?_
  refine Returns.bind (hwrite _ ⟨h.dials, h.writes⟩) ?_
  exact .pure PUnit.unit _

theorem readExact_returns {s : Socket} {front rest : List UInt8} (h : s.incoming = front ++ rest) :
    Returns (readExact front.length) s front { s with incoming := rest } := by
  show (if front.length ≤ s.incoming.length then _ else _ : Except AdbError (List UInt8) × Socket) = _
  rw [h, if_pos (by simp), List.take_left, List.drop_left]

/-- Reading leaves what was written alone. -/
def ReadsOnly {α : Type} (x : Talk α) : Prop :=
  ∀ s, ∃ out rest, x.run.run s = (out, { s with incoming := rest })

theorem readExact_only (n : Nat) : ReadsOnly (readExact n) := by
  intro s
  show ∃ out rest, (if n ≤ s.incoming.length then _ else _ : Except AdbError (List UInt8) × Socket) = _
  split
  · exact ⟨_, _, rfl⟩
  · exact ⟨_, _, rfl⟩

namespace ReadsOnly
variable {α β : Type}

theorem pure (a : α) : ReadsOnly (pure a : Talk α) := fun s => ⟨.ok a, s.incoming, rfl⟩

theorem throw (e : AdbError) : ReadsOnly (throw e : Talk α) := fun s => ⟨.error e, s.incoming, rfl⟩

theorem bind {x : Talk α} {f : α → Talk β} (hx : ReadsOnly x) (hf : ∀ a, ReadsOnly (f a)) :
    ReadsOnly (x >>= f) := by
  intro s
  obtain ⟨out, rest, hs⟩ := hx s
  cases out with
  | error e => exact ⟨.error e, rest, Fails.bind hs f⟩
  | ok a =>
    obtain ⟨out, rest', ht⟩ := hf a { s with incoming := rest }
    exact ⟨out, rest', (Returns.run_bind hs f).trans ht⟩

end ReadsOnly

theorem readHexPayload_only : ReadsOnly readHexPayload := by
  refine (readExact_only 4).bind fun lenBuf => ?_
  split
  · exact .throw _
  · split
    · exact .throw _
    · split
      · exact readExact_only _
      · exact .pure _

/-- A payload the server announced is read whole. -/
theorem readHexPayload_returns {s : Socket} {payload rest : List UInt8} (hfit : payload.length < 65536)
    (h : s.incoming = hexHeader payload.length ++ (payload ++ rest)) :
    Returns readHexPayload s payload { s with incoming := rest } := by
  have hread := readExact_returns h
  rw [length_hexHeader hfit] at hread
  refine hread.bind ?_
  have hparse := @readHex_hexHeader payload.length (Nat.lt_trans hfit (by decide))
  rw [readHex, hexHeader, fromUtf8_bytesOf] at hparse
  rw [hexHeader, fromUtf8_bytesOf]
  simp only [Option.bind_some] at hparse
  simp only [hparse]
  split
  · exact readExact_returns rfl
  · rename_i hzero
    obtain rfl := List.length_eq_zero_iff.mp (Nat.eq_zero_of_not_pos hzero)
    exact .pure [] _

/-! ## One status -/

theorem expectOkay_returns {s : Socket} {rest : List UInt8} (h : s.incoming = bytesOf "OKAY" ++ rest) :
    Returns expectOkay s () { s with incoming := rest } := by
  refine (readExact_returns h).bind ?_
  rw [if_pos rfl]
  exact .pure () _

theorem expectOkay_fails {s : Socket} (h : ¬ bytesOf "OKAY" <+: s.incoming) :
    ∃ e rest, Fails expectOkay s e { s with incoming := rest } := by
  by_cases h4 : 4 ≤ s.incoming.length
  · obtain ⟨front, rest, hsplit, hfront⟩ :
        ∃ front rest, s.incoming = front ++ rest ∧ front.length = 4 :=
      ⟨s.incoming.take 4, s.incoming.drop 4, (List.take_append_drop 4 _).symm, by simp [h4]⟩
    have hread := readExact_returns hsplit
    rw [hfront] at hread
    have hne : front ≠ bytesOf "OKAY" := by
      rintro rfl
      exact h ⟨rest, hsplit.symm⟩
    by_cases hfail : front = bytesOf "FAIL"
    · obtain ⟨out, rest', hmsg⟩ := readHexPayload_only { s with incoming := rest }
      cases out with
      | error e =>
        refine ⟨e, rest', Fails.after hread ?_⟩
        rw [if_neg hne, if_pos hfail]
        exact Fails.bind hmsg _
      | ok msg =>
        refine ⟨.msg (trimmed (fromUtf8Lossy msg)), rest', Fails.after hread ?_⟩
        rw [if_neg hne, if_pos hfail]
        exact Fails.after hmsg (.throw _ _)
    · refine ⟨.protocol ("adb server status " ++ fromUtf8Lossy front), rest, Fails.after hread ?_⟩
      rw [if_neg hne, if_neg hfail]
      exact .throw _ _
  · refine ⟨.io s.ended, [], Fails.bind ?_ _⟩
    exact if_neg h4

/-- A refusal is reported by its reason. -/
theorem expectOkay_refused {s : Socket} {reason rest : List UInt8} (hfit : reason.length < 65536)
    (h : s.incoming = bytesOf "FAIL" ++ (hexHeader reason.length ++ (reason ++ rest))) :
    Fails expectOkay s (.msg (trimmed (fromUtf8Lossy reason))) { s with incoming := rest } := by
  refine Fails.after (readExact_returns h) ?_
  rw [if_neg (by decide), if_pos rfl]
  exact Fails.after (readHexPayload_returns hfit rfl) (.throw _ _)

/-! ## Opening a service -/

/-- The requests a server reads off a connection. -/
def requestsRead (sent : List UInt8) : Parse Unit UInt8 Unit String := requests.parse () sent

/-- Against any bytes from the server. -/
structure Opening (serial dest : String) (incoming : List UInt8) (out : Except AdbError Unit)
    (t : Socket) : Prop where
  /-- A service is opened exactly if both requests are granted. -/
  granted : out = .ok () ↔ bytesOf "OKAY" ++ bytesOf "OKAY" <+: incoming
  /-- What follows is left on the socket. -/
  stream : out = .ok () → incoming = bytesOf "OKAY" ++ bytesOf "OKAY" ++ t.incoming
  /-- The server reads the two requests, and the service's only if the device was granted. -/
  asked : requestsRead t.sent = ⟨if bytesOf "OKAY" <+: incoming
    then [transportRequest serial, serviceOf dest] else [transportRequest serial], (), [], none⟩
  /-- A refusal of either is reported by its reason. -/
  refused : ∀ reason rest, reason.length < 65536 →
    (incoming = bytesOf "FAIL" ++ (hexHeader reason.length ++ (reason ++ rest)) ∨
      incoming = bytesOf "OKAY" ++ (bytesOf "FAIL" ++ (hexHeader reason.length ++ (reason ++ rest)))) →
    out = .error (.msg (trimmed (fromUtf8Lossy reason)))

theorem requestsRead_one {msg : String} (h : RequestFits msg) :
    requestsRead (requestBytes msg) = ⟨[msg], (), [], none⟩ := by
  have hread := (requests_read_iff [msg]).mpr (List.forall_mem_singleton.mpr h)
  rwa [List.flatMap_singleton] at hread

theorem requestsRead_two {msg msg' : String} (h : RequestFits msg) (h' : RequestFits msg') :
    requestsRead (requestBytes msg ++ requestBytes msg') = ⟨[msg, msg'], (), [], none⟩ := by
  have hread := (requests_read_iff [msg, msg']).mpr
    (List.forall_mem_cons.mpr ⟨h, List.forall_mem_singleton.mpr h'⟩)
  rwa [List.flatMap_cons, List.flatMap_singleton] at hread

theorem okay_ne_fail {rest rest' : List UInt8} : bytesOf "OKAY" ++ rest ≠ bytesOf "FAIL" ++ rest' := by
  intro h
  have hfront := List.append_inj_left h rfl
  revert hfront
  decide

/-- The reason that was read is the one that is reported. -/
theorem expectOkay_reason {s t : Socket} {e : AdbError} {reason rest : List UInt8} (h : Fails expectOkay s e t)
    (hfit : reason.length < 65536)
    (hs : s.incoming = bytesOf "FAIL" ++ (hexHeader reason.length ++ (reason ++ rest))) :
    e = .msg (trimmed (fromUtf8Lossy reason)) := by
  have hboth := h.symm.trans (expectOkay_refused hfit hs)
  exact Except.error.inj (Prod.mk.inj hboth).1

/-- A service is opened exactly if the server grants both requests. It has then read these two,
and the stream starts right after its second status. -/
theorem AdbServer.openService_spec (addr : String) {serial dest : String}
    (hserial : RequestFits (transportRequest serial)) (hservice : RequestFits (serviceOf dest))
    {s : Socket} (hs : s.Clear) (hsent : s.sent = []) :
    Opening serial dest s.incoming ((AdbServer.openService addr serial dest).run.run s).1
      ((AdbServer.openService addr serial dest).run.run s).2 := by
  have hfirst := sendRequest_returns hs (transportRequest serial)
  rw [hsent, List.nil_append] at hfirst
  unfold AdbServer.openService
  rw [(dial_returns hs addr).run_bind, hfirst.run_bind]
  by_cases hone : bytesOf "OKAY" <+: s.incoming
  · obtain ⟨rest, hrest⟩ := hone
    have hokay : Returns expectOkay { s with sent := requestBytes (transportRequest serial) } ()
        { s with sent := requestBytes (transportRequest serial), incoming := rest } :=
      expectOkay_returns hrest.symm
    have hsecond := sendRequest_returns (s := { s with
      sent := requestBytes (transportRequest serial), incoming := rest }) ⟨hs.dials, hs.writes⟩
      (serviceOf dest)
    have hread := requestsRead_two hserial hservice
    rw [hokay.run_bind, hsecond.run_bind, ← hrest]
    by_cases htwo : bytesOf "OKAY" <+: rest
    · obtain ⟨raw, rfl⟩ := htwo
      have hgranted : Returns expectOkay { s with
          sent := requestBytes (transportRequest serial) ++ requestBytes (serviceOf dest)
          incoming := bytesOf "OKAY" ++ raw } () { s with
          sent := requestBytes (transportRequest serial) ++ requestBytes (serviceOf dest)
          incoming := raw } := expectOkay_returns rfl
      rw [hgranted, ← List.append_assoc]
      refine ⟨iff_of_true rfl (List.prefix_append ..), fun _ => rfl, ?_, ?_⟩
      · rw [if_pos (by rw [List.append_assoc]; exact List.prefix_append ..)]
        exact hread
      · rintro reason later - (h | h)
        · rw [List.append_assoc] at h
          exact absurd h okay_ne_fail
        · rw [List.append_assoc, List.append_cancel_left_eq] at h
          exact absurd h okay_ne_fail
    · obtain ⟨e, left, hfails⟩ := expectOkay_fails (s := { s with
        sent := requestBytes (transportRequest serial) ++ requestBytes (serviceOf dest)
        incoming := rest }) htwo
      have hnot : ¬ bytesOf "OKAY" ++ bytesOf "OKAY" <+: bytesOf "OKAY" ++ rest := by
        rw [List.prefix_append_right_inj]
        exact htwo
      rw [hfails]
      refine ⟨iff_of_false (fun h => nomatch h) hnot, (fun h => nomatch h), ?_, ?_⟩
      · rw [if_pos (List.prefix_append ..)]
        exact hread
      · rintro reason later hfit (h | h)
        · exact absurd h okay_ne_fail
        · rw [expectOkay_reason hfails hfit (List.append_cancel_left h)]
  · obtain ⟨e, left, hfails⟩ := expectOkay_fails (s := { s with
      sent := requestBytes (transportRequest serial) }) hone
    have hout := hfails.bind fun _ => do
      sendRequest (serviceOf dest)
      expectOkay
    have hnot : ¬ bytesOf "OKAY" ++ bytesOf "OKAY" <+: s.incoming :=
      fun h => hone ((List.prefix_append ..).trans h)
    rw [hout]
    refine ⟨iff_of_false (fun h => nomatch h) hnot, (fun h => nomatch h), ?_, ?_⟩
    · rw [if_neg hone]
      exact requestsRead_one hserial
    · rintro reason later hfit (h | h)
      · rw [expectOkay_reason hfails hfit h]
      · exact absurd (h ▸ List.prefix_append ..) hone

/-- The device is granted and the service is not. -/
theorem AdbServer.openService_shell :
    let s : Socket := ⟨none, bytesOf "OKAYFAIL0004nope", "", [], none, ""⟩
    Opening "94LBA009AC" "shell:id" s.incoming
      ((AdbServer.openService "127.0.0.1:5037" "94LBA009AC" "shell:id").run.run s).1
      ((AdbServer.openService "127.0.0.1:5037" "94LBA009AC" "shell:id").run.run s).2 :=
  AdbServer.openService_spec "127.0.0.1:5037" (by decide) (by decide) ⟨rfl, rfl⟩ rfl

/-! ## Connecting -/

/-- The bytes of a server that lists its devices. -/
def listed (devices : List Device) : List UInt8 :=
  bytesOf "OKAY" ++ (hexHeader (bytesOf (listing devices)).length ++ bytesOf (listing devices))

/-- Connecting to a server that lists its devices picks the one to choose, and none where
there is none to choose. -/
theorem AdbServer.connect_ok_iff {devices : List Device} (h : ∀ d ∈ devices, d.Listed)
    (hfit : (bytesOf (listing devices)).length < 65536) (addr : String) (want : Option String)
    (serial : String) {s : Socket} (hs : s.Clear) (hin : s.incoming = listed devices) :
    ((AdbServer.connect addr want).run.run s).1 = .ok serial ↔ Chosen devices serial want := by
  have hsend := sendRequest_returns hs "host:devices"
  have hokay : Returns expectOkay { s with sent := s.sent ++ requestBytes "host:devices" } ()
      { s with
        sent := s.sent ++ requestBytes "host:devices"
        incoming := hexHeader (bytesOf (listing devices)).length ++ bytesOf (listing devices) } :=
    expectOkay_returns hin
  have hlist : Returns readHexPayload { s with
        sent := s.sent ++ requestBytes "host:devices"
        incoming := hexHeader (bytesOf (listing devices)).length ++ bytesOf (listing devices) }
      (bytesOf (listing devices)) { s with
        sent := s.sent ++ requestBytes "host:devices"
        incoming := [] } := by
    have hall : hexHeader (bytesOf (listing devices)).length ++ bytesOf (listing devices) =
        hexHeader (bytesOf (listing devices)).length ++ (bytesOf (listing devices) ++ []) := by
      rw [List.append_nil]
    exact readHexPayload_returns hfit hall
  unfold AdbServer.connect
  rw [(dial_returns hs addr).run_bind, hsend.run_bind, hokay.run_bind, hlist.run_bind,
    fromUtf8Lossy_bytesOf, ← pickSerial_ok_iff h]
  cases pickSerial (listing devices) want with
  | error e => exact Iff.rfl
  | ok picked => exact Iff.rfl

/-- A phone is preferred to an emulator. -/
theorem AdbServer.connect_phone :
    ((AdbServer.connect "127.0.0.1:5037" none).run.run
      ⟨none, listed [⟨"emulator-5554", "device"⟩, ⟨"94LBA009AC", "device"⟩], "", [], none, ""⟩).1 =
        .ok "94LBA009AC" := by
  have hstate : Word "device" := ⟨⟨by decide, by decide, by decide⟩, by decide, by decide⟩
  have hemulator : Word "emulator-5554" := ⟨⟨by decide, by decide, by decide⟩, by decide, by decide⟩
  have hphone : Word "94LBA009AC" := ⟨⟨by decide, by decide, by decide⟩, by decide, by decide⟩
  have hlisted := List.forall_mem_cons.mpr
    ⟨(⟨hemulator, hstate⟩ : Device.Listed ⟨"emulator-5554", "device"⟩),
      List.forall_mem_singleton.mpr (⟨hphone, hstate⟩ : Device.Listed ⟨"94LBA009AC", "device"⟩)⟩
  exact (AdbServer.connect_ok_iff hlisted (by decide) "127.0.0.1:5037" none "94LBA009AC" ⟨rfl, rfl⟩ rfl).mpr
    (.inl (by decide))

end DroidMirror.Transport
