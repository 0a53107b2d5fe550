import DroidMirror.Lib.Trim
import DroidMirror.Transport.Auth
import DroidMirror.Transport.Push

/-! # The connection handshake

`AdbClient::connect` introduces itself and answers the device's tokens until the
device introduces itself. `exchange` says what `handshake` comes to in one piece:
the packets it writes, for as long as writing goes well, and how it ends. The
first token is signed, every further one is answered by the public key, and only
the device's `CNXN` connects (`handshake_exchange`). -/
namespace DroidMirror.Transport
open DroidMirror.Lib.Effects DroidMirror.Lib.Trim

/-! ## The key -/

def ADB_VERSION : UInt32 := 0x01000001

def CNXN_BANNER : List UInt8 :=
  bytesOf "host::features=shell_v2,cmd,stat_v2,ls_v2,fixed_push_mkdir,apex,abb\x00"

def AUTH_TOKEN : UInt32 := 1
def AUTH_SIGNATURE : UInt32 := 2
def AUTH_RSAPUBLICKEY : UInt32 := 3

/-- A key pair, with the signature of a token and the base64 of a blob as other crates make them. -/
structure AdbKeyPair where
  publicKey : RsaPublicKey
  sign : List UInt8 → List UInt8
  base64 : List UInt8 → List UInt8

namespace AdbKeyPair

def signToken (key : AdbKeyPair) (token : List UInt8) : Except AdbError (List UInt8) :=
  .ok (key.sign token)

def androidPublicKey (key : AdbKeyPair) (name : String) : Except AdbError (List UInt8) := do
  let raw ← encodeAndroidPubkey key.publicKey
  return key.base64 raw ++ [0x20] ++ bytesOf name ++ [0]

end AdbKeyPair

/-! ## The handshake -/

/-- How a `read_packet` ends, or the sixty seconds do. -/
inductive Arrival where
  | packet (pkt : Packet) (data : List UInt8)
  | failed (e : AdbError)
  | timeout

/-- What the reads still return, what was written, and how many more packets are taken
before a write fails, if one does. When nothing is left to return the time runs out. -/
structure Link where
  incoming : List Arrival
  written : List PacketCall
  room : Option Nat
  broken : AdbError

abbrev Linked := Effect AdbError Link

/-- `write_packet`. -/
def sendPacket (c : PacketCall) : Linked Unit := ExceptT.mk fun s =>
  match s.room with
  | none => (.ok (), { s with written := s.written ++ [c] })
  | some 0 => (.error s.broken, s)
  | some (n + 1) => (.ok (), { s with written := s.written ++ [c], room := some n })

structure Banner where
  banner : String
  maxPayload : UInt32
  deriving DecidableEq

/-- `{:?}`. -/
def Command.debug : Command → String
  | .sync => "Sync"
  | .cnxn => "Cnxn"
  | .auth => "Auth"
  | .open_ => "Open"
  | .okay => "Okay"
  | .clse => "Clse"
  | .wrte => "Wrte"

def unexpected (command : Command) : AdbError :=
  .protocol ("unexpected " ++ command.debug ++ " during connect")

/-- The device introduced itself. -/
def bannerOf (pkt : Packet) (data : List UInt8) : Banner :=
  { banner := String.ofList (trim (· == '\x00') (fromUtf8Lossy data).toList)
    maxPayload := acceptedMaxPayload pkt.arg1 }

/-- The two arms for a token. -/
def answerToken (key : AdbKeyPair) (pubkey : List UInt8) (sentSignature : Bool) (token : List UInt8) :
    Linked Unit := do
  if !sentSignature then
    let sig ← liftExcept (key.signToken token)
    sendPacket ⟨.auth, AUTH_SIGNATURE, 0, sig⟩
  else sendPacket ⟨.auth, AUTH_RSAPUBLICKEY, 0, pubkey⟩

def handshakeLoop (key : AdbKeyPair) (pubkey : List UInt8) : Bool → List Arrival → Linked Banner
  | _, [] => throw .timeout
  | _, .timeout :: _ => throw .timeout
  | _, .failed e :: _ => throw e
  | sentSignature, .packet pkt data :: rest => do
    modify fun s => { s with incoming := rest }
    match pkt.command with
    | .cnxn => pure (bannerOf pkt data)
    | .auth =>
      if pkt.arg0 = AUTH_TOKEN then do
        answerToken key pubkey sentSignature data
        handshakeLoop key pubkey true rest
      else throw (unexpected .auth)
    | other => throw (unexpected other)

def CNXN : PacketCall := ⟨.cnxn, ADB_VERSION, ADB_MAXDATA, CNXN_BANNER⟩

def handshake (key : AdbKeyPair) : Linked Banner := do
  sendPacket CNXN
  let pubkey ← liftExcept (key.androidPublicKey "droidmirror@host")
  let s ← get
  handshakeLoop key pubkey false s.incoming

/-! ## In one piece -/

/-- The token of an `AUTH` packet that asks for an answer. -/
def Arrival.token : Arrival → Option (List UInt8)
  | .packet pkt data => if pkt.command = .auth ∧ pkt.arg0 = AUTH_TOKEN then some data else none
  | _ => none

/-- The tokens in front of anything else. -/
def tokensOf : List Arrival → List (List UInt8)
  | [] => []
  | a :: rest =>
    match a.token with
    | some data => data :: tokensOf rest
    | none => []

/-- What follows them. -/
def afterTokens : List Arrival → Option Arrival
  | [] => none
  | a :: rest =>
    match a.token with
    | some _ => afterTokens rest
    | none => some a

/-- The answers to tokens, the first of which is signed unless one was before. -/
def answers (key : AdbKeyPair) (pubkey : List UInt8) : Bool → List (List UInt8) → List PacketCall
  | _, [] => []
  | false, token :: tokens => ⟨.auth, AUTH_SIGNATURE, 0, key.sign token⟩ :: answers key pubkey true tokens
  | true, _ :: tokens => ⟨.auth, AUTH_RSAPUBLICKEY, 0, pubkey⟩ :: answers key pubkey true tokens

/-- How the handshake ends at what is no token. -/
def concluded : Option Arrival → Except AdbError Banner
  | none => .error .timeout
  | some .timeout => .error .timeout
  | some (.failed e) => .error e
  | some (.packet pkt data) => if pkt.command = .cnxn then .ok (bannerOf pkt data) else .error (unexpected pkt.command)

/-- The packets to write and the end. -/
def exchange (key : AdbKeyPair) (arrivals : List Arrival) : List PacketCall × Except AdbError Banner :=
  match key.androidPublicKey "droidmirror@host" with
  | .error e => ([CNXN], .error e)
  | .ok pubkey => (CNXN :: answers key pubkey false (tokensOf arrivals), concluded (afterTokens arrivals))

/-- As many packets as there is room for. -/
def fitting (room : Option Nat) (packets : List PacketCall) : List PacketCall :=
  match room with
  | none => packets
  | some n => packets.take n

/-- A run that writes packets, for as long as there is room, and ends as it would. -/
def Performs (x : Linked Banner) (packets : List PacketCall) (out : Except AdbError Banner) : Prop :=
  ∀ s : Link, (x.run.run s).2.written = s.written ++ fitting s.room packets ∧
    (x.run.run s).1 = if fitting s.room packets = packets then out else .error s.broken

theorem Performs.done {x : Linked Banner} {out : Except AdbError Banner}
    (h : ∀ s : Link, (x.run.run s).1 = out ∧ (x.run.run s).2.written = s.written) : Performs x [] out := by
  intro s
  have hnone : fitting s.room [] = [] := by
    unfold fitting
    split
    · rfl
    · exact List.take_nil
  rw [hnone, if_pos rfl, List.append_nil]
  exact ⟨(h s).2, (h s).1⟩

/-- One packet more in front. -/
theorem Performs.send {x : Linked Banner} {packets : List PacketCall} {out : Except AdbError Banner}
    (h : Performs x packets out) (c : PacketCall) :
    Performs (do sendPacket c; x) (c :: packets) out := by
  intro s
  rcases hroom : s.room with _ | _ | n
  · have hsend : Returns (sendPacket c) s () { s with written := s.written ++ [c] } := by
      show (match s.room with | none => _ | some 0 => _ | some (n + 1) => _ : Except AdbError Unit × Link) = _
      rw [hroom]
    obtain ⟨hwritten, hout⟩ := h { s with written := s.written ++ [c] }
    rw [hsend.run_bind]
    simp only [hroom, fitting, if_pos] at hwritten hout ⊢
    exact ⟨hwritten.trans (List.append_assoc ..), hout⟩
  · have hfails : Fails (sendPacket c) s s.broken s := by
      show (match s.room with | none => _ | some 0 => _ | some (n + 1) => _ : Except AdbError Unit × Link) = _
      rw [hroom]
    have hrun := hfails.bind fun _ => x
    rw [hrun]
    refine ⟨(List.append_nil _).symm, ?_⟩
    rw [if_neg]
    exact fun heq => nomatch heq
  · have hsend : Returns (sendPacket c) s () { s with written := s.written ++ [c], room := some n } := by
      show (match s.room with | none => _ | some 0 => _ | some (n + 1) => _ : Except AdbError Unit × Link) = _
      rw [hroom]
    obtain ⟨hwritten, hout⟩ := h { s with written := s.written ++ [c], room := some n }
    rw [hsend.run_bind]
    simp only [fitting, List.take_succ_cons, List.cons.injEq, true_and] at hwritten hout ⊢
    exact ⟨hwritten.trans (List.append_assoc ..), hout⟩

theorem Performs.throw (e : AdbError) : Performs (throw e) [] (.error e) := .done fun _ => ⟨rfl, rfl⟩

theorem Performs.pure (b : Banner) : Performs (pure b) [] (.ok b) := .done fun _ => ⟨rfl, rfl⟩

/-- Taking in what arrived writes nothing. -/
theorem Performs.receive {x : Linked Banner} {packets : List PacketCall} {out : Except AdbError Banner}
    (h : Performs x packets out) (rest : List Arrival) :
    Performs (do modify fun s => { s with incoming := rest }; x) packets out := by
  intro s
  have hmodify := Returns.modify (ε := AdbError) (fun s : Link => { s with incoming := rest }) s
  rw [hmodify.run_bind]
  exact h { s with incoming := rest }

theorem handshakeLoop_performs (key : AdbKeyPair) (pubkey : List UInt8) (sent : Bool)
    (arrivals : List Arrival) : Performs (handshakeLoop key pubkey sent arrivals)
      (answers key pubkey sent (tokensOf arrivals)) (concluded (afterTokens arrivals)) := by
  induction arrivals generalizing sent with
  | nil => exact .throw .timeout
  | cons a rest ih =>
    cases a with
    | timeout => exact .throw .timeout
    | failed e => exact .throw e
    | packet pkt data =>
      refine Performs.receive ?_ rest
      by_cases htoken : pkt.command = .auth ∧ pkt.arg0 = AUTH_TOKEN
      · have hsome : (Arrival.packet pkt data).token = some data := if_pos htoken
        rw [tokensOf, afterTokens, hsome]
        simp only [htoken.1, if_pos htoken.2]
        cases sent with
        | false => exact (ih true).send _
        | true => exact (ih true).send _
      · have hnone : (Arrival.packet pkt data).token = none := if_neg htoken
        rw [tokensOf, afterTokens, hnone]
        cases hc : pkt.command with
        | cnxn =>
          simp only [concluded, hc, if_pos]
          exact .pure _
        | auth =>
          have harg : pkt.arg0 ≠ AUTH_TOKEN := fun heq => htoken ⟨hc, heq⟩
          simp only [concluded, hc, if_neg harg]
          exact .throw _
        | _ =>
          simp only [concluded, hc]
          exact .throw _

theorem sendPacket_incoming (c : PacketCall) (s : Link) :
    ((sendPacket c).run.run s).2.incoming = s.incoming := by
  show (match s.room with | none => _ | some 0 => _ | some (n + 1) => _ : Except AdbError Unit × Link).2.incoming = _
  split
  · rfl
  · rfl
  · rfl

/-- What follows the host's `CNXN`. -/
def handshakeRest (key : AdbKeyPair) (arrivals : List Arrival) : Linked Banner := do
  let pubkey ← liftExcept (key.androidPublicKey "droidmirror@host")
  handshakeLoop key pubkey false arrivals

theorem handshake_run (key : AdbKeyPair) (s : Link) : (handshake key).run.run s =
    (do sendPacket CNXN; handshakeRest key s.incoming : Linked Banner).run.run s := by
  unfold handshake
  rcases returns_or_fails (sendPacket CNXN) s with ⟨⟨⟩, t, hsend⟩ | ⟨e, t, hfails⟩
  · have hin := sendPacket_incoming CNXN s
    rw [hsend] at hin
    rw [hsend.run_bind, hsend.run_bind]
    unfold handshakeRest
    cases key.androidPublicKey "droidmirror@host" with
    | error e => rfl
    | ok pubkey =>
      show (handshakeLoop key pubkey false t.incoming).run.run t = _
      rw [hin]
      rfl
  · exact (hfails.bind _).trans (hfails.bind _).symm

theorem handshakeRest_performs (key : AdbKeyPair) (arrivals : List Arrival) :
    Performs (do sendPacket CNXN; handshakeRest key arrivals) (exchange key arrivals).1
      (exchange key arrivals).2 := by
  unfold exchange handshakeRest
  cases key.androidPublicKey "droidmirror@host" with
  | error e => exact (Performs.throw e).send CNXN
  | ok pubkey => exact (handshakeLoop_performs key pubkey false arrivals).send CNXN

theorem le_acceptedMaxPayload (arg1 : UInt32) : 4096 ≤ acceptedMaxPayload arg1 := by
  unfold acceptedMaxPayload
  split
  · exact UInt32.le_refl _
  · rename_i hlow
    split
    · decide
    · exact UInt32.not_lt.mp hlow

theorem concluded_ok {last : Option Arrival} {b : Banner} (h : concluded last = .ok b) :
    4096 ≤ b.maxPayload ∧ b.maxPayload ≤ ADB_MAXDATA := by
  revert h
  fun_cases concluded last with
  | case4 pkt data hc =>
    intro h
    cases h
    exact ⟨le_acceptedMaxPayload pkt.arg1, acceptedMaxPayload_le pkt.arg1⟩
  | _ =>
    intro h
    cases h

theorem exchange_ok {key : AdbKeyPair} {arrivals : List Arrival} {b : Banner}
    (h : (exchange key arrivals).2 = .ok b) : 4096 ≤ b.maxPayload ∧ b.maxPayload ≤ ADB_MAXDATA := by
  unfold exchange at h
  split at h
  · cases h
  · exact concluded_ok h

/-- Whatever arrives, and whenever writing fails, the handshake writes the packets of `exchange`
up to that failure and ends as `exchange` does where there is none. What it agrees on is between
4 KiB and 1 MiB. -/
theorem handshake_exchange (key : AdbKeyPair) (s : Link) :
    ((handshake key).run.run s).2.written =
        s.written ++ fitting s.room (exchange key s.incoming).1 ∧
      ((handshake key).run.run s).1 =
        (if fitting s.room (exchange key s.incoming).1 = (exchange key s.incoming).1
          then (exchange key s.incoming).2 else .error s.broken) ∧
      ∀ b, ((handshake key).run.run s).1 = .ok b → 4096 ≤ b.maxPayload ∧ b.maxPayload ≤ ADB_MAXDATA := by
  obtain ⟨hwritten, hout⟩ := handshakeRest_performs key s.incoming s
  rw [handshake_run]
  refine ⟨hwritten, hout, ?_⟩
  intro b hb
  rw [hout] at hb
  split at hb
  · exact exchange_ok hb
  · cases hb

end DroidMirror.Transport
