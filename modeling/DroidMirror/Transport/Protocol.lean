import DroidMirror.Lib.Incremental
import DroidMirror.Lib.LittleEndian

/-! # ADB packets

A packet is a 24-byte little-endian header and a payload. `writePacket` gives
the buffers `write_packet` hands to `io.write_all`, `readPacket` is
`read_packet` over the bytes that have arrived, and what is written for a
packet whose payload is within the cap is read back as that packet
(`writePacket_spells`). -/
namespace DroidMirror.Transport
open DroidMirror.Lib.LittleEndian DroidMirror.Lib.Incremental

inductive Command where
  | sync | cnxn | auth | open_ | okay | clse | wrte
  deriving DecidableEq, Repr

/-- `command as u32`. -/
def Command.toU32 : Command → UInt32
  | .sync => 0x434e5953
  | .cnxn => 0x4e584e43
  | .auth => 0x48545541
  | .open_ => 0x4e45504f
  | .okay => 0x59414b4f
  | .clse => 0x45534c43
  | .wrte => 0x45545257

def Command.fromU32 (value : UInt32) : Option Command :=
  match value with
  | 0x434e5953 => some .sync
  | 0x4e584e43 => some .cnxn
  | 0x48545541 => some .auth
  | 0x4e45504f => some .open_
  | 0x59414b4f => some .okay
  | 0x45534c43 => some .clse
  | 0x45545257 => some .wrte
  | _ => none

@[simp] theorem Command.fromU32_toU32 (c : Command) : fromU32 c.toU32 = some c := by
  cases c <;> rfl

inductive AdbError where
  | usb (text : String)
  | io (text : String)
  | protocol (text : String)
  | auth (text : String)
  | timeout
  | closed
  | msg (text : String)
  deriving DecidableEq, Repr

/-- The `Display` texts of the errors. -/
def AdbError.toString : AdbError → String
  | .usb text => "usb: " ++ text
  | .io text => "io: " ++ text
  | .protocol text => "protocol: " ++ text
  | .auth text => "auth: " ++ text
  | .timeout => "timeout waiting for device"
  | .closed => "stream closed"
  | .msg text => text

/-- `{:08x}`. -/
def hex8 (v : UInt32) : String :=
  String.ofList ((List.range 8).map fun i => Nat.digitChar (v.toNat / 16 ^ (7 - i) % 16))

/-- The byte sum, wrapping. -/
def checksum (data : List UInt8) : UInt32 := data.foldl (fun acc b => acc + b.toUInt32) 0

structure Packet where
  command : Command
  arg0 : UInt32
  arg1 : UInt32
  dataLength : UInt32
  dataCrc32 : UInt32
  magic : UInt32
  deriving DecidableEq, Repr

namespace Packet

def new (command : Command) (arg0 arg1 : UInt32) (data : List UInt8) : Packet :=
  { command, arg0, arg1
    dataLength := .ofNat data.length
    dataCrc32 := checksum data
    magic := command.toU32 ^^^ 0xffffffff }

def toBytes (p : Packet) : List UInt8 :=
  leU32 p.command.toU32 ++ leU32 p.arg0 ++ leU32 p.arg1 ++ leU32 p.dataLength ++ leU32 p.dataCrc32 ++
    leU32 p.magic

def fromBytes (bytes : List UInt8) : Except AdbError Packet :=
  if bytes.length < 24 then .error (.protocol "header short")
  else
    let commandU := readU32 (slice bytes 0 4)
    match Command.fromU32 commandU with
    | none => .error (.protocol ("unknown command " ++ hex8 commandU))
    | some command =>
      let magic := readU32 (slice bytes 20 24)
      if magic ≠ command.toU32 ^^^ 0xffffffff then .error (.protocol "magic mismatch")
      else
        .ok
          { command
            arg0 := readU32 (slice bytes 4 8)
            arg1 := readU32 (slice bytes 8 12)
            dataLength := readU32 (slice bytes 12 16)
            dataCrc32 := readU32 (slice bytes 16 20)
            magic }

@[simp] theorem length_toBytes (p : Packet) : p.toBytes.length = 24 := by simp [toBytes]

theorem fromBytes_toBytes {p : Packet} (h : p.magic = p.command.toU32 ^^^ 0xffffffff) :
    fromBytes p.toBytes = .ok p := by
  have hcommand : readU32 (slice p.toBytes 0 4) = p.command.toU32 := by simp [toBytes]
  have harg0 : readU32 (slice p.toBytes 4 8) = p.arg0 := by simp [toBytes]
  have harg1 : readU32 (slice p.toBytes 8 12) = p.arg1 := by simp [toBytes]
  have hlength : readU32 (slice p.toBytes 12 16) = p.dataLength := by simp [toBytes]
  have hcrc : readU32 (slice p.toBytes 16 20) = p.dataCrc32 := by simp [toBytes]
  have hmagic : readU32 (slice p.toBytes 20 24) = p.magic := by simp [toBytes]
  unfold fromBytes
  simp only [length_toBytes, hcommand, harg0, harg1, hlength, hcrc, hmagic, Command.fromU32_toU32]
  rw [if_neg (by decide), if_neg (not_not.mpr h)]

end Packet

/-! ## Reading -/

def MAX_PAYLOAD : UInt32 := 4 * 1024 * 1024

/-- `read_packet` on the bytes that have arrived: `none` while one of its
`read_exact` calls still waits. -/
def readPacket (buf : List UInt8) : Except AdbError (Option ((Packet × List UInt8) × Nat)) :=
  if buf.length < 24 then .ok none
  else
    match Packet.fromBytes (slice buf 0 24) with
    | .error e => .error e
    | .ok pkt =>
      if pkt.dataLength > MAX_PAYLOAD then
        .error (.protocol ("payload " ++ Nat.repr pkt.dataLength.toNat ++ " exceeds cap"))
      else
        let total := 24 + pkt.dataLength.toNat
        if buf.length < total then .ok none
        else
          let data := slice buf 24 total
          if pkt.dataLength > 0 ∧ pkt.dataCrc32 ≠ 0 ∧ pkt.dataCrc32 ≠ checksum data then
            .error (.protocol "checksum mismatch")
          else .ok (some ((pkt, data), total))

theorem readPacket_takes {b : List UInt8} {m : Packet × List UInt8} {n : Nat}
    (h : readPacket b = .ok (some (m, n))) : 0 < n ∧ n ≤ b.length := by
  revert h
  fun_cases readPacket b with
  | case6 h24 pkt hpkt hcap total hfull data hcrc =>
    intro h
    obtain ⟨_, rfl⟩ := Prod.mk.inj (Option.some.inj (Except.ok.inj h))
    exact ⟨Nat.add_pos_left (by decide) _, Nat.le_of_not_lt hfull⟩
  | _ =>
    intro h
    cases h

theorem readPacket_stable {b : List UInt8} (s : List UInt8) (h : readPacket b ≠ .ok none) :
    readPacket (b ++ s) = readPacket b := by
  by_cases h24 : b.length < 24
  · exact absurd (by rw [readPacket, if_pos h24]) h
  · have hhead : slice (b ++ s) 0 24 = slice b 0 24 := slice_append_left (by omega)
    unfold readPacket at h ⊢
    rw [if_neg h24] at h
    rw [if_neg h24, if_neg (by simp; omega), hhead]
    cases hp : Packet.fromBytes (slice b 0 24) with
    | error e => rfl
    | ok pkt =>
      simp only [hp] at h ⊢
      split
      · rfl
      · rename_i hcap
        by_cases hfull : b.length < 24 + pkt.dataLength.toNat
        · exact absurd (by rw [if_neg hcap, if_pos hfull]) h
        · rw [if_neg hfull, if_neg (by simp; omega), slice_append_left (by omega)]

/-- Successive `read_packet` calls on one connection. -/
def packets : Grammar Unit UInt8 AdbError (Packet × List UInt8) where
  decode _ := readPacket
  next _ _ := ()
  takes := readPacket_takes
  stable s := readPacket_stable s

theorem packets_decode (b : List UInt8) : packets.decode () b = readPacket b := rfl

/-! ## Writing -/

/-- The arguments of a `write_packet` call. -/
structure PacketCall where
  command : Command
  arg0 : UInt32
  arg1 : UInt32
  data : List UInt8
  deriving DecidableEq, Repr

namespace PacketCall

def packet (c : PacketCall) : Packet := .new c.command c.arg0 c.arg1 c.data

/-- What `write_packet` still writes after the header. -/
def payloadWrites (c : PacketCall) : List (List UInt8) := if c.data.isEmpty then [] else [c.data]

/-- The buffers passed to `io.write_all`, in order. -/
def writePacket (c : PacketCall) : List (List UInt8) := c.packet.toBytes :: c.payloadWrites

/-- The packet as one run of bytes. -/
def bytes (c : PacketCall) : List UInt8 := c.writePacket.flatten

/-- The payload is one that `read_packet` accepts. -/
def Fits (c : PacketCall) : Prop := c.data.length ≤ MAX_PAYLOAD.toNat

instance (c : PacketCall) : Decidable c.Fits := inferInstanceAs (Decidable (_ ≤ _))

theorem bytes_eq (c : PacketCall) : c.bytes = c.packet.toBytes ++ c.data := by
  unfold bytes writePacket payloadWrites
  split
  · rename_i he
    simp [List.isEmpty_iff.mp he]
  · simp

theorem max_payload_toNat : MAX_PAYLOAD.toNat = 4194304 := by decide

theorem Fits.dataLength {c : PacketCall} (h : c.Fits) : c.packet.dataLength.toNat = c.data.length := by
  rw [Fits, max_payload_toNat] at h
  simp only [packet, Packet.new, UInt32.toNat_ofNat']
  omega

/-- A whole packet in front is read, whatever follows. -/
theorem readPacket_bytes {c : PacketCall} (h : c.Fits) (s : List UInt8) :
    readPacket (c.bytes ++ s) = .ok (some ((c.packet, c.data), c.bytes.length)) := by
  have hhead : slice (c.bytes ++ s) 0 24 = c.packet.toBytes := by simp [bytes_eq]
  have hbody : slice (c.bytes ++ s) 24 (24 + c.data.length) = c.data := by
    rw [bytes_eq]
    exact slice_middle (by simp) rfl
  have hcap : ¬ c.packet.dataLength > MAX_PAYLOAD := by
    rw [gt_iff_lt, UInt32.lt_iff_toNat_lt, h.dataLength]
    exact Nat.not_lt.mpr h
  have hcrc : c.packet.dataCrc32 = checksum c.data := rfl
  have hlen : c.bytes.length = 24 + c.data.length := by simp [bytes_eq]
  unfold readPacket
  rw [if_neg (by simp [hlen]; omega), hhead, Packet.fromBytes_toBytes rfl]
  simp only [h.dataLength, hbody, hcrc]
  rw [if_neg hcap, if_neg (by simp [hlen]), if_neg (by simp), hlen]

/-- A packet that has not arrived whole is waited for. -/
theorem readPacket_waits {c : PacketCall} (h : c.Fits) {s : List UInt8} (hs : s <+: c.bytes)
    (hne : s ≠ c.bytes) : readPacket s = .ok none := by
  obtain ⟨t, ht⟩ := hs
  have htpos : 0 < t.length := by
    rw [List.length_pos_iff]
    rintro rfl
    exact hne (by simpa using ht)
  have hlen : s.length + t.length = 24 + c.data.length := by
    rw [← List.length_append, ht, bytes_eq, List.length_append, Packet.length_toBytes]
  by_cases h24 : s.length < 24
  · rw [readPacket, if_pos h24]
  · have hhead : slice s 0 24 = c.packet.toBytes := by
      rw [← slice_append_left (r := t) (by omega), ht]
      simp [bytes_eq]
    have hcap : ¬ c.packet.dataLength > MAX_PAYLOAD := by
      rw [gt_iff_lt, UInt32.lt_iff_toNat_lt, h.dataLength]
      exact Nat.not_lt.mpr h
    unfold readPacket
    rw [if_neg h24, hhead, Packet.fromBytes_toBytes rfl]
    simp only [h.dataLength]
    rw [if_neg hcap, if_pos (by omega)]

theorem writePacket_spells {c : PacketCall} (h : c.Fits) :
    packets.Spells () c.bytes (c.packet, c.data) := by
  constructor
  · intro s
    rw [packets_decode, readPacket_bytes h]
  · intro s hs hne
    rw [packets_decode, readPacket_waits h hs hne]

theorem spelled {cs : List PacketCall} (h : ∀ c ∈ cs, c.Fits) :
    packets.Spelled () (cs.map fun c => (c.bytes, c.packet, c.data)) := by
  induction cs with
  | nil => exact .nil ()
  | cons c cs ih =>
    exact .cons (writePacket_spells (h c (by simp))) (ih fun c' hc' => h c' (List.mem_cons_of_mem c hc'))

end PacketCall

end DroidMirror.Transport
