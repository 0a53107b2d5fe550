import DroidMirror.Lib.Hex
import DroidMirror.Proto.Message
import DroidMirror.Transport.Lossy

/-! # Requests to the adb server

A request to the local adb server is its length in four hexadecimal digits and
its text. `requests` is the reading of them, `read_client_request` over the
bytes that have arrived. A length that needs a fifth digit is printed in full,
and the reader takes the first four: requests are read as they were written
exactly where every one is shorter than 64 KiB (`requests_read_iff`). -/
namespace DroidMirror.Transport
open DroidMirror.Lib DroidMirror.Lib.LittleEndian DroidMirror.Lib.Incremental
open DroidMirror.Proto (fromUtf8)

/-! ## Writing -/

/-- `format!("{:04x}", n)`. -/
def hexHeader (n : Nat) : List UInt8 := bytesOf (String.ofList (Hex.padded 4 n))

/-- The buffers `write_request` writes. -/
def writeRequest (msg : String) : List (List UInt8) := [hexHeader (bytesOf msg).length, bytesOf msg]

/-- A request as one run of bytes. -/
def requestBytes (msg : String) : List UInt8 := (writeRequest msg).flatten

theorem requestBytes_eq (msg : String) :
    requestBytes msg = hexHeader (bytesOf msg).length ++ bytesOf msg := by
  rw [requestBytes, writeRequest, List.flatten_cons, List.flatten_singleton]

/-- The length is one that four digits print. -/
def RequestFits (msg : String) : Prop := (bytesOf msg).length < 65536

instance (msg : String) : Decidable (RequestFits msg) := inferInstanceAs (Decidable (_ < _))

theorem utf8EncodeChar_ascii {c : Char} (h : c.toNat ≤ 0x7f) :
    String.utf8EncodeChar c = [UInt8.ofNat c.toNat] := by
  have hval : c.val.toNat ≤ 0x7f := h
  unfold String.utf8EncodeChar
  simp only [if_pos hval]
  rfl

theorem bytesOf_ascii {l : List Char} (h : ∀ c ∈ l, c.toNat ≤ 0x7f) :
    bytesOf (String.ofList l) = l.map fun c => UInt8.ofNat c.toNat := by
  rw [bytesOf_ofList, List.map_eq_flatMap]
  exact List.flatMap_congr fun c hc => utf8EncodeChar_ascii (h c hc)

theorem hexHeader_eq (n : Nat) : hexHeader n = (Hex.padded 4 n).map fun c => UInt8.ofNat c.toNat := by
  apply bytesOf_ascii
  intro c hc
  exact Nat.le_trans (Hex.padded_le hc) (by decide)

theorem length_hexHeader {n : Nat} (h : n < 65536) : (hexHeader n).length = 4 := by
  rw [hexHeader_eq, List.length_map]
  exact Hex.length_padded (by omega) h

theorem fromUtf8_bytesOf (text : String) : fromUtf8 (bytesOf text) = some text :=
  Proto.fromUtf8_asBytes text

theorem bytesOf_fromUtf8 {bytes : List UInt8} {text : String} (h : fromUtf8 bytes = some text) :
    bytesOf text = bytes :=
  Proto.asBytes_fromUtf8 h

/-- A text has a byte or more for each of its characters. -/
theorem length_toList_le (text : String) : text.toList.length ≤ (bytesOf text).length := by
  have hbytes := bytesOf_ofList text.toList
  rw [String.ofList_toList] at hbytes
  rw [hbytes]
  induction text.toList with
  | nil => exact Nat.zero_le _
  | cons c l ih =>
    have hpos : 0 < (String.utf8EncodeChar c).length := by
      rw [String.length_utf8EncodeChar]
      exact Char.utf8Size_pos c
    rw [List.flatMap_cons, List.length_append, List.length_cons]
    omega

/-! ## Reading -/

/-- What the four bytes of a header announce. -/
def readHex (header : List UInt8) : Option Nat :=
  (fromUtf8 header).bind fun text => Hex.parseHex 64 text.toList

/-- `read_client_request` on the bytes that have arrived: no request while one of its
`read_exact` calls still waits. -/
def readClientRequest (buf : List UInt8) : Except Unit (Option (String × Nat)) :=
  if buf.length < 4 then .ok none
  else
    match readHex (slice buf 0 4) with
    | none => .error ()
    | some n =>
      if buf.length < 4 + n then .ok none
      else
        match fromUtf8 (slice buf 4 (4 + n)) with
        | none => .error ()
        | some body => .ok (some (body, 4 + n))

theorem readHex_hexHeader {n : Nat} (h : n < 2 ^ 64) : readHex (hexHeader n) = some n := by
  rw [readHex, hexHeader, fromUtf8_bytesOf]
  show Hex.parseHex 64 (String.ofList (Hex.padded 4 n)).toList = some n
  rw [String.toList_ofList, Hex.parseHex_padded h]

/-- Four bytes announce no more than four digits can. -/
theorem readHex_lt {header : List UInt8} {n : Nat} (hlen : header.length ≤ 4)
    (h : readHex header = some n) : n < 65536 := by
  obtain ⟨text, htext, hn⟩ := Option.bind_eq_some_iff.mp h
  have hchars : text.toList.length ≤ 4 := by
    have hle := length_toList_le text
    rw [bytesOf_fromUtf8 htext] at hle
    exact Nat.le_trans hle hlen
  exact Nat.lt_of_lt_of_le (Hex.parseHex_lt hn) (Nat.pow_le_pow_right (by omega) hchars)

theorem readClientRequest_some {b : List UInt8} {text : String} {n : Nat}
    (h : readClientRequest b = .ok (some (text, n))) :
    4 ≤ n ∧ n ≤ b.length ∧ n < 4 + 65536 ∧ bytesOf text = slice b 4 n := by
  revert h
  fun_cases readClientRequest b with
  | case5 h4 m hm hlen body hbody =>
    intro h
    obtain ⟨rfl, rfl⟩ := Prod.mk.inj (Option.some.inj (Except.ok.inj h))
    have hsmall := readHex_lt (by rw [length_slice]; omega) hm
    exact ⟨Nat.le_add_right 4 m, Nat.le_of_not_lt hlen, Nat.add_lt_add_left hsmall 4,
      bytesOf_fromUtf8 hbody⟩
  | _ =>
    intro h
    cases h

theorem readClientRequest_stable {b : List UInt8} (s : List UInt8) (h : readClientRequest b ≠ .ok none) :
    readClientRequest (b ++ s) = readClientRequest b := by
  by_cases h4 : b.length < 4
  · exact absurd (by rw [readClientRequest, if_pos h4]) h
  · have hhead : slice (b ++ s) 0 4 = slice b 0 4 := slice_append_left (by omega)
    unfold readClientRequest at h ⊢
    rw [if_neg h4] at h
    rw [if_neg h4, if_neg (by simp; omega), hhead]
    cases hn : readHex (slice b 0 4) with
    | none => rfl
    | some n =>
      simp only [hn] at h ⊢
      by_cases hlen : b.length < 4 + n
      · exact absurd (if_pos hlen) h
      · rw [if_neg hlen, if_neg (by simp; omega), slice_append_left (by omega)]

/-- Successive `read_client_request` calls on one connection. -/
def requests : Grammar Unit UInt8 Unit String where
  decode _ := readClientRequest
  next _ _ := ()
  takes h := by
    obtain ⟨hpos, hle, -⟩ := readClientRequest_some h
    exact ⟨Nat.lt_of_lt_of_le (by decide) hpos, hle⟩
  stable s := readClientRequest_stable s

theorem requests_decode (b : List UInt8) : requests.decode () b = readClientRequest b := rfl

/-- A request that fits is read back whatever follows, and is waited for until it is whole. -/
theorem writeRequest_spells {msg : String} (h : RequestFits msg) :
    requests.Spells () (requestBytes msg) msg := by
  have hlen : (hexHeader (bytesOf msg).length).length = 4 := length_hexHeader h
  have hread := @readHex_hexHeader (bytesOf msg).length (Nat.lt_trans h (by decide))
  have htotal : (requestBytes msg).length = 4 + (bytesOf msg).length := by
    rw [requestBytes_eq, List.length_append, hlen]
  constructor
  · intro s
    have hhead : slice (requestBytes msg ++ s) 0 4 = hexHeader (bytesOf msg).length := by
      rw [requestBytes_eq, List.append_assoc, slice_append_left hlen.ge, slice_all hlen.le]
    have hbody : slice (requestBytes msg ++ s) 4 (4 + (bytesOf msg).length) = bytesOf msg := by
      rw [requestBytes_eq]
      exact slice_middle hlen rfl
    rw [requests_decode, readClientRequest, if_neg (by simp [htotal]; omega), hhead, hread]
    simp only [hbody, fromUtf8_bytesOf, htotal]
    rw [if_neg (by simp [htotal])]
  · intro s hs hne
    obtain ⟨t, ht⟩ := hs
    have hshort : s.length < 4 + (bytesOf msg).length := by
      have hpos : 0 < t.length := by
        rw [List.length_pos_iff]
        rintro rfl
        exact hne (by simpa using ht)
      rw [← htotal, ← ht, List.length_append]
      omega
    rw [requests_decode, readClientRequest]
    by_cases h4 : s.length < 4
    · rw [if_pos h4]
    · have hhead : slice s 0 4 = hexHeader (bytesOf msg).length := by
        rw [← slice_append_left (r := t) (by omega), ht, requestBytes_eq,
          slice_append_left hlen.ge, slice_all hlen.le]
      rw [if_neg h4, hhead, hread]
      simp only [if_pos hshort]

/-- A request that does not fit is never read as itself. -/
theorem requests_long {msg : String} (h : ¬ RequestFits msg) (s : List UInt8) (later : List String) :
    (requests.parse () (requestBytes msg ++ s)).items ≠ msg :: later := by
  intro hitems
  cases hd : requests.decode () (requestBytes msg ++ s) with
  | error e =>
    rw [requests.parse_error hd] at hitems
    cases hitems
  | ok o =>
    match o, hd with
    | none, hd =>
      rw [requests.parse_none hd] at hitems
      cases hitems
    | some (text, n), hd =>
      rw [requests.parse_some hd] at hitems
      obtain ⟨rfl, -⟩ := List.cons.inj hitems
      obtain ⟨-, -, hn, hbytes⟩ := readClientRequest_some hd
      have hlen := congrArg List.length hbytes
      rw [length_slice] at hlen
      exact h (by rw [RequestFits]; omega)

/-- Requests written one after another are read as they were written exactly where four digits
print the length of each; nothing is then left over or refused. -/
theorem requests_read_iff (msgs : List String) :
    requests.parse () (msgs.flatMap requestBytes) = ⟨msgs, (), [], none⟩ ↔
      ∀ m ∈ msgs, RequestFits m := by
  induction msgs with
  | nil => exact iff_of_true (requests.parse_none rfl) (fun m hm => nomatch hm)
  | cons m msgs ih =>
    rw [List.flatMap_cons, List.forall_mem_cons, ← ih]
    by_cases hm : RequestFits m
    · rw [(writeRequest_spells hm).parse]
      constructor
      · exact fun hparse => ⟨hm, Parse.of_cons hparse⟩
      · rintro ⟨-, hrest⟩
        exact congrArg (Parse.cons m) hrest
    · constructor
      · exact fun hparse => absurd (congrArg Parse.items hparse) (requests_long hm _ msgs)
      · exact fun h => absurd h.1 hm

end DroidMirror.Transport
