import DroidMirror.Lib.LittleEndian

/-! # Annex-B

`to_annex_b` in `crates/proto/src/lib.rs` and `csd_annex_b` in
`crates/server/src/annexb.rs`: units with a start code in front, from units
with a length in front or from a bare unit. -/
namespace DroidMirror.Proto
open DroidMirror.Lib.LittleEndian

def hasStartCode (data : List UInt8) : Bool :=
  [0, 0, 0, 1].isPrefixOf data || [0, 0, 1].isPrefixOf data

/-- `u32::from_be_bytes`. -/
def readU32BE (bytes : List UInt8) : UInt32 := readU32 bytes.reverse

def looksLikeAvcc (data : List UInt8) : Bool :=
  if data.length < 5 then false
  else
    let n := (readU32BE (slice data 0 4)).toNat
    decide (n > 0 ∧ n < data.length ∧ 4 + n ≤ data.length)

/-- The loop over `[u32 length][nal]`: where it stops and what it wrote. Every
turn advances, so the length of the data is fuel enough. -/
def avccLoop (data : List UInt8) : Nat → Nat → List UInt8 → Nat × List UInt8
  | 0, i, out => (i, out)
  | fuel + 1, i, out =>
    if i + 4 ≤ data.length then
      let n := (readU32BE (slice data i (i + 4))).toNat
      let i := i + 4
      if n = 0 ∨ i + n > data.length then (i, out)
      else avccLoop data fuel (i + n) (out ++ [0, 0, 0, 1] ++ slice data i (i + n))
    else (i, out)

/-- Length-prefixed AVCC units (or raw SPS/PPS) as Annex-B. Data that already
starts with a start code is returned unchanged. -/
def toAnnexB (data : List UInt8) : List UInt8 :=
  if data.isEmpty || hasStartCode data then data
  else
    let (i, out) := avccLoop data data.length 0 []
    if looksLikeAvcc data ∧ i = data.length ∧ out ≠ [] then out
    else [0, 0, 0, 1] ++ data

/-- Codec-config buffers as one Annex-B blob. -/
def csdAnnexB (parts : List (List UInt8)) : List UInt8 :=
  (parts.filter fun part => !part.isEmpty).flatMap toAnnexB

example : csdAnnexB [[0x67, 0x42], [0x68, 0xce]] =
    [0, 0, 0, 1, 0x67, 0x42, 0, 0, 0, 1, 0x68, 0xce] := by decide

end DroidMirror.Proto
