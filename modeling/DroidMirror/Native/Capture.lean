import DroidMirror.Lib.LittleEndian

/-! # Annex-B units

The part of `crates/native/src/capture.rs` that looks into a bitstream: start
codes, the units between them and the parameter sets an MP4 needs. -/
namespace DroidMirror.Native
open DroidMirror.Lib.LittleEndian

/-- A start code: `at_` is the offset after it, `sc` its length. -/
structure Start where
  at_ : Nat
  sc : Nat
  deriving DecidableEq

def startsWith (data code : List UInt8) : Bool := data.take code.length == code

theorem startsWith_iff {data code : List UInt8} : startsWith data code = true ↔ code <+: data := by
  rw [startsWith, beq_iff_eq, List.prefix_iff_eq_take, eq_comm]

/-- The scan of `start_codes` from offset `i`; every turn advances, so the
length of the data is fuel enough. -/
def startCodesFrom (data : List UInt8) : Nat → Nat → List Start
  | 0, _ => []
  | fuel + 1, i =>
    if i + 3 < data.length then
      if startsWith (data.drop i) [0, 0, 0, 1] then ⟨i + 4, 4⟩ :: startCodesFrom data fuel (i + 4)
      else if startsWith (data.drop i) [0, 0, 1] then ⟨i + 3, 3⟩ :: startCodesFrom data fuel (i + 3)
      else startCodesFrom data fuel (i + 1)
    else []

def startCodes (data : List UInt8) : List Start :=
  if data.isEmpty then []
  else
    let starts := startCodesFrom data data.length 0
    if starts.isEmpty then [⟨0, 0⟩] else starts

/-- The units between the start codes, the empty ones left out. -/
def nalsBetween (data : List UInt8) : List Start → List (List UInt8)
  | [] => []
  | start :: rest =>
    let to_ := match rest with
      | [] => data.length
      | next :: _ => next.at_ - next.sc
    (if to_ > start.at_ then [slice data start.at_ to_] else []) ++ nalsBetween data rest

/-- Where a unit ends: at the next start code, or with the data. -/
def endOf (data : List UInt8) : List Start → Nat
  | [] => data.length
  | next :: _ => next.at_ - next.sc

theorem nalsBetween_cons (data : List UInt8) (start : Start) (rest : List Start) :
    nalsBetween data (start :: rest) =
      (if endOf data rest > start.at_ then [slice data start.at_ (endOf data rest)] else []) ++
        nalsBetween data rest := by
  cases rest <;> rfl

def nals (data : List UInt8) : List (List UInt8) := nalsBetween data (startCodes data)

def nalType (nal : List UInt8) : UInt8 := nal.headD 0 &&& 0x1f

/-- The first SPS and the first PPS. -/
def spsPps (csd : List UInt8) : Option (List UInt8 × List UInt8) := do
  let sps ← (nals csd).find? fun nal => nalType nal == 7
  let pps ← (nals csd).find? fun nal => nalType nal == 8
  return (sps, pps)

end DroidMirror.Native
