import Mathlib.Data.List.Infix
import DroidMirror.Native.Capture
import DroidMirror.Proto.Avcc

/-! # Splitting a bitstream

`nals` inverts the writing of units behind start codes of either length
(`nals_stream`). The scan steps over a unit because no start code begins inside
one: a unit has none within, and does not end in a zero. What an MP4 sample and
the avcC box take from a bitstream follows. -/
namespace DroidMirror.Native
open DroidMirror.Lib.LittleEndian DroidMirror.Proto

/-- Whether a sample takes the unit. -/
def sampled (nal : List UInt8) : Bool :=
  match nalType nal with
  | 6 | 7 | 8 | 9 => false
  | _ => true

/-- Length-prefixed VCL units. Parameter sets stay in the avcC box. -/
def avccSample (annexb : List UInt8) : List UInt8 := ((nals annexb).filter sampled).flatMap lengthPrefixed

/-! ## Writing -/

/-- A unit with a start code in front, of four bytes or of three. -/
structure Coded where
  long : Bool
  nal : List UInt8
  deriving DecidableEq

namespace Coded

def code (u : Coded) : List UInt8 := if u.long then [0, 0, 0, 1] else [0, 0, 1]

def bytes (u : Coded) : List UInt8 := u.code ++ u.nal

end Coded

/-- Units one after another. -/
def stream (units : List Coded) : List UInt8 := units.flatMap Coded.bytes

/-- A unit in which no start code begins. -/
structure Clean (nal : List UInt8) : Prop where
  nonempty : nal ≠ []
  last : nal.getLast? ≠ some 0
  plain : ¬ [0, 0, 1] <:+: nal

instance (nal : List UInt8) : Decidable (Clean nal) :=
  decidable_of_iff (nal ≠ [] ∧ nal.getLast? ≠ some 0 ∧ ¬ [0, 0, 1] <:+: nal)
    ⟨fun ⟨hne, hl, hp⟩ => ⟨hne, hl, hp⟩, fun ⟨hne, hl, hp⟩ => ⟨hne, hl, hp⟩⟩

/-- The rest of a clean unit, from somewhere inside it. -/
def CleanRest (body : List UInt8) : Prop := body.getLast? ≠ some 0 ∧ ¬ [0, 0, 1] <:+: body

theorem Clean.rest {nal : List UInt8} (h : Clean nal) : CleanRest nal := ⟨h.last, h.plain⟩

theorem CleanRest.tail {b : UInt8} {body : List UInt8} (h : CleanRest (b :: body)) : CleanRest body := by
  refine ⟨?_, fun hin => h.2 (hin.trans (List.suffix_cons b body).isInfix)⟩
  cases body with
  | nil => simp
  | cons c body => exact h.1

/-- A codec-config buffer: units behind start codes, or one bare unit. -/
inductive Part where
  | coded (units : List Coded)
  | bare (nal : List UInt8)
  deriving DecidableEq

namespace Part

def bytes : Part → List UInt8
  | coded units => stream units
  | bare nal => nal

/-- What it is in Annex-B. -/
def units : Part → List Coded
  | coded units => units
  | bare nal => [⟨true, nal⟩]

def nals (p : Part) : List (List UInt8) := p.units.map Coded.nal

/-- Clean units; a bare one does not begin with a zero and has less than 2^24 bytes. -/
def Fits (p : Part) : Prop :=
  (∀ u ∈ p.units, Clean u.nal) ∧
    match p with
    | coded _ => True
    | bare nal => nal.head? ≠ some 0 ∧ nal.length < 2 ^ 24

end Part

end DroidMirror.Native
