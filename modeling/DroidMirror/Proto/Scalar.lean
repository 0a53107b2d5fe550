import DroidMirror.Lib.Rounding
import DroidMirror.Proto.Message

/-! # Numbers in `f32`

The operations the source uses on `f32`, over any type that has them: the
machine type, or exact rationals. On top of them, the fixed-point conversions
of `crates/proto`. -/
namespace DroidMirror.Proto

class F32 (F : Type) extends Add F, Sub F, Mul F, Div F, LT F, LE F, BEq F, OfScientific F where
  decLt : DecidableLT F
  decLe : DecidableLE F
  /-- `v as f32`. -/
  ofInt : Int → F
  /-- Half-way cases away from zero. -/
  round : F → F
  /-- `v as i32`: truncated, saturated, NaN to zero. -/
  toI32 : F → Int32
  toU16 : F → UInt16

namespace F32
variable {F : Type} [F32 F]

instance : DecidableLT F := decLt
instance : DecidableLE F := decLe

def clamp (v lo hi : F) : F := if v < lo then lo else if hi < v then hi else v

end F32

instance : F32 Float32 where
  decLt := inferInstance
  decLe := inferInstance
  ofInt := Float32.ofInt
  round := Float32.round
  toI32 := Float32.toInt32
  toU16 := Float32.toUInt16

/-- `lo ≤ n ≤ hi`, the nearer bound otherwise. -/
def saturate (lo hi n : Int) : Int := max lo (min hi n)

/-- Exact arithmetic, as the machine's on the values it represents. -/
instance : F32 ℚ where
  decLt := inferInstance
  decLe := inferInstance
  ofInt n := n
  round q := if q < 0 then -(⌊-q + 1 / 2⌋ : ℚ) else (⌊q + 1 / 2⌋ : ℚ)
  toI32 q := .ofInt (saturate (-2 ^ 31) (2 ^ 31 - 1) (if q < 0 then -⌊-q⌋ else ⌊q⌋))
  toU16 q := .ofNat (saturate 0 (2 ^ 16 - 1) ⌊q⌋).toNat

/-- With `v as u32`, saturated at zero as well. -/
class F32Unsigned (F : Type) extends F32 F where
  toU32 : F → UInt32

instance : F32Unsigned Float32 where
  toU32 := Float32.toUInt32

instance : F32Unsigned ℚ where
  toU32 q := .ofNat (saturate 0 (2 ^ 32 - 1) ⌊q⌋).toNat

theorem round_nearest {q : ℚ} (h : 0 ≤ q) : F32.round q = (Lib.Rounding.nearest q : ℚ) :=
  if_neg (not_lt.mpr h)

theorem toU32_intCast {k : ℤ} (h0 : 0 ≤ k) (h1 : k < 2 ^ 32) :
    ((F32Unsigned.toU32 (k : ℚ)).toNat : ℤ) = k := by
  show ((UInt32.ofNat (saturate 0 (2 ^ 32 - 1) ⌊(k : ℚ)⌋).toNat).toNat : ℤ) = k
  rw [Int.floor_intCast, saturate, min_eq_right (by omega), max_eq_right h0, UInt32.toNat_ofNat',
    Nat.mod_eq_of_lt (by omega)]
  omega

section
variable {F : Type} [F32 F]

def SCROLL_SCALE : F := 65536.0

def encodePressure (pressure : F) : UInt16 :=
  F32.toU16 (F32.round (F32.clamp pressure 0.0 1.0 * 65535.0))

def encodeScroll (v : F) : Int32 := F32.toI32 (F32.round (v * SCROLL_SCALE))

def decodeScroll (v : Int32) : F := F32.ofInt v.toInt / SCROLL_SCALE

end

end DroidMirror.Proto
