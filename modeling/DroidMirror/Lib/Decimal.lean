import Mathlib.Algebra.Group.Int.Defs
import Mathlib.Algebra.Group.Nat.Defs
import Mathlib.Data.Nat.Basic

/-! # Decimal numbers as texts

Printing, with zeros in front where a width asks for them, and reading back
what an unsigned type of so many bits can hold. A number is read off its own
digits, so printed numbers are equal only where the numbers are; one with a
sign is read back where its type holds it (`parseSigned_printed`). -/
namespace DroidMirror.Lib.Decimal

/-! ## Printing -/

/-- `{:0width}`. -/
def padded (width n : Nat) : List Char :=
  List.replicate (width - (Nat.toDigits 10 n).length) '0' ++ Nat.toDigits 10 n

theorem value_padded (width n : Nat) : Nat.ofDigitChars 10 (padded width n) 0 = n := by
  rw [padded, Nat.ofDigitChars_append, Nat.ofDigitChars_replicate_zero, Nat.mul_zero,
    Nat.ofDigitChars_ten_toDigits]

theorem padded_injective {width m n : Nat} (h : padded width m = padded width n) : m = n := by
  rw [← value_padded width m, h, value_padded]

theorem length_padded {width n : Nat} (hw : 0 < width) (h : n < 10 ^ width) :
    (padded width n).length = width := by
  have hd : (Nat.toDigits 10 n).length ≤ width := (Nat.length_toDigits_le_iff (by omega) hw).mpr h
  rw [padded, List.length_append, List.length_replicate]
  omega

theorem isDigit_of_mem_padded {width n : Nat} {c : Char} (h : c ∈ padded width n) : c.isDigit := by
  rcases List.mem_append.mp h with h | h
  · rw [List.eq_of_mem_replicate h]
    rfl
  · exact Nat.isDigit_of_mem_toDigits (by omega) (by omega) h

/-! ## Reading -/

/-- `char::to_digit(10)`. -/
def toDigit (c : Char) : Option Nat := if c.isDigit then some (c.toNat - '0'.toNat) else none

/-- One more digit, where the value may not reach `2 ^ bits`. -/
def pushDigit (bits acc : Nat) (c : Char) : Option Nat := do
  let d ← toDigit c
  if acc * 10 + d < 2 ^ bits then some (acc * 10 + d) else none

/-- `str::parse` to an unsigned type: a plus may stand in front, and there must be digits. -/
def parseUnsigned (bits : Nat) (text : List Char) : Option Nat :=
  let digits := if text.head? = some '+' then text.tail else text
  if digits = [] then none else digits.foldlM (pushDigit bits) 0

theorem le_ofDigitChars (l : List Char) (acc : Nat) : acc ≤ Nat.ofDigitChars 10 l acc := by
  induction l generalizing acc with
  | nil => exact Nat.le_refl _
  | cons c l ih =>
    rw [Nat.ofDigitChars_cons]
    exact Nat.le_trans (by omega) (ih _)

/-- Digits are read one by one as long as the whole has room. -/
theorem foldlM_pushDigit {bits : Nat} {l : List Char} (hd : ∀ c ∈ l, c.isDigit) {acc : Nat}
    (hb : Nat.ofDigitChars 10 l acc < 2 ^ bits) :
    l.foldlM (pushDigit bits) acc = some (Nat.ofDigitChars 10 l acc) := by
  induction l generalizing acc with
  | nil => rfl
  | cons c l ih =>
    rw [Nat.ofDigitChars_cons] at hb ⊢
    have hroom : acc * 10 + (c.toNat - '0'.toNat) < 2 ^ bits := by
      have hle := le_ofDigitChars l (10 * acc + (c.toNat - '0'.toNat))
      omega
    have hstep : pushDigit bits acc c = some (10 * acc + (c.toNat - '0'.toNat)) := by
      rw [pushDigit, toDigit, if_pos (hd c (List.mem_cons_self ..)), Nat.mul_comm 10 acc]
      exact if_pos hroom
    rw [List.foldlM_cons, hstep]
    exact ih (fun c hc => hd c (List.mem_cons_of_mem _ hc)) hb

/-- A number is read back from its digits where the type holds it. -/
theorem parseUnsigned_toDigits {bits n : Nat} (h : n < 2 ^ bits) :
    parseUnsigned bits (Nat.toDigits 10 n) = some n := by
  have hd : ∀ c ∈ Nat.toDigits 10 n, c.isDigit :=
    fun c hc => Nat.isDigit_of_mem_toDigits (by omega) (by omega) hc
  have hsign : (Nat.toDigits 10 n).head? ≠ some '+' := by
    intro hplus
    have := hd '+' (List.mem_of_mem_head? hplus)
    cases this
  have hv : Nat.ofDigitChars 10 (Nat.toDigits 10 n) 0 = n := Nat.ofDigitChars_ten_toDigits
  rw [parseUnsigned, if_neg hsign, if_neg Nat.toDigits_ne_nil, foldlM_pushDigit hd (hv.symm ▸ h), hv]

/-! ## Numbers with a sign -/

/-- `{}` of a signed number. -/
def printed (v : Int) : List Char :=
  if v < 0 then '-' :: Nat.toDigits 10 v.natAbs else Nat.toDigits 10 v.natAbs

/-- `str::parse` to a signed type: a minus may stand in front as well. -/
def parseSigned (bits : Nat) (text : List Char) : Option Int :=
  if text.head? = some '-' then
    if text.tail = [] then none
    else
      (text.tail.foldlM (pushDigit bits) 0).bind fun n =>
        if n ≤ 2 ^ (bits - 1) then some (-n : Int) else none
  else (parseUnsigned bits text).bind fun n => if n < 2 ^ (bits - 1) then some (n : Int) else none

/-- Digits have no sign in front. -/
theorem head_toDigits {n : Nat} {c : Char} (hc : c.isDigit = false) : (Nat.toDigits 10 n).head? ≠ some c := by
  intro hhead
  have hdigit := Nat.isDigit_of_mem_toDigits (by decide) (by decide) (List.mem_of_mem_head? hhead)
  rw [hc] at hdigit
  cases hdigit

theorem parseSigned_printed {bits : Nat} {v : Int} (hb : 0 < bits) (hlo : -2 ^ (bits - 1) ≤ v)
    (hhi : v < 2 ^ (bits - 1)) : parseSigned bits (printed v) = some v := by
  have hpow : 2 ^ (bits - 1) < 2 ^ bits := Nat.pow_lt_pow_right (by decide) (Nat.sub_lt hb Nat.one_pos)
  have hcast : ((2 ^ (bits - 1) : Nat) : Int) = 2 ^ (bits - 1) := by norm_cast
  unfold printed
  split
  · rename_i hneg
    have hle : v.natAbs ≤ 2 ^ (bits - 1) := by omega
    have hd : ∀ c ∈ Nat.toDigits 10 v.natAbs, c.isDigit :=
      fun c hc => Nat.isDigit_of_mem_toDigits (by omega) (by omega) hc
    have hv : Nat.ofDigitChars 10 (Nat.toDigits 10 v.natAbs) 0 = v.natAbs := Nat.ofDigitChars_ten_toDigits
    rw [parseSigned, List.head?_cons, if_pos rfl, List.tail_cons, if_neg Nat.toDigits_ne_nil,
      foldlM_pushDigit hd (by omega), hv, Option.bind_some, if_pos hle]
    exact congrArg some (by omega)
  · rename_i hpos
    have hlt : v.natAbs < 2 ^ (bits - 1) := by omega
    rw [parseSigned, if_neg (head_toDigits rfl), parseUnsigned_toDigits (by omega), Option.bind_some, if_pos hlt]
    exact congrArg some (by omega)

end DroidMirror.Lib.Decimal
