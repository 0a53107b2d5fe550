import Mathlib.Algebra.Group.Nat.Defs
import Mathlib.Data.Nat.Basic

/-! # Hexadecimal numbers as texts

Printing with zeros in front where a width asks for them, and reading back what
an unsigned type of so many bits can hold (`parseHex_padded`). Digits of either
case are read, and a plus may stand in front. -/
namespace DroidMirror.Lib.Hex

/-! ## Printing -/

/-- `{:0widthx}`. -/
def padded (width n : Nat) : List Char :=
  List.replicate (width - (Nat.toDigits 16 n).length) '0' ++ Nat.toDigits 16 n

theorem length_padded {width n : Nat} (hw : 0 < width) (h : n < 16 ^ width) :
    (padded width n).length = width := by
  have hd : (Nat.toDigits 16 n).length ≤ width := (Nat.length_toDigits_le_iff (by omega) hw).mpr h
  rw [padded, List.length_append, List.length_replicate]
  omega

/-! ## Reading -/

/-- `char::to_digit(16)`. -/
def toDigit (c : Char) : Option Nat :=
  if '0' ≤ c ∧ c ≤ '9' then some (c.toNat - '0'.toNat)
  else if 'a' ≤ c ∧ c ≤ 'f' then some (c.toNat - 'a'.toNat + 10)
  else if 'A' ≤ c ∧ c ≤ 'F' then some (c.toNat - 'A'.toNat + 10)
  else none

/-- One more digit, where the value may not reach `2 ^ bits`. -/
def pushDigit (bits acc : Nat) (c : Char) : Option Nat := do
  let d ← toDigit c
  if acc * 16 + d < 2 ^ bits then some (acc * 16 + d) else none

/-- `from_str_radix(text, 16)` of an unsigned type. -/
def parseHex (bits : Nat) (text : List Char) : Option Nat :=
  let digits := if text.head? = some '+' then text.tail else text
  if digits = [] then none else digits.foldlM (pushDigit bits) 0

theorem toDigit_digitChar {d : Nat} (h : d < 16) : toDigit (Nat.digitChar d) = some d := by
  have hall : ∀ d : Fin 16, toDigit (Nat.digitChar d) = some d.val := by decide
  exact hall ⟨d, h⟩

theorem toDigit_lt {c : Char} {d : Nat} (h : toDigit c = some d) : d < 16 := by
  have hnat : ∀ {a b : Char}, a ≤ b → a.toNat ≤ b.toNat := id
  revert h
  fun_cases toDigit c with
  | case1 hc =>
    intro h
    cases h
    have hle : c.toNat ≤ 57 := hnat hc.2
    show c.toNat - 48 < 16
    omega
  | case2 _ hc =>
    intro h
    cases h
    have hle : c.toNat ≤ 102 := hnat hc.2
    show c.toNat - 97 + 10 < 16
    omega
  | case3 _ _ hc =>
    intro h
    cases h
    have hle : c.toNat ≤ 70 := hnat hc.2
    show c.toNat - 65 + 10 < 16
    omega
  | case4 => exact fun h => nomatch h

theorem toDigit_le {c : Char} {d : Nat} (h : toDigit c = some d) : c.toNat ≤ 102 := by
  have hnat : ∀ {a b : Char}, a ≤ b → a.toNat ≤ b.toNat := id
  revert h
  fun_cases toDigit c with
  | case1 hc => exact fun _ => Nat.le_trans (hnat hc.2) (by decide)
  | case2 _ hc => exact fun _ => hnat hc.2
  | case3 _ _ hc => exact fun _ => Nat.le_trans (hnat hc.2) (by decide)
  | case4 => exact fun h => nomatch h

theorem pushDigit_digitChar {bits acc d : Nat} (hd : d < 16) (h : acc * 16 + d < 2 ^ bits) :
    pushDigit bits acc (Nat.digitChar d) = some (acc * 16 + d) := by
  rw [pushDigit, toDigit_digitChar hd]
  exact if_pos h

theorem foldlM_zeros (bits k : Nat) :
    (List.replicate k '0').foldlM (pushDigit bits) 0 = some 0 := by
  induction k with
  | zero => rfl
  | succ k ih =>
    have hzero : pushDigit bits 0 '0' = some 0 :=
      pushDigit_digitChar (d := 0) (by omega) (Nat.two_pow_pos bits)
    rw [List.replicate_succ, List.foldlM_cons, hzero]
    exact ih

/-- The digits of a number are read as that number. -/
theorem foldlM_toDigits {bits n : Nat} (h : n < 2 ^ bits) :
    (Nat.toDigits 16 n).foldlM (pushDigit bits) 0 = some n := by
  induction n using Nat.strongRecOn with
  | ind n ih =>
    by_cases hn : n < 16
    · rw [Nat.toDigits_of_lt_base hn, List.foldlM_cons,
        pushDigit_digitChar hn (by rwa [Nat.zero_mul, Nat.zero_add]), Nat.zero_mul, Nat.zero_add]
      rfl
    · have hlow : n % 16 < 16 := Nat.mod_lt n (by omega)
      have hval : n / 16 * 16 + n % 16 = n := Nat.div_add_mod' n 16
      rw [Nat.toDigits_of_base_le (by omega) (Nat.le_of_not_lt hn), List.foldlM_append,
        ih (n / 16) (by omega) (by omega)]
      show (List.foldlM (pushDigit bits) (n / 16) [(n % 16).digitChar]) = some n
      rw [List.foldlM_cons, pushDigit_digitChar hlow (by rwa [hval]), hval]
      rfl

theorem toDigit_of_foldlM {bits n : Nat} {l : List Char} {acc : Nat}
    (h : l.foldlM (pushDigit bits) acc = some n) : ∀ c ∈ l, ∃ d, toDigit c = some d := by
  induction l generalizing acc with
  | nil => exact fun c hc => nomatch hc
  | cons c l ih =>
    obtain ⟨next, hnext, h⟩ := Option.bind_eq_some_iff.mp h
    obtain ⟨d, hd, -⟩ := Option.bind_eq_some_iff.mp hnext
    exact List.forall_mem_cons.mpr ⟨⟨d, hd⟩, ih h⟩

/-- A text of digits has no sign in front. -/
theorem head_of_foldlM {bits n : Nat} {text : List Char} (h : text.foldlM (pushDigit bits) 0 = some n) :
    text.head? ≠ some '+' := by
  cases text with
  | nil => exact fun hhead => nomatch hhead
  | cons c text =>
    intro hhead
    cases hhead
    cases h

theorem foldlM_padded {bits width n : Nat} (h : n < 2 ^ bits) :
    (padded width n).foldlM (pushDigit bits) 0 = some n := by
  rw [padded, List.foldlM_append, foldlM_zeros]
  exact foldlM_toDigits h

/-- What is printed is ASCII, up to `f`. -/
theorem padded_le {width n : Nat} {c : Char} (h : c ∈ padded width n) : c.toNat ≤ 102 := by
  obtain ⟨d, hd⟩ := toDigit_of_foldlM (foldlM_padded Nat.lt_two_pow_self) c h
  exact toDigit_le hd

theorem parseHex_padded {bits width n : Nat} (h : n < 2 ^ bits) : parseHex bits (padded width n) = some n := by
  have hread := @foldlM_padded bits width n h
  have hne : padded width n ≠ [] := by
    rw [padded]
    exact List.append_ne_nil_of_right_ne_nil _ Nat.toDigits_ne_nil
  rw [parseHex, if_neg (head_of_foldlM hread), if_neg hne, hread]

theorem foldlM_pushDigit_lt {bits m : Nat} {l : List Char} {acc : Nat}
    (h : l.foldlM (pushDigit bits) acc = some m) : m < (acc + 1) * 16 ^ l.length := by
  induction l generalizing acc with
  | nil =>
    cases h
    simp
  | cons c l ih =>
    obtain ⟨next, hnext, h⟩ := Option.bind_eq_some_iff.mp h
    have hdigit : next + 1 ≤ (acc + 1) * 16 := by
      obtain ⟨d, hd, hnext⟩ := Option.bind_eq_some_iff.mp hnext
      have hlt : d < 16 := toDigit_lt hd
      split at hnext
      · cases hnext
        omega
      · cases hnext
    calc m < (next + 1) * 16 ^ l.length := ih h
      _ ≤ (acc + 1) * 16 * 16 ^ l.length := Nat.mul_le_mul_right _ hdigit
      _ = (acc + 1) * 16 ^ (c :: l).length := by
        rw [List.length_cons, Nat.pow_succ, Nat.mul_assoc, Nat.mul_comm 16]

/-- What is read has no more digits than the text has characters. -/
theorem parseHex_lt {bits n : Nat} {text : List Char} (h : parseHex bits text = some n) :
    n < 16 ^ text.length := by
  have hlen : (if text.head? = some '+' then text.tail else text).length ≤ text.length := by
    split
    · rw [List.length_tail]
      exact Nat.sub_le _ _
    · exact Nat.le_refl _
  unfold parseHex at h
  generalize (if text.head? = some '+' then text.tail else text) = digits at h hlen
  by_cases hd : digits = []
  · cases (if_pos hd).symm.trans h
  · have hlt := foldlM_pushDigit_lt ((if_neg hd).symm.trans h)
    rw [Nat.zero_add, Nat.one_mul] at hlt
    exact Nat.lt_of_lt_of_le hlt (Nat.pow_le_pow_right (by omega) hlen)

end DroidMirror.Lib.Hex
