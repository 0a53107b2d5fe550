import Mathlib.Data.Int.ConditionallyCompleteOrder
import Mathlib.Data.Prod.Lex
import Mathlib.Order.Lattice.Nat
import Mathlib.Order.Monotone.Basic

/-! # The Gregorian calendar

Dates of the proleptic calendar with the day that follows each, and the date
a number of days after the start of 1970. The dates increase from day to day.
For closed formulas the year is counted from March, so that the leap day ends
it: `marchStart` counts the days before a year's first of March. -/
namespace DroidMirror.Lib.Calendar

/-! ## Dates -/

def leap (year : Int) : Prop := year % 4 = 0 ∧ (year % 100 ≠ 0 ∨ year % 400 = 0)

instance (year : Int) : Decidable (leap year) := inferInstanceAs (Decidable (_ ∧ _))

def monthLength (year : Int) (month : Nat) : Nat :=
  if month = 2 then if leap year then 29 else 28
  else if month = 4 ∨ month = 6 ∨ month = 9 ∨ month = 11 then 30
  else 31

structure Date where
  year : Int
  month : Nat
  day : Nat
  deriving DecidableEq

namespace Date

/-- The months are 1 to 12 and the days those of the month. -/
structure Valid (t : Date) : Prop where
  month_pos : 1 ≤ t.month
  month_le : t.month ≤ 12
  day_pos : 1 ≤ t.day
  day_le : t.day ≤ monthLength t.year t.month

/-- The day after. -/
def next (t : Date) : Date :=
  if t.day < monthLength t.year t.month then { t with day := t.day + 1 }
  else if t.month < 12 then ⟨t.year, t.month + 1, 1⟩
  else ⟨t.year + 1, 1, 1⟩

/-- Dates are ordered by year, then month, then day. -/
def key (t : Date) : ℤ ×ₗ ℕ ×ₗ ℕ := toLex (t.year, toLex (t.month, t.day))

theorem one_le_monthLength (year : Int) (month : Nat) : 1 ≤ monthLength year month := by
  unfold monthLength
  split_ifs <;> omega

theorem Valid.next {t : Date} (h : t.Valid) : t.next.Valid := by
  unfold Date.next
  split
  · rename_i hd
    exact ⟨h.month_pos, h.month_le, by simp, hd⟩
  · split
    · rename_i hm
      exact ⟨by simp, hm, Nat.le_refl _, one_le_monthLength _ _⟩
    · exact ⟨Nat.le_refl _, by simp, Nat.le_refl _, one_le_monthLength _ _⟩

theorem key_lt_next (t : Date) : t.key < t.next.key := by
  unfold Date.next
  split
  · simp [key, Prod.Lex.toLex_lt_toLex]
  · split
    · simp [key, Prod.Lex.toLex_lt_toLex]
    · rw [key, key, Prod.Lex.toLex_lt_toLex]
      exact .inl (Int.lt_succ t.year)

theorem year_le_next (t : Date) : t.year ≤ t.next.year := by
  unfold Date.next
  split
  · exact le_rfl
  · split
    · exact le_rfl
    · exact (Int.lt_succ t.year).le

end Date

/-- The date so many days after 1 January 1970. -/
def dateAfter : Nat → Date
  | 0 => ⟨1970, 1, 1⟩
  | n + 1 => (dateAfter n).next

theorem dateAfter_valid (n : Nat) : (dateAfter n).Valid := by
  induction n with
  | zero => exact ⟨by decide, by decide, by decide, by decide⟩
  | succ n ih => exact ih.next

theorem dateAfter_strictMono : StrictMono fun n => (dateAfter n).key :=
  strictMono_nat_of_lt_succ fun n => (dateAfter n).key_lt_next

theorem dateAfter_injective {m n : Nat} (h : dateAfter m = dateAfter n) : m = n :=
  dateAfter_strictMono.injective (congrArg Date.key h)

theorem year_monotone : Monotone fun n => (dateAfter n).year :=
  monotone_nat_of_le_succ fun n => (dateAfter n).year_le_next

/-! ## Years from March -/

/-- The days from 1 March of the year 0 to 1 March of this one. -/
def marchStart (year : Nat) : Nat := 365 * year + year / 4 - year / 100 + year / 400

theorem leap_natCast (year : Nat) : leap year ↔ 4 ∣ year ∧ (¬ 100 ∣ year ∨ 400 ∣ year) := by
  unfold leap
  omega

/-- A year from March ends with the February of the next. -/
theorem marchStart_succ (year : Nat) :
    marchStart (year + 1) = marchStart year + 365 + if leap ((year + 1 : Nat) : Int) then 1 else 0 := by
  have h4 : 100 ∣ year + 1 → 4 ∣ year + 1 := Nat.dvd_trans (by decide)
  have h100 : 400 ∣ year + 1 → 100 ∣ year + 1 := Nat.dvd_trans (by decide)
  have hle : year / 100 ≤ year := Nat.div_le_self year 100
  simp only [leap_natCast, marchStart, Nat.succ_div]
  by_cases hd4 : 4 ∣ year + 1
  · by_cases hd100 : 100 ∣ year + 1
    · by_cases hd400 : 400 ∣ year + 1 <;> simp only [hd4, hd100, hd400] <;> simp <;> omega
    · simp only [hd4, hd100, mt h100 hd100]
      simp
      omega
  · simp only [hd4, mt h4 hd4, mt h100 (mt h4 hd4)]
    simp
    omega

theorem marchStart_strictMono : StrictMono marchStart :=
  strictMono_nat_of_lt_succ fun year => by
    rw [marchStart_succ]
    omega

/-- Four hundred years are a whole number of days whatever year they start in. -/
theorem marchStart_era (era year : Nat) :
    marchStart (400 * era + year) = 146097 * era + marchStart year := by
  unfold marchStart
  omega

end DroidMirror.Lib.Calendar
