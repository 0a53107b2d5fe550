import Mathlib.Tactic.IntervalCases
import DroidMirror.Lib.Calendar
import DroidMirror.Lib.Decimal

/-! # The time in a file's name

A capture is named after the UTC time it starts at. The date comes from a
closed formula over eras of 400 years that start in March (`civilFromDays`); it
is the date the calendar reaches day by day, so names of different days differ
(`civilFromDays_calendar`). -/
namespace DroidMirror.Native
open DroidMirror.Lib.Calendar DroidMirror.Lib.Decimal

/-! ## The code -/

/-- Year, month and day of a count of days since 1 January 1970. -/
def civilFromDays (days : Int) : Int32 × UInt32 × UInt32 :=
  let z := days + 719468
  let era := (if z ≥ 0 then z else z - 146096).tdiv 146097
  let doe := (z - era * 146097).toNat
  let yoe := (doe - doe / 1460 + doe / 36524 - doe / 146096) / 365
  let y := yoe + era * 400
  let doy := doe - (365 * yoe + yoe / 4 - yoe / 100)
  let mp := (5 * doy + 2) / 153
  let d := doy - (153 * mp + 2) / 5 + 1
  let m := if mp < 10 then mp + 3 else mp - 9
  let y := if m ≤ 2 then y + 1 else y
  (Int32.ofInt y, UInt32.ofNat m, UInt32.ofNat d)

/-- `{:04}` of a signed number: a minus takes one of the places. -/
def signed04 (y : Int32) : List Char :=
  if y.toInt < 0 then '-' :: padded 3 y.toInt.natAbs else padded 4 y.toInt.natAbs

/-- The stamp at so many milliseconds after the epoch. -/
def utcStamp (ms : Nat) : List Char :=
  let secs := UInt64.ofNat (ms / 1000)
  let millis := UInt32.ofNat (ms % 1000)
  let days := secs.toNat / 86400
  let tod := secs.toNat % 86400
  let (y, mo, d) := civilFromDays days
  signed04 y ++ padded 2 mo.toNat ++ padded 2 d.toNat ++ ['-'] ++ padded 2 (tod / 3600) ++
    padded 2 (tod % 3600 / 60) ++ padded 2 (tod % 60) ++ ['-'] ++ padded 3 millis.toNat

/-- The file name of `output_path`. -/
def outputName (ext : String) (ms : Nat) : String :=
  "droidmirror-" ++ String.ofList (utcStamp ms) ++ "." ++ ext

/-! ## From a March year to the date -/

/-- The first day of a month counted from March, in the year from March. -/
def monthStart (mp : Nat) : Nat := (153 * mp + 2) / 5

def monthOf (mp : Nat) : Nat := if mp < 10 then mp + 3 else mp - 9

/-- The date so many days into a year from March. -/
def fromMarch (year doy : Nat) : Date :=
  let mp := (5 * doy + 2) / 153
  { year := if monthOf mp ≤ 2 then year + 1 else year
    month := monthOf mp
    day := doy - monthStart mp + 1 }

theorem month_iff (doy mp : Nat) :
    (5 * doy + 2) / 153 = mp ↔ monthStart mp ≤ doy ∧ doy < monthStart (mp + 1) := by
  unfold monthStart
  omega

theorem monthLength_eq {mp : Nat} (h : mp < 11) (year : Int) :
    monthLength year (monthOf mp) = monthStart (mp + 1) - monthStart mp := by
  interval_cases mp <;> rfl

/-- The last month of a year from March is February. -/
theorem february (year : Nat) :
    monthLength ((year : Int) + 1) (monthOf 11) =
      marchStart (year + 1) - marchStart year - monthStart 11 := by
  rw [marchStart_succ]
  show (if leap ((year : Int) + 1) then 29 else 28) = _
  rw [show ((year + 1 : Nat) : Int) = (year : Int) + 1 from rfl, show monthStart 11 = 337 from rfl]
  split <;> omega

/-- The months of a year from March run on to December, and two belong to the next year. -/
theorem monthOf_succ {mp : Nat} (h : mp < 11) :
    monthOf mp < 12 ∧ monthOf (mp + 1) = monthOf mp + 1 ∧
      (monthOf mp ≤ 2 ↔ monthOf (mp + 1) ≤ 2) ∨
    monthOf mp = 12 ∧ monthOf (mp + 1) = 1 := by
  unfold monthOf
  split_ifs <;> omega

theorem fromMarch_eq {year doy mp : Nat} (h : (5 * doy + 2) / 153 = mp) :
    fromMarch year doy =
      ⟨if monthOf mp ≤ 2 then year + 1 else year, monthOf mp, doy - monthStart mp + 1⟩ := by
  subst h
  rfl

theorem yearLength_le (year : Nat) : marchStart (year + 1) - marchStart year ≤ 366 := by
  rw [marchStart_succ]
  split <;> omega

theorem le_yearLength (year : Nat) : 365 ≤ marchStart (year + 1) - marchStart year := by
  rw [marchStart_succ]
  omega

/-- Within a year from March the next day is the day after. -/
theorem fromMarch_next {year doy : Nat} (h : doy + 1 < marchStart (year + 1) - marchStart year) :
    (fromMarch year doy).next = fromMarch year (doy + 1) := by
  have hlen := yearLength_le year
  obtain ⟨mp, hmp⟩ : ∃ mp, (5 * doy + 2) / 153 = mp := ⟨_, rfl⟩
  obtain ⟨hlo, hhi⟩ := (month_iff doy mp).mp hmp
  have hmp12 : mp < 12 := by omega
  by_cases hin : doy + 1 < monthStart (mp + 1)
  · -- inside the month
    have hsame : (5 * (doy + 1) + 2) / 153 = mp := (month_iff _ _).mpr ⟨by omega, hin⟩
    rw [fromMarch_eq hmp, fromMarch_eq hsame, Date.next, if_pos]
    · rw [show doy + 1 - monthStart mp = doy - monthStart mp + 1 by omega]
    · show doy - monthStart mp + 1 < monthLength _ (monthOf mp)
      by_cases hfeb : mp = 11
      · subst hfeb
        show _ < monthLength ((year : Int) + 1) (monthOf 11)
        rw [february]
        omega
      · rw [monthLength_eq (by omega)]
        omega
  · -- its last day
    have hmp11 : mp < 11 := by
      by_contra hge
      have hfeb : mp = 11 := by omega
      subst hfeb
      have : monthStart (11 + 1) = 367 := rfl
      omega
    have hsucc : (5 * (doy + 1) + 2) / 153 = mp + 1 := by
      rw [month_iff]
      unfold monthStart at hin hhi ⊢
      omega
    have hday : doy + 1 - monthStart (mp + 1) + 1 = 1 := by omega
    have hlast : ¬ doy - monthStart mp + 1 <
        monthLength (if monthOf mp ≤ 2 then (year : Int) + 1 else year) (monthOf mp) := by
      rw [monthLength_eq hmp11]
      omega
    rw [fromMarch_eq hmp, fromMarch_eq hsucc, Date.next, if_neg hlast, hday]
    obtain ⟨hm, hs, hy⟩ | ⟨hm, hs⟩ := monthOf_succ hmp11
    · simp only [hm, hs, if_true]
      simp only [hs] at hy
      simp only [hy]
    · simp only [hm, hs]
      rfl

/-- After the last day of February comes March. -/
theorem fromMarch_last (year : Nat) :
    (fromMarch year (marchStart (year + 1) - marchStart year - 1)).next = fromMarch (year + 1) 0 := by
  have hle := le_yearLength year
  have hlen := yearLength_le year
  have hfeb := february year
  have h11 : monthStart 11 = 337 := rfl
  have hmp : (5 * (marchStart (year + 1) - marchStart year - 1) + 2) / 153 = 11 := by
    rw [month_iff, h11, show monthStart (11 + 1) = 367 from rfl]
    omega
  have hlast : ¬ marchStart (year + 1) - marchStart year - 1 - monthStart 11 + 1 <
      monthLength (if monthOf 11 ≤ 2 then (year : Int) + 1 else year) (monthOf 11) := by
    show ¬ _ < monthLength ((year : Int) + 1) (monthOf 11)
    omega
  rw [fromMarch_eq hmp, Date.next, if_neg hlast]
  rfl

/-- The year from March and the day in it give the date, whichever day it is. -/
theorem dateAfter_eq_fromMarch {n year : Nat} (hlo : marchStart year ≤ n + 719468)
    (hhi : n + 719468 < marchStart (year + 1)) :
    dateAfter n = fromMarch year (n + 719468 - marchStart year) := by
  induction n generalizing year with
  | zero =>
    have hyear : year = 1969 := by
      have h0 : marchStart 1969 ≤ 719468 ∧ 719468 < marchStart 1970 := by decide
      have hle := marchStart_strictMono.lt_iff_lt.mp (Nat.lt_of_le_of_lt hlo (by omega : _ < marchStart 1970))
      have hge := marchStart_strictMono.lt_iff_lt.mp (Nat.lt_of_le_of_lt h0.1 (by omega : _ < marchStart (year + 1)))
      omega
    subst hyear
    decide
  | succ n ih =>
    by_cases hsame : marchStart year ≤ n + 719468
    · have hih := ih hsame (by omega)
      rw [dateAfter, hih, fromMarch_next (by omega)]
      congr 1
      omega
    · obtain ⟨prev, rfl⟩ : ∃ prev, year = prev + 1 := by
        apply Nat.exists_eq_succ_of_ne_zero
        rintro rfl
        exact hsame (Nat.zero_le _)
      have hstart : n + 719468 + 1 = marchStart (prev + 1) := by omega
      have hlt : marchStart prev < marchStart (prev + 1) :=
        marchStart_strictMono (Nat.lt_succ_self prev)
      have hih := @ih prev (by omega) (by omega)
      rw [dateAfter, hih, show n + 719468 - marchStart prev =
        marchStart (prev + 1) - marchStart prev - 1 by omega, fromMarch_last]
      congr 1
      omega

/-! ## The year from March of a day -/

/-- The days of an era without its leap days, as the formula takes them out. -/
def withoutLeapDays (doe : Nat) : Nat := doe - doe / 1460 + doe / 36524 - doe / 146096

theorem withoutLeapDays_monotone : Monotone withoutLeapDays :=
  monotone_nat_of_le_succ fun doe => by
    unfold withoutLeapDays
    omega

/-- Each of the 400 years of an era starts and ends within its own 365 such days. -/
theorem withoutLeapDays_year : ∀ year < 400,
    365 * year ≤ withoutLeapDays (marchStart year) ∧
      withoutLeapDays (marchStart (year + 1) - 1) < 365 * (year + 1) := by
  decide +kernel

/-- The quotient is the year the day lies in: the days left are monotone, so the ends decide. -/
theorem yoe_spec {doe : Nat} (h : doe < 146097) :
    withoutLeapDays doe / 365 < 400 ∧ marchStart (withoutLeapDays doe / 365) ≤ doe ∧
      doe < marchStart (withoutLeapDays doe / 365 + 1) := by
  obtain ⟨year, hyear⟩ : ∃ year, withoutLeapDays doe / 365 = year := ⟨_, rfl⟩
  rw [hyear]
  have hlast : withoutLeapDays doe < 365 * 400 :=
    Nat.lt_of_le_of_lt (withoutLeapDays_monotone (Nat.le_of_lt_succ h)) (by decide)
  have hlt : year < 400 := by omega
  refine ⟨hlt, ?_, ?_⟩
  · by_contra hbefore
    obtain ⟨prev, rfl⟩ : ∃ prev, year = prev + 1 := by
      apply Nat.exists_eq_succ_of_ne_zero
      rintro rfl
      exact hbefore (Nat.zero_le _)
    have hle : doe ≤ marchStart (prev + 1) - 1 := by omega
    have hmono : withoutLeapDays doe ≤ _ := withoutLeapDays_monotone hle
    have hend := (withoutLeapDays_year prev (by omega)).2
    omega
  · by_contra hafter
    have hmono : withoutLeapDays (marchStart (year + 1)) ≤ withoutLeapDays doe :=
      withoutLeapDays_monotone (Nat.not_lt.mp hafter)
    by_cases hend : year + 1 < 400
    · have hstart := (withoutLeapDays_year (year + 1) hend).1
      omega
    · have hyear400 : year = 399 := by omega
      subst hyear400
      have : marchStart (399 + 1) = 146097 := by decide
      omega

/-- In the first 400 years the days before a year need no term for the era. -/
theorem marchStart_in_era {yoe : Nat} (h : yoe < 400) :
    365 * yoe + yoe / 4 - yoe / 100 = marchStart yoe := by
  unfold marchStart
  omega

theorem era_eq {n era doe : Nat} (h : n + 719468 = 146097 * era + doe) (hlt : doe < 146097) :
    (if (n : Int) + 719468 ≥ 0 then (n : Int) + 719468
      else (n : Int) + 719468 - 146096).tdiv 146097 = era := by
  rw [if_pos (by omega), Int.tdiv_eq_ediv_of_nonneg (by omega)]
  omega

theorem doe_eq {n era doe : Nat} (h : n + 719468 = 146097 * era + doe) :
    ((n : Int) + 719468 - (era : Int) * 146097).toNat = doe := by
  omega

theorem days_left_eq {n era doe year : Nat} (h : n + 719468 = 146097 * era + doe) :
    n + 719468 - marchStart (400 * era + year) = doe - marchStart year := by
  rw [marchStart_era]
  omega

/-- The code's result for a day of the Unix era, before it is narrowed: the date itself. -/
theorem civilFromDays_eq (n : Nat) :
    civilFromDays n = (Int32.ofInt (dateAfter n).year, UInt32.ofNat (dateAfter n).month,
      UInt32.ofNat (dateAfter n).day) := by
  obtain ⟨era, doe, h, hdoe⟩ : ∃ era doe, n + 719468 = 146097 * era + doe ∧ doe < 146097 :=
    ⟨(n + 719468) / 146097, (n + 719468) % 146097, by omega, by omega⟩
  obtain ⟨hlt, hlo, hhi⟩ := yoe_spec hdoe
  have hdate := @dateAfter_eq_fromMarch n (400 * era + withoutLeapDays doe / 365)
    (by rw [marchStart_era]; omega) (by rw [Nat.add_assoc, marchStart_era]; omega)
  have hleap : doe - doe / 1460 + doe / 36524 - doe / 146096 = withoutLeapDays doe := rfl
  have hyear : ((400 * era + withoutLeapDays doe / 365 : Nat) : Int) =
      ((withoutLeapDays doe / 365 : Nat) : Int) + (era : Int) * 400 := by omega
  rw [hdate, days_left_eq h, civilFromDays]
  simp only [era_eq h hdoe, doe_eq h, hleap, marchStart_in_era hlt, fromMarch, monthOf, monthStart,
    hyear]

/-! ## Years an `i32` holds -/

/-- The date a result of the code names. -/
def civilDate (c : Int32 × UInt32 × UInt32) : Date := ⟨c.1.toInt, c.2.1.toNat, c.2.2.toNat⟩

/-- A year that fits bounds the count of days. -/
theorem day_lt {n : Nat} (h : (dateAfter n).year < 2 ^ 31) : n < 2 ^ 41 := by
  by_contra hge
  have hstart : marchStart (2 ^ 31) = 784352296305 := rfl
  have hmono : (dateAfter 784351576837).year ≤ (dateAfter n).year := year_monotone (by omega)
  rw [dateAfter_eq_fromMarch (by rw [hstart]) (by decide : _ < marchStart (2 ^ 31 + 1)), hstart] at hmono
  exact absurd (Int.lt_of_le_of_lt hmono h) (by decide)

theorem year_ge (n : Nat) : 1970 ≤ (dateAfter n).year := year_monotone (Nat.zero_le n)

theorem monthLength_le (year : Int) (month : Nat) : monthLength year month ≤ 31 := by
  unfold monthLength
  split_ifs <;> omega

/-- Where the year fits no number is cut off. -/
theorem civilDate_eq {n : Nat} (h : (dateAfter n).year < 2 ^ 31) :
    civilDate (civilFromDays n) = dateAfter n := by
  have hv := dateAfter_valid n
  have hy := year_ge n
  have hday := Nat.le_trans hv.day_le (monthLength_le _ _)
  have hmonth := hv.month_le
  rw [civilFromDays_eq, civilDate]
  show (⟨_, _, _⟩ : Date) = ⟨_, _, _⟩
  congr 1
  · rw [Int32.toInt_ofInt_of_le (by omega) (by omega)]
  · rw [UInt32.toNat_ofNat', Nat.mod_eq_of_lt (by omega)]
  · rw [UInt32.toNat_ofNat', Nat.mod_eq_of_lt (by omega)]

/-! ## Names -/

/-- The digits of a date, as a stamp starts. -/
def dateDigits (t : Date) : List Char :=
  padded 4 t.year.natAbs ++ padded 2 t.month ++ padded 2 t.day

theorem isDigit_of_mem_dateDigits {t : Date} {c : Char} (h : c ∈ dateDigits t) : c.isDigit := by
  rw [dateDigits, List.mem_append, List.mem_append] at h
  obtain (h | h) | h := h <;> exact isDigit_of_mem_padded h

/-- Whatever the width of the year, the digits tell the date. -/
theorem dateDigits_injective {s t : Date} (hs : s.Valid) (ht : t.Valid) (hsy : 0 ≤ s.year)
    (hty : 0 ≤ t.year) (h : dateDigits s = dateDigits t) : s = t := by
  have hlen {n : Nat} (hn : n ≤ 31) : (padded 2 n).length = 2 := length_padded (by omega) (by omega)
  have hsd := Nat.le_trans hs.day_le (monthLength_le _ _)
  have htd := Nat.le_trans ht.day_le (monthLength_le _ _)
  have hsm := hs.month_le
  have htm := ht.month_le
  obtain ⟨hfront, hday⟩ := List.append_inj' h (by rw [hlen hsd, hlen htd])
  obtain ⟨hyear, hmonth⟩ := List.append_inj' hfront (by rw [hlen (by omega), hlen (by omega)])
  have hy := padded_injective hyear
  cases s
  cases t
  simp only [Date.mk.injEq]
  exact ⟨by simp only at hy hsy hty; omega, padded_injective hmonth, padded_injective hday⟩

/-- A stamp starts with the digits of its day and a dash. -/
theorem utcStamp_starts {ms : Nat} (h : (dateAfter (ms / 86400000)).year < 2 ^ 31) :
    ∃ rest, utcStamp ms = dateDigits (dateAfter (ms / 86400000)) ++ '-' :: rest := by
  have hday := day_lt h
  have hsecs : (UInt64.ofNat (ms / 1000)).toNat / 86400 = ms / 86400000 := by
    rw [UInt64.toNat_ofNat', Nat.mod_eq_of_lt (by omega), Nat.div_div_eq_div_mul]
  have hdate := civilDate_eq h
  have hyear : ¬ (civilFromDays (ms / 86400000 : Nat)).1.toInt < 0 := by
    have hy : (civilFromDays (ms / 86400000 : Nat)).1.toInt = _ := congrArg Date.year hdate
    rw [hy]
    have := year_ge (ms / 86400000)
    omega
  rw [← hdate, utcStamp]
  simp only [hsecs, signed04, if_neg hyear, dateDigits, civilDate, List.append_assoc]
  exact ⟨_, rfl⟩

theorem takeWhile_digits {t : Date} (rest : List Char) :
    (dateDigits t ++ '-' :: rest).takeWhile (· ≠ '-') = dateDigits t := by
  have hd : ∀ c ∈ dateDigits t, decide (c ≠ '-') = true := by
    intro c hc
    rw [decide_eq_true_iff]
    rintro rfl
    cases isDigit_of_mem_dateDigits hc
  rw [List.takeWhile_append_of_pos hd]
  simp

theorem toList_outputName {ext : String} {ms : Nat}
    (h : (dateAfter (ms / 86400000)).year < 2 ^ 31) :
    ∃ rest, (outputName ext ms).toList =
      "droidmirror-".toList ++ (dateDigits (dateAfter (ms / 86400000)) ++ '-' :: rest) := by
  obtain ⟨rest, hs⟩ := utcStamp_starts h
  refine ⟨rest ++ ".".toList ++ ext.toList, ?_⟩
  have hstamp : (String.ofList (utcStamp ms)).toList = utcStamp ms := String.toList_ofList
  unfold outputName
  rw [String.toList_append, String.toList_append, String.toList_append, hstamp, hs,
    List.append_assoc, List.append_assoc, List.append_assoc, List.cons_append, List.append_assoc]

/-- Names that are equal were stamped on one day, whatever the time and the extensions. -/
theorem outputName_day {ms ms' : Nat} {ext ext' : String}
    (h : (dateAfter (ms / 86400000)).year < 2 ^ 31) (h' : (dateAfter (ms' / 86400000)).year < 2 ^ 31)
    (heq : outputName ext ms = outputName ext' ms') : ms / 86400000 = ms' / 86400000 := by
  obtain ⟨rest, hs⟩ := @toList_outputName ext _ h
  obtain ⟨rest', hs'⟩ := @toList_outputName ext' _ h'
  rw [heq, hs'] at hs
  have hdigits := congrArg (List.takeWhile (· ≠ '-')) (List.append_cancel_left hs.symm)
  rw [takeWhile_digits, takeWhile_digits] at hdigits
  have hy := year_ge (ms / 86400000)
  have hy' := year_ge (ms' / 86400000)
  exact dateAfter_injective (dateDigits_injective (dateAfter_valid _) (dateAfter_valid _)
    (by omega) (by omega) hdigits)

/-- The formula is the calendar: the date is valid, day 0 is 1 January 1970, each day has the
next date of the one before, dates increase and names of different days differ. -/
theorem civilFromDays_calendar (n : Nat) (h : (dateAfter n).year < 2 ^ 31) :
    civilDate (civilFromDays n) = dateAfter n ∧
    (civilDate (civilFromDays n)).Valid ∧
    civilDate (civilFromDays 0) = ⟨1970, 1, 1⟩ ∧
    (∀ k < n, civilDate (civilFromDays (k + 1 : Nat)) = (civilDate (civilFromDays k)).next ∧
      (civilDate (civilFromDays k)).key < (civilDate (civilFromDays n)).key) ∧
    ∀ ext ext' ms ms', ms / 86400000 ≤ n → ms' / 86400000 ≤ n →
      outputName ext ms = outputName ext' ms' → ms / 86400000 = ms' / 86400000 := by
  have hfits : ∀ {k}, k ≤ n → (dateAfter k).year < 2 ^ 31 :=
    fun hk => Int.lt_of_le_of_lt (year_monotone hk) h
  rw [civilDate_eq h]
  refine ⟨rfl, dateAfter_valid n, ?_, ?_, ?_⟩
  · exact civilDate_eq (hfits (Nat.zero_le n))
  · intro k hk
    rw [civilDate_eq (hfits hk), civilDate_eq (hfits hk.le)]
    exact ⟨rfl, dateAfter_strictMono hk⟩
  · intro ext ext' ms ms' hms hms'
    exact outputName_day (hfits hms) (hfits hms')

/-- Day 11016 is 29 February 2000. -/
theorem civilFromDays_leap_day :
    (dateAfter 11016).year < 2 ^ 31 ∧ civilDate (civilFromDays (11016 : Nat)) = ⟨2000, 2, 29⟩ := by
  have hdate := @dateAfter_eq_fromMarch 11016 1999 (by decide) (by decide)
  have hyear : (dateAfter 11016).year < 2 ^ 31 := by
    rw [hdate]
    decide
  refine ⟨hyear, ?_⟩
  rw [(civilFromDays_calendar 11016 hyear).1, hdate]
  rfl

end DroidMirror.Native
