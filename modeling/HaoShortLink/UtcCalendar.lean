import HaoShortLink.Calendars
import HaoShortLink.Decimals
import HaoShortLink.Positionals
import HaoShortLink.UtcTimestamps

/-! The arithmetic of UTC timestamps against the Gregorian calendar. -/
namespace UtcCalendar

open Cpp UtcTimestamps Calendars

theorem isLeap_iff (year : ℕ) :
    IsLeap year ↔ year % 4 = 0 ∧ (year % 100 ≠ 0 ∨ year % 400 = 0) := by
  rw [IsLeap]
  omega

theorem isLeapYear_iff (year : ℕ) : isLeapYear year = true ↔ IsLeap year := by
  rw [isLeap_iff]
  simp only [isLeapYear, Bool.and_eq_true, Bool.or_eq_true, beq_iff_eq, bne_iff_ne, ne_eq]
  omega

theorem daysInMonth_eq (year : ℕ) {month : ℕ} (h : 1 ≤ month) (h' : month ≤ 12) :
    daysInMonth year month = monthDays year month := by
  have hleap := isLeapYear_iff year
  interval_cases month <;> simp [daysInMonth, monthDays, hleap]

theorem daysFromCivil_day (year month day : ℤ) :
    daysFromCivil year month day = daysFromCivil year month 1 + (day - 1) := by
  simp only [daysFromCivil]
  omega

theorem daysFromCivil_month (year : ℕ) {month : ℕ} (h : 1 ≤ month) (h' : month < 12) :
    daysFromCivil year (month + 1 : ℕ) 1 =
      daysFromCivil year month 1 + monthDays year month := by
  have hleap := isLeap_iff year
  by_cases hyear : IsLeap year
  · have hrule := hleap.mp hyear
    interval_cases month <;> simp only [daysFromCivil, monthDays, if_pos hyear] <;> omega
  · have hrule := mt hleap.mpr hyear
    interval_cases month <;> simp only [daysFromCivil, monthDays, if_neg hyear] <;> omega

theorem daysFromCivil_year (year : ℕ) :
    daysFromCivil (year + 1 : ℕ) 1 1 = daysFromCivil year 1 1 + yearDays year := by
  have hleap := isLeap_iff year
  simp only [daysFromCivil, yearDays]
  norm_num
  by_cases hyear : IsLeap year
  · have hrule := hleap.mp hyear
    rw [if_pos hyear]
    omega
  · have hrule := mt hleap.mpr hyear
    rw [if_neg hyear]
    omega

theorem daysFromCivil_firstDay {year : ℕ} (h : 1970 ≤ year) :
    daysFromCivil year 1 1 = (∑ y ∈ Finset.Ico 1970 year, yearDays y : ℕ) := by
  induction year, h using Nat.le_induction with
  | base => rfl
  | succ year h ih =>
    rw [daysFromCivil_year, ih, Finset.sum_Ico_succ_top h, Nat.cast_add]

theorem daysFromCivil_firstOfMonth (year : ℕ) {month : ℕ} (h : 1 ≤ month) (h' : month ≤ 12) :
    daysFromCivil year month 1 =
      daysFromCivil year 1 1 + (∑ m ∈ Finset.Ico 1 month, monthDays year m : ℕ) := by
  induction month, h using Nat.le_induction with
  | base => simp
  | succ month h ih =>
    rw [daysFromCivil_month year h h', ih (Nat.le_of_lt h'), Finset.sum_Ico_succ_top h,
      Nat.cast_add, add_assoc]

theorem daysFromCivil_eq {d : Date} (h : 1970 ≤ d.year) :
    daysFromCivil d.year d.month d.day = d.daysSince 1970 := by
  have hday := d.day_pos
  rw [daysFromCivil_day, daysFromCivil_firstOfMonth d.year d.month_pos d.month_le,
    daysFromCivil_firstDay h, Date.daysSince, Date.dayOfYear]
  omega

theorem yearOfEra_parts {yearOfEra : ℤ} (h : 0 ≤ yearOfEra) (h' : yearOfEra < 400) :
    ∃ c q r : ℤ, yearOfEra = 100 * c + 4 * q + r ∧ 0 ≤ c ∧ c < 4 ∧ 0 ≤ q ∧ q < 25 ∧
      0 ≤ r ∧ r < 4 :=
  ⟨yearOfEra / 100, yearOfEra % 100 / 4, yearOfEra % 4, by omega, by omega, by omega, by omega,
    by omega, by omega, by omega⟩

def dayOfEra (yearOfEra dayOfYear : ℤ) : ℤ :=
  yearOfEra * 365 + yearOfEra / 4 - yearOfEra / 100 + dayOfYear

theorem dayOfEra_parts {c q r : ℤ} (hq : 0 ≤ q) (hq' : q < 25) (hr : 0 ≤ r) (hr' : r < 4)
    (dayOfYear : ℤ) : dayOfEra (100 * c + 4 * q + r) dayOfYear =
      36524 * c + (1461 * q + 365 * r + dayOfYear) := by
  have hfours : (100 * c + 4 * q + r) / 4 = 25 * c + q := by omega
  have hcenturies : (100 * c + 4 * q + r) / 100 = c := by omega
  rw [dayOfEra, hfours, hcenturies]
  omega

/-- The last day of an era falls into a fifth century that is not there. -/
theorem century_eq {c k : ℤ} (hc : 0 ≤ c) (hc' : c < 4) (hk : 0 ≤ k)
    (hk' : k < 36524 ∨ k = 36524 ∧ c = 3) :
    (36524 * c + k) / 36524 - (36524 * c + k) / 146096 = c := by
  rcases hk' with hlt | ⟨rfl, rfl⟩
  · have hcentury : (36524 * c + k) / 36524 = c := by omega
    have hera : (36524 * c + k) / 146096 = 0 := by omega
    omega
  · rfl

theorem fours_eq (c q r dayOfYear : ℤ) :
    (36524 * c + (1461 * q + 365 * r + dayOfYear)) / 1460 =
      25 * c + q + (24 * c + q + 365 * r + dayOfYear) / 1460 := by
  omega

theorem leapDay_parts {c q r : ℤ} (hc : 0 ≤ c) (hr : 0 ≤ r) (hr' : r < 4)
    (hfour : (100 * c + 4 * q + r + 1) % 4 = 0)
    (hrule : (100 * c + 4 * q + r + 1) % 100 ≠ 0 ∨ (100 * c + 4 * q + r + 1) % 400 = 0) :
    r = 3 ∧ (q = 24 → 3 ≤ c) := by
  have hlast : r = 3 := by omega
  refine ⟨hlast, fun hcentury => ?_⟩
  subst hlast hcentury
  omega

theorem dayOfCentury_range {c q r dayOfYear : ℤ} (hc' : c < 4) (hq : 0 ≤ q) (hq' : q < 25)
    (hr : 0 ≤ r) (hr' : r < 4) (hday : 0 ≤ dayOfYear) (hday' : dayOfYear ≤ 365)
    (hlast : dayOfYear = 365 → r = 3 ∧ (q = 24 → 3 ≤ c)) :
    0 ≤ 1461 * q + 365 * r + dayOfYear ∧ (1461 * q + 365 * r + dayOfYear < 36524 ∨
      1461 * q + 365 * r + dayOfYear = 36524 ∧ c = 3) := by
  refine ⟨by omega, ?_⟩
  by_cases h365 : dayOfYear = 365
  · have := hlast h365
    omega
  · omega

theorem dayOfYear_range {c q r dayOfYear : ℤ} (hc : 0 ≤ c) (hc' : c < 4) (hq : 0 ≤ q)
    (hq' : q < 25) (hr : 0 ≤ r) (hr' : r < 4) (hday : 0 ≤ dayOfYear) (hday' : dayOfYear ≤ 365)
    (hlast : dayOfYear = 365 → r = 3) :
    0 ≤ dayOfYear - (24 * c + q + 365 * r + dayOfYear) / 1460 ∧
      dayOfYear - (24 * c + q + 365 * r + dayOfYear) / 1460 < 365 := by
  omega

/-- The day 365 of a year is there in leap years only. -/
theorem yearOfEra_eq {yearOfEra dayOfYear : ℤ} (h : 0 ≤ yearOfEra) (h' : yearOfEra < 400)
    (hday : 0 ≤ dayOfYear) (hday' : dayOfYear ≤ 365)
    (hleap : dayOfYear = 365 →
      (yearOfEra + 1) % 4 = 0 ∧ ((yearOfEra + 1) % 100 ≠ 0 ∨ (yearOfEra + 1) % 400 = 0)) :
    (dayOfEra yearOfEra dayOfYear - dayOfEra yearOfEra dayOfYear / 1460 +
        dayOfEra yearOfEra dayOfYear / 36524 - dayOfEra yearOfEra dayOfYear / 146096) / 365 =
      yearOfEra := by
  obtain ⟨c, q, r, rfl, hc, hc', hq, hq', hr, hr'⟩ := yearOfEra_parts h h'
  have hlast : dayOfYear = 365 → r = 3 ∧ (q = 24 → 3 ≤ c) := fun h365 =>
    leapDay_parts hc hr hr' (hleap h365).1 (hleap h365).2
  obtain ⟨hlow, hhigh⟩ := dayOfCentury_range hc' hq hq' hr hr' hday hday' hlast
  have hcentury := century_eq hc hc' hlow hhigh
  have hfours := fours_eq c q r dayOfYear
  have hrest := dayOfYear_range hc hc' hq hq' hr hr' hday hday' fun h365 => (hlast h365).1
  rw [dayOfEra_parts hq hq' hr hr', hfours]
  generalize (36524 * c + (1461 * q + 365 * r + dayOfYear)) / 36524 = x at hcentury ⊢
  generalize (36524 * c + (1461 * q + 365 * r + dayOfYear)) / 146096 = y at hcentury ⊢
  generalize (24 * c + q + 365 * r + dayOfYear) / 1460 = ε at hrest ⊢
  have hnumerator : 36524 * c + (1461 * q + 365 * r + dayOfYear) - (25 * c + q + ε) + x - y =
      365 * (100 * c + 4 * q + r) + (dayOfYear - ε) := by
    omega
  rw [hnumerator]
  omega

/-- Months are counted from March, so that a leap day is the last day of its year. -/
def adjustedMonth (month : ℕ) : ℤ := month + if (month : ℤ) > 2 then -3 else 9

def adjustedYear (year month : ℕ) : ℤ := if (month : ℤ) ≤ 2 then year - 1 else year

def adjustedDay (month day : ℕ) : ℤ := (153 * adjustedMonth month + 2) / 5 + day - 1

theorem adjustedMonth_month {month : ℕ} (h : 1 ≤ month) (h' : month ≤ 12) :
    (if adjustedMonth month < 10 then adjustedMonth month + 3 else adjustedMonth month - 9) =
      month := by
  interval_cases month <;> rfl

theorem adjustedDay_range (year : ℕ) {month day : ℕ} (h : 1 ≤ month) (h' : month ≤ 12)
    (hday : 1 ≤ day) (hday' : day ≤ monthDays year month) :
    0 ≤ adjustedDay month day ∧ adjustedDay month day ≤ 365 ∧
      (adjustedDay month day = 365 → month = 2 ∧ IsLeap year) ∧
      (5 * adjustedDay month day + 2) / 153 = adjustedMonth month := by
  by_cases hleap : IsLeap year
  · interval_cases month <;> simp [monthDays, hleap] at hday' <;>
      simp [adjustedDay, adjustedMonth, hleap] <;> omega
  · interval_cases month <;> simp [monthDays, hleap] at hday' <;>
      simp [adjustedDay, adjustedMonth] <;> omega

theorem daysFromCivil_adjusted (year month day : ℕ) : daysFromCivil year month day =
    adjustedYear year month / 400 * 146097 +
      dayOfEra (adjustedYear year month % 400) (adjustedDay month day) - 719468 := by
  have hrest : adjustedYear year month - adjustedYear year month / 400 * 400 =
      adjustedYear year month % 400 := by omega
  rw [← hrest]
  rfl

theorem adjustedYear_leap {year month : ℕ} (hmonth : month = 2) (hleap : IsLeap year) :
    (adjustedYear year month % 400 + 1) % 4 = 0 ∧
      ((adjustedYear year month % 400 + 1) % 100 ≠ 0 ∨
        (adjustedYear year month % 400 + 1) % 400 = 0) := by
  have hrule := (isLeap_iff year).mp hleap
  subst hmonth
  simp only [adjustedYear, Nat.cast_ofNat, Int.le_refl, if_true]
  omega

theorem dayOfEra_range {yearOfEra dayOfYear : ℤ} (h : 0 ≤ yearOfEra) (h' : yearOfEra < 400)
    (hday : 0 ≤ dayOfYear) (hday' : dayOfYear ≤ 365) :
    0 ≤ dayOfEra yearOfEra dayOfYear ∧ dayOfEra yearOfEra dayOfYear < 146097 := by
  rw [dayOfEra]
  omega

/-- gmtime finds the date of a day, and the time in it. -/
theorem gmtime_daysFromCivil {d : Date} (hyear : d.year < 2 ^ 31) {secondOfDay : ℤ}
    (h : 0 ≤ secondOfDay) (h' : secondOfDay < 86400) :
    gmtime (daysFromCivil d.year d.month d.day * 86400 + secondOfDay) =
      ⟨d.year, d.month, d.day, secondOfDay / 3600, secondOfDay / 60 % 60, secondOfDay % 60⟩ := by
  obtain ⟨hlow, hhigh, h365, hmonth⟩ :=
    adjustedDay_range d.year d.month_pos d.month_le d.day_pos d.day_le
  have hera := Int.emod_nonneg (adjustedYear d.year d.month) (show (400 : ℤ) ≠ 0 by decide)
  have hera' := Int.emod_lt_of_pos (adjustedYear d.year d.month) (show (0 : ℤ) < 400 by decide)
  have hleap := fun heq => adjustedYear_leap (h365 heq).1 (h365 heq).2
  have hyearOfEra := yearOfEra_eq hera hera' hlow hhigh hleap
  obtain ⟨hdays, hdays'⟩ := dayOfEra_range hera hera' hlow hhigh
  have hback := adjustedMonth_month d.month_pos d.month_le
  have hyears : adjustedYear d.year d.month % 400 + adjustedYear d.year d.month / 400 * 400 +
      (if (d.month : ℤ) ≤ 2 then 1 else 0) = d.year := by
    rw [adjustedYear]
    split <;> omega
  have hdayOfYear : dayOfEra (adjustedYear d.year d.month % 400) (adjustedDay d.month d.day) -
      (365 * (adjustedYear d.year d.month % 400) + adjustedYear d.year d.month % 400 / 4 -
        adjustedYear d.year d.month % 400 / 100) = adjustedDay d.month d.day := by
    rw [dayOfEra]
    omega
  have hday : adjustedDay d.month d.day - (153 * adjustedMonth d.month + 2) / 5 + 1 = d.day := by
    rw [adjustedDay]
    omega
  rw [daysFromCivil_adjusted]
  generalize dayOfEra (adjustedYear d.year d.month % 400) (adjustedDay d.month d.day) = dayOfEra
    at *
  generalize adjustedYear d.year d.month % 400 = yearOfEra at *
  generalize adjustedYear d.year d.month / 400 = era at *
  have hdivide : ((era * 146097 + dayOfEra - 719468) * 86400 + secondOfDay) / 86400 + 719468 =
      era * 146097 + dayOfEra := by omega
  have hsecond : ((era * 146097 + dayOfEra - 719468) * 86400 + secondOfDay) % 86400 =
      secondOfDay := by omega
  have hera : (era * 146097 + dayOfEra) / 146097 = era := by omega
  have hdayOfEra : (era * 146097 + dayOfEra) % 146097 = dayOfEra := by omega
  simp only [gmtime, hdivide, hsecond, hera, hdayOfEra, hyearOfEra, hdayOfYear, hmonth, hback,
    hyears, hday]
  rw [if_pos]
  omega

end UtcCalendar
