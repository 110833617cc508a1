import Mathlib.Algebra.BigOperators.Intervals
import Mathlib.Algebra.Order.BigOperators.Group.Finset
import Mathlib.Tactic.IntervalCases

/-! The proleptic Gregorian calendar: its dates and the days that have passed before each. -/
namespace Calendars

def IsLeap (year : ℕ) : Prop := 4 ∣ year ∧ (¬ 100 ∣ year ∨ 400 ∣ year)

instance (year : ℕ) : Decidable (IsLeap year) := inferInstanceAs (Decidable (_ ∧ _))

def monthDays (year : ℕ) : ℕ → ℕ
  | 1 | 3 | 5 | 7 | 8 | 10 | 12 => 31
  | 4 | 6 | 9 | 11 => 30
  | 2 => if IsLeap year then 29 else 28
  | _ => 0

def yearDays (year : ℕ) : ℕ := if IsLeap year then 366 else 365

@[ext]
structure Date where
  year : ℕ
  month : ℕ
  day : ℕ
  month_pos : 1 ≤ month
  month_le : month ≤ 12
  day_pos : 1 ≤ day
  day_le : day ≤ monthDays year month

namespace Date

def dayOfYear (d : Date) : ℕ := ∑ m ∈ Finset.Ico 1 d.month, monthDays d.year m + (d.day - 1)

def daysSince (e : ℕ) (d : Date) : ℕ := ∑ y ∈ Finset.Ico e d.year, yearDays y + d.dayOfYear

def Before (d d' : Date) : Prop :=
  d.year < d'.year ∨ d.year = d'.year ∧
    (d.month < d'.month ∨ d.month = d'.month ∧ d.day < d'.day)

end Date

variable {e year month month' : ℕ} {d d' : Date}

theorem monthDays_pos (h : 1 ≤ month) (h' : month ≤ 12) : 1 ≤ monthDays year month := by
  interval_cases month <;> simp only [monthDays] <;> try omega
  split <;> omega

theorem monthDays_le (year month : ℕ) : monthDays year month ≤ 31 := by
  fun_cases monthDays year month <;> omega

theorem sum_monthDays (year : ℕ) : ∑ m ∈ Finset.Ico 1 13, monthDays year m = yearDays year := by
  rw [yearDays, show Finset.Ico 1 13 = {1, 2, 3, 4, 5, 6, 7, 8, 9, 10, 11, 12} by decide]
  by_cases h : IsLeap year
  · simp [monthDays, h]
  · simp [monthDays, h]

theorem sum_monthDays_succ (year : ℕ) (h : 1 ≤ month) :
    ∑ m ∈ Finset.Ico 1 (month + 1), monthDays year m =
      ∑ m ∈ Finset.Ico 1 month, monthDays year m + monthDays year month :=
  Finset.sum_Ico_succ_top h _

theorem sum_monthDays_le (year : ℕ) (h : month ≤ month') :
    ∑ m ∈ Finset.Ico 1 month, monthDays year m ≤ ∑ m ∈ Finset.Ico 1 month', monthDays year m :=
  Finset.sum_le_sum_of_subset (Finset.Ico_subset_Ico_right h)

theorem dayOfYear_lt (d : Date) : d.dayOfYear < yearDays d.year := by
  have hmonth := sum_monthDays_succ d.year d.month_pos
  have hyear := sum_monthDays_le d.year (Nat.succ_le_succ d.month_le)
  rw [sum_monthDays, hmonth] at hyear
  have hpos := d.day_pos
  have hle := d.day_le
  rw [Date.dayOfYear]
  omega

theorem dayOfYear_lt_of_month (hyear : d.year = d'.year) (h : d.month < d'.month) :
    d.dayOfYear < d'.dayOfYear := by
  have hmonth := sum_monthDays_succ d.year d.month_pos
  have hle := sum_monthDays_le d.year (Nat.succ_le_of_lt h)
  rw [hmonth] at hle
  have hday := d.day_pos
  have hday' := d.day_le
  rw [Date.dayOfYear, Date.dayOfYear, ← hyear]
  omega

theorem daysSince_lt_of_year (he : e ≤ d.year) (h : d.year < d'.year) :
    d.daysSince e < d'.daysSince e := by
  have hday := dayOfYear_lt d
  have hsum : ∑ y ∈ Finset.Ico e (d.year + 1), yearDays y =
      ∑ y ∈ Finset.Ico e d.year, yearDays y + yearDays d.year := Finset.sum_Ico_succ_top he _
  have hle : ∑ y ∈ Finset.Ico e (d.year + 1), yearDays y ≤ ∑ y ∈ Finset.Ico e d'.year, yearDays y :=
    Finset.sum_le_sum_of_subset (Finset.Ico_subset_Ico_right h)
  rw [Date.daysSince, Date.daysSince]
  omega

theorem daysSince_lt_of_before (he : e ≤ d.year) (h : d.Before d') :
    d.daysSince e < d'.daysSince e := by
  rcases h with hyear | ⟨hyear, hmonth | ⟨hmonth, hday⟩⟩
  · exact daysSince_lt_of_year he hyear
  · have hlt := dayOfYear_lt_of_month hyear hmonth
    rw [Date.daysSince, Date.daysSince, ← hyear]
    omega
  · have hpos := d.day_pos
    rw [Date.daysSince, Date.daysSince, Date.dayOfYear, Date.dayOfYear, ← hyear, ← hmonth]
    omega

theorem before_trichotomy (d d' : Date) : d.Before d' ∨ d = d' ∨ d'.Before d := by
  rcases Nat.lt_trichotomy d.year d'.year with h | h | h
  · exact .inl (.inl h)
  · rcases Nat.lt_trichotomy d.month d'.month with h' | h' | h'
    · exact .inl (.inr ⟨h, .inl h'⟩)
    · rcases Nat.lt_trichotomy d.day d'.day with h'' | h'' | h''
      · exact .inl (.inr ⟨h, .inr ⟨h', h''⟩⟩)
      · exact .inr (.inl (Date.ext h h' h''))
      · exact .inr (.inr (.inr ⟨h.symm, .inr ⟨h'.symm, h''⟩⟩))
    · exact .inr (.inr (.inr ⟨h.symm, .inl h'⟩))
  · exact .inr (.inr (.inl h))

theorem daysSince_lt_iff (he : e ≤ d.year) (he' : e ≤ d'.year) :
    d.daysSince e < d'.daysSince e ↔ d.Before d' := by
  refine ⟨fun h => ?_, daysSince_lt_of_before he⟩
  rcases before_trichotomy d d' with hbefore | rfl | hafter
  · exact hbefore
  · exact absurd h (Nat.lt_irrefl _)
  · exact absurd h (Nat.lt_asymm (daysSince_lt_of_before he' hafter))

def Date.first (year month : ℕ) (h : 1 ≤ month) (h' : month ≤ 12) : Date :=
  ⟨year, month, 1, h, h', Nat.le_refl 1, monthDays_pos h h'⟩

/-- No day is left out: there is one after each, in the month, the year or the next year. -/
theorem exists_tomorrow (he : e ≤ d.year) :
    ∃ d' : Date, e ≤ d'.year ∧ d'.daysSince e = d.daysSince e + 1 := by
  by_cases hday : d.day < monthDays d.year d.month
  · refine ⟨⟨d.year, d.month, d.day + 1, d.month_pos, d.month_le, by omega, hday⟩, he, ?_⟩
    have hpos := d.day_pos
    simp only [Date.daysSince, Date.dayOfYear]
    omega
  · have hlast : d.day = monthDays d.year d.month :=
      Nat.le_antisymm d.day_le (Nat.le_of_not_lt hday)
    have hpos := d.day_pos
    by_cases hmonth : d.month < 12
    · refine ⟨.first d.year (d.month + 1) (by omega) hmonth, he, ?_⟩
      have hsum := sum_monthDays_succ d.year d.month_pos
      simp only [Date.daysSince, Date.dayOfYear, Date.first]
      omega
    · have hdecember : d.month = 12 := Nat.le_antisymm d.month_le (Nat.le_of_not_lt hmonth)
      refine ⟨.first (d.year + 1) 1 (by omega) (by omega), by simp only [Date.first]; omega, ?_⟩
      have hsum := sum_monthDays_succ d.year d.month_pos
      have hyear : ∑ y ∈ Finset.Ico e (d.year + 1), yearDays y =
          ∑ y ∈ Finset.Ico e d.year, yearDays y + yearDays d.year := Finset.sum_Ico_succ_top he _
      have hwhole : ∑ m ∈ Finset.Ico 1 (12 + 1), monthDays d.year m = yearDays d.year :=
        sum_monthDays d.year
      rw [hdecember] at hsum hlast
      simp only [Date.daysSince, Date.dayOfYear, Date.first, Finset.Ico_self, Finset.sum_empty,
        hdecember]
      omega

theorem exists_date (e n : ℕ) : ∃ d : Date, e ≤ d.year ∧ d.daysSince e = n := by
  induction n with
  | zero =>
    refine ⟨.first e 1 (by omega) (by omega), Nat.le_refl e, ?_⟩
    simp [Date.daysSince, Date.dayOfYear, Date.first]
  | succ n ih =>
    obtain ⟨d, he, hd⟩ := ih
    obtain ⟨d', he', hd'⟩ := exists_tomorrow he
    exact ⟨d', he', by rw [hd', hd]⟩

end Calendars
