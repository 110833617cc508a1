import HaoShortLink.UtcCalendar

/-! The texts of UTC timestamps, and the seconds they stand for. -/
namespace TimestampTexts

open Cpp UtcTimestamps Calendars Positionals UtcCalendar

def digitText (k n : ℕ) : Bytes := (numeral 10 k n).map fun d => (48 + d).toUInt8

@[simp] theorem length_digitText (k n : ℕ) : (digitText k n).length = k := by
  rw [digitText, List.length_map, length_numeral]

theorem digitText_isDigit {k n : ℕ} : ∀ c ∈ digitText k n, isDigit c = true := by
  have hdigit : ∀ d < 10, isDigit (48 + d).toUInt8 = true := by decide
  intro c hc
  obtain ⟨d, hd, rfl⟩ := List.mem_map.mp hc
  exact hdigit d (numeral_lt (by decide) d hd)

theorem decimalsValue_eq (b : Bytes) :
    Decimals.value b = value 10 (b.map fun c => c.toNat - 48) := by
  rw [Decimals.value, value, List.foldl_map]

theorem value_digitText {k n : ℕ} (h : n < 10 ^ k) : Decimals.value (digitText k n) = n := by
  have hdigits : (numeral 10 k n).map (fun d => (48 + d).toUInt8.toNat - 48) = numeral 10 k n := by
    refine (List.map_congr_left fun d hd => ?_).trans (List.map_id _)
    rw [Decimals.toNat_digit (numeral_lt (by decide) d hd), id, Nat.add_sub_cancel_left]
  rw [decimalsValue_eq, digitText, List.map_map]
  exact (congrArg (value 10) hdigits).trans (value_numeral h)

theorem isDigit_range {c : UInt8} (h : isDigit c = true) : 48 ≤ c.toNat ∧ c.toNat ≤ 57 := by
  simpa only [isDigit, Bool.and_eq_true, decide_eq_true_eq, UInt8.le_iff_toNat_le,
    UInt8.reduceToNat] using h

theorem digits_lt {b : Bytes} (h : ∀ c ∈ b, isDigit c = true) :
    ∀ d ∈ b.map fun c => c.toNat - 48, d < 10 := by
  intro d hd
  obtain ⟨c, hc, rfl⟩ := List.mem_map.mp hd
  have := isDigit_range (h c hc)
  omega

theorem decimalsValue_lt {b : Bytes} (h : ∀ c ∈ b, isDigit c = true) :
    Decimals.value b < 10 ^ b.length := by
  have hlt := value_lt (by decide) (digits_lt h)
  rwa [List.length_map, ← decimalsValue_eq] at hlt

theorem digitText_value {b : Bytes} (h : ∀ c ∈ b, isDigit c = true) :
    digitText b.length (Decimals.value b) = b := by
  have hnumeral := numeral_value (digits_lt h)
  rw [List.length_map] at hnumeral
  rw [digitText, decimalsValue_eq, hnumeral, List.map_map]
  refine (List.map_congr_left fun c hc => ?_).trans (List.map_id b)
  rw [Function.comp_apply, Nat.add_sub_cancel' (isDigit_range (h c hc)).1, id]
  exact UInt8.ofNat_toNat

theorem parseDigits_eq_some {s : Bytes} {start count : ℕ} {n : ℤ}
    (h : ((s.drop start).take count).length = count) : parseDigits s start count = some n ↔
      ∃ k : ℕ, k < 10 ^ count ∧ (k : ℤ) = n ∧ (s.drop start).take count = digitText count k := by
  simp only [parseDigits]
  constructor
  · intro hparse
    split at hparse
    · next hall =>
      have hdigits := List.all_eq_true.mp hall
      rw [Decimals.foldl_int _ hdigits, Option.some.injEq] at hparse
      have hvalue := decimalsValue_lt hdigits
      have htext := digitText_value hdigits
      rw [h] at hvalue htext
      exact ⟨_, hvalue, hparse, htext.symm⟩
    · cases hparse
  · rintro ⟨k, hk, rfl, htext⟩
    rw [htext, if_pos (List.all_eq_true.mpr digitText_isDigit),
      Decimals.foldl_int _ digitText_isDigit, value_digitText hk]

/-- A second of a year from 1970 to 9999. -/
@[ext]
structure Timestamp where
  date : Date
  hour : ℕ
  minute : ℕ
  second : ℕ
  year_ge : 1970 ≤ date.year
  year_le : date.year ≤ 9999
  hour_le : hour ≤ 23
  minute_le : minute ≤ 59
  second_le : second ≤ 59

namespace Timestamp

/-- YYYY-MM-DDTHH:MM:SSZ -/
def text (τ : Timestamp) : Bytes :=
  digitText 4 τ.date.year ++ 45 :: (digitText 2 τ.date.month ++ 45 :: (digitText 2 τ.date.day ++
    84 :: (digitText 2 τ.hour ++ 58 :: (digitText 2 τ.minute ++ 58 ::
      (digitText 2 τ.second ++ [90])))))

def secondOfDay (τ : Timestamp) : ℕ := τ.hour * 3600 + τ.minute * 60 + τ.second

/-- The seconds since 1970-01-01T00:00:00Z. -/
def seconds (τ : Timestamp) : ℕ := τ.date.daysSince 1970 * 86400 + τ.secondOfDay

variable (τ : Timestamp)

theorem secondOfDay_lt : τ.secondOfDay < 86400 := by
  have hhour := τ.hour_le
  have hminute := τ.minute_le
  have hsecond := τ.second_le
  rw [secondOfDay]
  omega

end Timestamp

theorem cut_fields {s : Bytes} (h : s.length = 20) (h4 : s[4]? = some 45)
    (h7 : s[7]? = some 45) (h10 : s[10]? = some 84) (h13 : s[13]? = some 58)
    (h16 : s[16]? = some 58) (h19 : s[19]? = some 90) :
    s = (s.drop 0).take 4 ++ 45 :: ((s.drop 5).take 2 ++ 45 :: ((s.drop 8).take 2 ++
      84 :: ((s.drop 11).take 2 ++ 58 :: ((s.drop 14).take 2 ++ 58 ::
        ((s.drop 17).take 2 ++ [90]))))) := by
  have hcut : ∀ (i n : ℕ) (c : UInt8), s[i + n]? = some c →
      s.drop i = (s.drop i).take n ++ c :: s.drop (i + n + 1) := by
    intro i n c hc
    have hrest : (s.drop i).drop n = c :: s.drop (i + n + 1) := by
      rw [List.drop_drop]
      obtain ⟨hlt, hget⟩ := List.getElem?_eq_some_iff.mp hc
      rw [List.drop_eq_getElem_cons hlt, hget]
    rw [← hrest, List.take_append_drop]
  have hend : s.drop 20 = [] := List.drop_eq_nil_of_le (Nat.le_of_eq h)
  conv_lhs => rw [← List.drop_zero (l := s), hcut 0 4 45 h4, hcut 5 2 45 h7, hcut 8 2 84 h10,
    hcut 11 2 58 h13, hcut 14 2 58 h16, hcut 17 2 90 h19, hend]

theorem parseUtcTimestamp_text (τ : Timestamp) :
    parseUtcTimestamp τ.text = some (τ.seconds : ℤ) := by
  have hmonth := τ.date.month_le
  have hmonthDays := daysInMonth_eq τ.date.year τ.date.month_pos hmonth
  have hday : τ.date.day ≤ 31 := τ.date.day_le.trans (monthDays_le τ.date.year τ.date.month)
  have hhour := τ.hour_le
  have hminute := τ.minute_le
  have hsecond := τ.second_le
  have hread : ∀ start count n, n < 10 ^ count →
      (τ.text.drop start).take count = digitText count n →
      parseDigits τ.text start count = some (n : ℤ) := by
    intro start count n hn htext
    exact (parseDigits_eq_some (by rw [htext, length_digitText])).mpr ⟨n, hn, rfl, htext⟩
  have hyear := τ.year_le
  have hguard : τ.text.length = 20 ∧ τ.text[4]? = some 45 ∧ τ.text[7]? = some 45 ∧
      τ.text[10]? = some 84 ∧ τ.text[13]? = some 58 ∧ τ.text[16]? = some 58 ∧
      τ.text[19]? = some 90 := ⟨rfl, rfl, rfl, rfl, rfl, rfl, rfl⟩
  have hvalid : 1970 ≤ (τ.date.year : ℤ) ∧ 1 ≤ (τ.date.month : ℤ) ∧ (τ.date.month : ℤ) ≤ 12 ∧
      1 ≤ (τ.date.day : ℤ) ∧ (τ.date.day : ℤ) ≤ daysInMonth τ.date.year τ.date.month ∧
      (τ.hour : ℤ) ≤ 23 ∧ (τ.minute : ℤ) ≤ 59 ∧ (τ.second : ℤ) ≤ 59 := by
    have hyear' := τ.year_ge
    have hmonth' := τ.date.month_pos
    have hday' := τ.date.day_pos
    have hdayle := τ.date.day_le
    rw [hmonthDays]
    omega
  rw [parseUtcTimestamp, hread 0 4 τ.date.year (by omega) rfl,
    hread 5 2 τ.date.month (by omega) rfl, hread 8 2 τ.date.day (by omega) rfl,
    hread 11 2 τ.hour (by omega) rfl, hread 14 2 τ.minute (by omega) rfl,
    hread 17 2 τ.second (by omega) rfl]
  simp only [guard, hguard, hvalid, and_self, if_true, Option.bind_eq_bind, Option.bind_some,
    Option.pure_def, Option.some.injEq, daysFromCivil_eq τ.year_ge, Timestamp.seconds,
    Timestamp.secondOfDay]
  omega

/-- The parser accepts the texts of timestamps and returns their seconds. -/
theorem parseUtcTimestamp_eq_some {s : Bytes} {t : ℤ} :
    parseUtcTimestamp s = some t ↔ ∃ τ : Timestamp, τ.text = s ∧ (τ.seconds : ℤ) = t := by
  constructor
  · intro h
    have hparse := h
    simp only [parseUtcTimestamp, Option.bind_eq_bind, Option.bind_eq_some_iff,
      Option.guard_eq_some', Option.pure_def, Option.some.injEq] at h
    obtain ⟨_, ⟨hlength, h4, h7, h10, h13, h16, h19⟩, year, hyear, month, hmonth, day, hday, hour,
      hhour, minute, hminute, second, hsecond, _, hvalid, -⟩ := h
    have hslice : ∀ start count, start + count ≤ 20 →
        ((s.drop start).take count).length = count := by
      intro start count hle
      rw [List.length_take, List.length_drop, hlength]
      omega
    obtain ⟨y, hy, rfl, hyearText⟩ := (parseDigits_eq_some (hslice 0 4 (by omega))).mp hyear
    obtain ⟨mo, hmo, rfl, hmonthText⟩ := (parseDigits_eq_some (hslice 5 2 (by omega))).mp hmonth
    obtain ⟨d, hd, rfl, hdayText⟩ := (parseDigits_eq_some (hslice 8 2 (by omega))).mp hday
    obtain ⟨ho, hho, rfl, hhourText⟩ := (parseDigits_eq_some (hslice 11 2 (by omega))).mp hhour
    obtain ⟨mi, hmi, rfl, hminuteText⟩ := (parseDigits_eq_some (hslice 14 2 (by omega))).mp hminute
    obtain ⟨se, hse, rfl, hsecondText⟩ := (parseDigits_eq_some (hslice 17 2 (by omega))).mp hsecond
    obtain ⟨hyearGe, hmonthGe, hmonthLe, hdayGe, hdayLe, hhourLe, hminuteLe, hsecondLe⟩ := hvalid
    rw [daysInMonth_eq y (by omega) (by omega)] at hdayLe
    have hyearNat : 1970 ≤ y ∧ y ≤ 9999 := by omega
    obtain ⟨τ, rfl⟩ : ∃ τ : Timestamp, τ.text = s := by
      refine ⟨⟨⟨y, mo, d, by omega, by omega, by omega, by omega⟩, ho, mi, se, hyearNat.1,
        hyearNat.2, by omega, by omega, by omega⟩, ?_⟩
      rw [cut_fields hlength h4 h7 h10 h13 h16 h19, hyearText, hmonthText, hdayText, hhourText,
        hminuteText, hsecondText]
      rfl
    rw [parseUtcTimestamp_text] at hparse
    exact ⟨τ, rfl, Option.some.inj hparse⟩
  · rintro ⟨τ, rfl, rfl⟩
    exact parseUtcTimestamp_text τ

theorem digitText_succ (k n : ℕ) :
    digitText (k + 1) n = digitText k (n / 10) ++ [(48 + n % 10).toUInt8] := by
  rw [digitText, numeral, List.map_append]
  rfl

theorem toDecimal_eq {k n : ℕ} (hlow : 10 ^ k ≤ n) (hhigh : n < 10 ^ (k + 1)) :
    toDecimal n = digitText (k + 1) n := by
  induction k generalizing n with
  | zero =>
    have hdigit : n < 10 := by simpa using hhigh
    rw [Decimals.toDecimal_of_lt hdigit, digitText_succ, Nat.mod_eq_of_lt hdigit]
    rfl
  | succ k ih =>
    have hten : 10 ^ k * 10 ≤ n := by rwa [← pow_succ]
    have hpos : 0 < 10 ^ k := Nat.pow_pos (by decide)
    have hrest := ih (n := n / 10) ((Nat.le_div_iff_mul_le (by decide)).mpr hten)
      (Nat.div_lt_of_lt_mul (by rwa [← pow_succ']))
    rw [Decimals.toDecimal_of_le (by omega), hrest, ← digitText_succ]

theorem twoDigits_eq {n : ℕ} (h : n < 100) : twoDigits n = digitText 2 n := by
  have htens : ((n : ℤ) / 10).toNat = n / 10 := by omega
  have hones : ((n : ℤ) % 10).toNat = n % 10 := by omega
  rw [twoDigits, htens, hones, Decimals.toDecimal_of_lt (show n / 10 < 10 by omega),
    Decimals.toDecimal_of_lt (show n % 10 < 10 by omega), digitText_succ, digitText_succ,
    Nat.mod_eq_of_lt (show n / 10 < 10 by omega)]
  rfl

theorem gmtime_seconds (τ : Timestamp) : gmtime τ.seconds =
    ⟨τ.date.year, τ.date.month, τ.date.day, τ.hour, τ.minute, τ.second⟩ := by
  have hyear := τ.year_le
  have hhour := τ.hour_le
  have hminute := τ.minute_le
  have hsecond := τ.second_le
  have hseconds : (τ.seconds : ℤ) =
      daysFromCivil τ.date.year τ.date.month τ.date.day * 86400 + (τ.secondOfDay : ℤ) := by
    rw [daysFromCivil_eq τ.year_ge, Timestamp.seconds]
    omega
  have htime : ((τ.secondOfDay : ℤ) / 3600 = τ.hour ∧ (τ.secondOfDay : ℤ) / 60 % 60 = τ.minute) ∧
      (τ.secondOfDay : ℤ) % 60 = τ.second := by
    rw [Timestamp.secondOfDay]
    omega
  have hrange := τ.secondOfDay_lt
  rw [hseconds, gmtime_daysFromCivil (by omega) (by omega) (by omega), htime.1.1, htime.1.2,
    htime.2]

theorem formatUtcTimestamp_seconds (τ : Timestamp) : formatUtcTimestamp τ.seconds = τ.text := by
  have hmonth := τ.date.month_le
  have hday := τ.date.day_le.trans (monthDays_le τ.date.year τ.date.month)
  have hhour := τ.hour_le
  have hminute := τ.minute_le
  have hsecond := τ.second_le
  have hyear := τ.year_le
  have hyear' := τ.year_ge
  rw [formatUtcTimestamp, gmtime_seconds]
  simp only [Decimals.signedToDecimal_natCast]
  rw [toDecimal_eq (show 10 ^ 3 ≤ τ.date.year by omega) (by omega), twoDigits_eq (by omega),
    twoDigits_eq (by omega), twoDigits_eq (by omega), twoDigits_eq (by omega),
    twoDigits_eq (by omega)]
  simp only [Timestamp.text, List.append_assoc]
  rfl

def lastDay : Date := ⟨9999, 12, 31, by decide, by decide, by decide, by decide⟩

theorem lastDay_daysSince : lastDay.daysSince 1970 = 2932896 := by
  have hdays := daysFromCivil_eq (d := lastDay) (by decide)
  have hvalue : daysFromCivil (lastDay.year : ℤ) lastDay.month lastDay.day = 2932896 := by decide
  omega

theorem seconds_le (τ : Timestamp) : τ.seconds ≤ 253402300799 := by
  have htime := τ.secondOfDay_lt
  have hdate : τ.date.daysSince 1970 ≤ 2932896 := by
    rcases before_trichotomy τ.date lastDay with hbefore | heq | hafter
    · have hlt := daysSince_lt_of_before τ.year_ge hbefore
      rw [lastDay_daysSince] at hlt
      omega
    · rw [heq, lastDay_daysSince]
    · have hyear := τ.year_le
      have hmonth := τ.date.month_le
      have hday := τ.date.day_le.trans (monthDays_le τ.date.year τ.date.month)
      simp only [Date.Before, lastDay] at hafter
      omega
  rw [Timestamp.seconds]
  omega

theorem exists_timestamp {n : ℕ} (h : n ≤ 253402300799) : ∃ τ : Timestamp, τ.seconds = n := by
  obtain ⟨d, hyear, hdays⟩ := exists_date 1970 (n / 86400)
  have hlast : d.year ≤ 9999 := by
    by_contra hlate
    have hafter : lastDay.year < d.year := Nat.lt_of_not_le hlate
    have hlt := daysSince_lt_of_year (show 1970 ≤ lastDay.year by decide) hafter
    rw [lastDay_daysSince] at hlt
    omega
  refine ⟨⟨d, n % 86400 / 3600, n % 3600 / 60, n % 60, hyear, hlast, by omega, by omega,
    by omega⟩, ?_⟩
  simp only [Timestamp.seconds, Timestamp.secondOfDay, hdays]
  omega

theorem digit_lt_iff : ∀ c < 10, ∀ d < 10, ((48 + c).toUInt8 < (48 + d).toUInt8 ↔ c < d) := by
  decide

theorem digit_injective : ∀ c < 10, ∀ d < 10, (48 + c).toUInt8 = (48 + d).toUInt8 → c = d := by
  decide

theorem digitText_lt_iff {k m n : ℕ} (hm : m < 10 ^ k) (hn : n < 10 ^ k) :
    digitText k m < digitText k n ↔ m < n := by
  have hdigits : ∀ i, ∀ d ∈ numeral 10 k i, d < 10 := fun i => numeral_lt (by decide)
  rw [digitText, digitText, map_lt_map_iff digit_lt_iff digit_injective (hdigits m) (hdigits n),
    lt_iff_value_lt (by decide) (hdigits m) (hdigits n) (by simp), value_numeral hm,
    value_numeral hn]

theorem digitText_inj {k m n : ℕ} (hm : m < 10 ^ k) (hn : n < 10 ^ k) :
    digitText k m = digitText k n ↔ m = n := by
  refine ⟨fun h => ?_, congrArg _⟩
  rw [← value_digitText hm, h, value_digitText hn]

/-- One field decides, or the fields after it. -/
theorem field_lt_iff {k m n : ℕ} (hm : m < 10 ^ k) (hn : n < 10 ^ k) (c : UInt8) (s t : Bytes) :
    digitText k m ++ c :: s < digitText k n ++ c :: t ↔ m < n ∨ m = n ∧ s < t := by
  rw [append_lt_append_iff (by simp), digitText_lt_iff hm hn, digitText_inj hm hn,
    List.cons_lt_cons_self]

theorem seconds_lt_iff (τ τ' : Timestamp) : τ.seconds < τ'.seconds ↔
    τ.date.Before τ'.date ∨ τ.date = τ'.date ∧ τ.secondOfDay < τ'.secondOfDay := by
  have htime := τ.secondOfDay_lt
  have htime' := τ'.secondOfDay_lt
  have hdays := daysSince_lt_iff τ.year_ge τ'.year_ge
  simp only [Timestamp.seconds]
  rcases before_trichotomy τ.date τ'.date with hbefore | heq | hafter
  · have hlt := hdays.mpr hbefore
    exact ⟨fun _ => .inl hbefore, fun _ => by omega⟩
  · have hnot : ¬ τ.date.Before τ'.date := by
      rw [← hdays, heq]
      exact Nat.lt_irrefl _
    rw [← heq]
    rw [← heq] at hnot
    simp [hnot]
  · have hlt := daysSince_lt_of_before τ'.year_ge hafter
    have hnot : ¬ τ.date.Before τ'.date := by
      rw [← hdays]
      omega
    have hne : τ.date ≠ τ'.date := fun heq => Nat.lt_irrefl _ (heq ▸ hlt)
    simp only [hnot, hne, false_and, or_false, iff_false]
    omega

theorem text_lt_iff (τ τ' : Timestamp) : τ.text < τ'.text ↔ τ.seconds < τ'.seconds := by
  have bounds : ∀ τ : Timestamp, τ.date.year < 10 ^ 4 ∧ τ.date.month < 10 ^ 2 ∧
      τ.date.day < 10 ^ 2 ∧ τ.hour < 10 ^ 2 ∧ τ.minute < 10 ^ 2 ∧ τ.second < 10 ^ 2 := by
    intro τ
    have hyear := τ.year_le
    have hmonth := τ.date.month_le
    have hday := τ.date.day_le.trans (monthDays_le τ.date.year τ.date.month)
    have hhour := τ.hour_le
    have hminute := τ.minute_le
    have hsecond := τ.second_le
    omega
  obtain ⟨hyear, hmonth, hday, hhour, hminute, hsecond⟩ := bounds τ
  obtain ⟨hyear', hmonth', hday', hhour', hminute', hsecond'⟩ := bounds τ'
  have hlow := τ.minute_le
  have hlow' := τ'.minute_le
  have hsec := τ.second_le
  have hsec' := τ'.second_le
  rw [seconds_lt_iff, Timestamp.text, Timestamp.text, field_lt_iff hyear hyear',
    field_lt_iff hmonth hmonth', field_lt_iff hday hday', field_lt_iff hhour hhour',
    field_lt_iff hminute hminute', field_lt_iff hsecond hsecond', Date.Before, Date.ext_iff,
    Timestamp.secondOfDay, Timestamp.secondOfDay]
  have hend : ¬ ([] : Bytes) < [] := List.not_lt_nil []
  simp only [hend, and_false, or_false]
  omega

/-- Parsing and printing are inverse to each other, between the texts of dates and times and the
seconds from 1970 to 9999, and both keep the order. -/
theorem utcTimestamps_bijective :
    (∀ s t, parseUtcTimestamp s = some t ↔ ∃ τ : Timestamp, τ.text = s ∧ (τ.seconds : ℤ) = t) ∧
    (∀ s t, parseUtcTimestamp s = some t →
      0 ≤ t ∧ t ≤ 253402300799 ∧ formatUtcTimestamp t = s) ∧
    (∀ t, 0 ≤ t → t ≤ 253402300799 → parseUtcTimestamp (formatUtcTimestamp t) = some t) ∧
    ∀ s s' t t', parseUtcTimestamp s = some t → parseUtcTimestamp s' = some t' →
      (s < s' ↔ t < t') := by
  refine ⟨fun s t => parseUtcTimestamp_eq_some, ?_, ?_, ?_⟩
  · intro s t h
    obtain ⟨τ, rfl, rfl⟩ := parseUtcTimestamp_eq_some.mp h
    have hle := seconds_le τ
    exact ⟨by omega, by omega, formatUtcTimestamp_seconds τ⟩
  · intro t hlow hhigh
    obtain ⟨τ, hτ⟩ := exists_timestamp (n := t.toNat) (by omega)
    have ht : (τ.seconds : ℤ) = t := by omega
    rw [← ht, formatUtcTimestamp_seconds, parseUtcTimestamp_text]
  · intro s s' t t' h h'
    obtain ⟨τ, rfl, rfl⟩ := parseUtcTimestamp_eq_some.mp h
    obtain ⟨τ', rfl, rfl⟩ := parseUtcTimestamp_eq_some.mp h'
    rw [text_lt_iff, Nat.cast_lt]

end TimestampTexts
