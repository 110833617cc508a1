import HaoShortLink.AccessEvents

/-! Aggregated results, time buckets and what a statistics query asks and gets
(AccessStatistics.cpp). -/
namespace AccessStatistics

open Cpp
open AccessEvents (AccessEventResult)

def isAggregatedAccessResult (result : AccessEventResult) : Bool :=
  result == .success || result == .disabled || result == .expired || result == .error

theorem isAggregated_iff (r : AccessEventResult) :
    isAggregatedAccessResult r = true ↔ r ≠ .notFound := by
  cases r <;> decide

/-- C++ division and remainder truncate towards zero. -/
def utcHourBucketStartEpochSeconds (occurredAtMs : ℤ) : Except Exception ℤ :=
  if occurredAtMs ≤ 0 then
    .error (.invalidArgument (ascii "access event timestamp must be positive"))
  else
    let occurredAtSeconds := occurredAtMs.tdiv 1000
    .ok (occurredAtSeconds - occurredAtSeconds.tmod 3600)

theorem utcHourBucket_spec {t b : ℤ} (h : utcHourBucketStartEpochSeconds t = .ok b) :
    b % 3600 = 0 ∧ b * 1000 ≤ t ∧ t < (b + 3600) * 1000 := by
  unfold utcHourBucketStartEpochSeconds at h
  split at h
  · cases h
  · obtain rfl := Except.ok.inj h
    have hd : t.tdiv 1000 = t / 1000 := Int.tdiv_eq_ediv_of_nonneg (by omega)
    have hm : (t / 1000).tmod 3600 = t / 1000 % 3600 := Int.tmod_eq_emod_of_nonneg (by omega)
    rw [hd, hm]
    omega

inductive AccessStatisticsInterval where
  | hour
  | day
  deriving DecidableEq, Repr

def kAccessStatisticsResultCount : ℕ := 4

instance : NeZero kAccessStatisticsResultCount := ⟨by decide⟩

def accessStatisticsResultIndex : AccessEventResult → Option (Fin kAccessStatisticsResultCount)
  | .success => some 0
  | .disabled => some 1
  | .expired => some 2
  | .error => some 3
  | .notFound => none

/-- Counts of success, disabled, expired and error. -/
abbrev AccessStatisticsResultCounts := Fin kAccessStatisticsResultCount → ℕ

structure AccessStatisticsQuery where
  fromEpochSeconds : ℤ
  toEpochSeconds : ℤ
  interval : AccessStatisticsInterval := .day
  deriving DecidableEq, Repr

structure AccessStatisticsSummary where
  resultCounts : AccessStatisticsResultCounts
  lastAccessAtMs : Option ℤ
  lastAttemptAtMs : Option ℤ

structure AccessStatisticsTrendPoint where
  bucketStartEpochSeconds : ℤ
  resultCounts : AccessStatisticsResultCounts

structure AccessStatisticsSnapshot where
  code : Bytes
  summary : AccessStatisticsSummary
  trend : List AccessStatisticsTrendPoint

def accessStatisticsIntervalToString : AccessStatisticsInterval → Bytes
  | .hour => ascii "hour"
  | .day => ascii "day"

def parseAccessStatisticsInterval (value : Bytes) : Option AccessStatisticsInterval :=
  if value = ascii "hour" then some .hour
  else if value = ascii "day" then some .day
  else none

def accessStatisticsBucketSeconds : AccessStatisticsInterval → ℤ
  | .hour => 3600
  | .day => 3600 * 24

def isValidAccessStatisticsQuery (query : AccessStatisticsQuery) : Bool :=
  if query.fromEpochSeconds < 0 || query.toEpochSeconds ≤ query.fromEpochSeconds then false
  else
    let bucketSeconds := accessStatisticsBucketSeconds query.interval
    if query.fromEpochSeconds.tmod bucketSeconds ≠ 0 ||
        query.toEpochSeconds.tmod bucketSeconds ≠ 0 then
      false
    else
      let maxRange := match query.interval with
        | .hour => 31 * 86400
        | .day => 366 * 86400
      query.toEpochSeconds - query.fromEpochSeconds ≤ maxRange

theorem validQuery_aligned {query : AccessStatisticsQuery}
    (h : isValidAccessStatisticsQuery query = true) :
    0 ≤ query.fromEpochSeconds ∧ query.fromEpochSeconds < query.toEpochSeconds ∧
      query.fromEpochSeconds % accessStatisticsBucketSeconds query.interval = 0 ∧
      query.toEpochSeconds % accessStatisticsBucketSeconds query.interval = 0 := by
  unfold isValidAccessStatisticsQuery at h
  split at h
  · cases h
  · next hrange =>
    simp only [Bool.or_eq_true, decide_eq_true_eq, not_or] at hrange
    have hfrom : 0 ≤ query.fromEpochSeconds := by omega
    have hto : 0 ≤ query.toEpochSeconds := by omega
    dsimp only at h
    split at h
    · cases h
    · next haligned =>
      simp only [ne_eq, Bool.or_eq_true, decide_eq_true_eq, not_or, not_not] at haligned
      rw [Int.tmod_eq_emod_of_nonneg hfrom, Int.tmod_eq_emod_of_nonneg hto] at haligned
      exact ⟨hfrom, by omega, haligned⟩

def accessStatisticsAttemptCount (counts : AccessStatisticsResultCounts) : ℕ :=
  (counts 0 + counts 1 + counts 2 + counts 3) % 2 ^ 64

end AccessStatistics
