import HaoShortLink.Histories
import HaoShortLink.OrderedMaps
import HaoShortLink.StatisticsSchema
import Mathlib.Algebra.BigOperators.Group.List.Basic

/-! MySqlAccessStatisticsRepository::get over the tables of migration 004. -/
namespace AccessStatisticsReader

open Cpp StatisticsSchema AccessStatistics OrderedMaps
open AccessEvents (AccessEvent AccessEventResult accessEventResultToString parseAccessEventResult)

def resultIndex (value : Bytes) : Except Exception (Fin kAccessStatisticsResultCount) :=
  match parseAccessEventResult value with
  | none => .error (.runtimeError (ascii "unknown access statistics result"))
  | some result =>
    match accessStatisticsResultIndex result with
    | none => .error (.runtimeError (ascii "non-aggregated access statistics result"))
    | some index => .ok index

/-- A result column holds nothing but what its CHECK allows. -/
def statisticsResults : List Bytes :=
  [ascii "disabled", ascii "error", ascii "expired", ascii "success"]

/-- SELECT result, access_count, last_occurred_at_ms FROM short_link_access_totals
WHERE short_link_id = ? -/
def selectTotals (d : Db) (shortLinkId : ℕ) : List (Bytes × TotalsRow) :=
  statisticsResults.filterMap fun result => (d.totals (shortLinkId, result)).map (result, ·)

def bucketExpression (interval : AccessStatisticsInterval) (bucketStart : ℤ) : ℤ :=
  match interval with
  | .hour => bucketStart
  | .day => bucketStart - bucketStart % 86400

def bucketStarts (fromEpochSeconds toEpochSeconds : ℤ) : List ℤ :=
  let first := -(-fromEpochSeconds / 3600)
  let count := (-(-toEpochSeconds / 3600) - first).toNat
  (List.range count).map fun i : ℕ => 3600 * (first + i)

structure TrendRow where
  bucketStart : ℤ
  result : Bytes
  resultCount : ℕ
  deriving DecidableEq, Repr

def group (d : Db) (shortLinkId : ℕ) (query : AccessStatisticsQuery) (bucketStart : ℤ)
    (result : Bytes) : List ℕ :=
  ((bucketStarts query.fromEpochSeconds query.toEpochSeconds).filter
    (bucketExpression query.interval · = bucketStart)).filterMap fun b =>
      d.hourly (shortLinkId, b, result)

/-- A group without rows does not exist. -/
def groupRow (d : Db) (shortLinkId : ℕ) (query : AccessStatisticsQuery) (bucketStart : ℤ)
    (result : Bytes) : Option TrendRow :=
  match group d shortLinkId query bucketStart result with
  | [] => none
  | counts => some ⟨bucketStart, result, counts.sum⟩

/-- SELECT bucketExpression AS bucket_start, result, SUM(access_count) AS result_count
FROM short_link_access_hourly WHERE short_link_id = ? AND bucket_start_epoch >= ?
AND bucket_start_epoch < ? GROUP BY bucket_start, result ORDER BY bucket_start ASC -/
def selectTrend (d : Db) (shortLinkId : ℕ) (query : AccessStatisticsQuery) : List TrendRow :=
  ((bucketStarts query.fromEpochSeconds query.toEpochSeconds).map
    (bucketExpression query.interval)).dedup.flatMap fun bucketStart =>
      statisticsResults.filterMap (groupRow d shortLinkId query bucketStart)

/-- The orders in which rows arrive, about which nothing is promised. -/
structure Scan where
  totals : List (Bytes × TotalsRow) → List (Bytes × TotalsRow)
  trend : List TrendRow → List TrendRow
  totals_perm : ∀ rows, (totals rows).Perm rows
  trend_perm : ∀ rows, (trend rows).Perm rows

def Scan.inOrder : Scan := ⟨id, id, fun _ => .refl _, fun _ => .refl _⟩

def readTotal (summary : AccessStatisticsSummary) (row : Bytes × TotalsRow) :
    Except Exception AccessStatisticsSummary := do
  let index ← resultIndex row.1
  let lastOccurredAtMs := row.2.lastOccurredAtMs
  pure {
    resultCounts := Function.update summary.resultCounts index row.2.accessCount
    lastAccessAtMs := if index = 0 then some lastOccurredAtMs else summary.lastAccessAtMs
    lastAttemptAtMs :=
      if summary.lastAttemptAtMs.all (· < lastOccurredAtMs) then some lastOccurredAtMs
      else summary.lastAttemptAtMs }

abbrev Trend := OrderedMap ℤ AccessStatisticsResultCounts

def readTrend (trend : Trend) (row : TrendRow) : Except Exception Trend := do
  let index ← resultIndex row.result
  let counts := (trend.find? row.bucketStart).getD fun _ => 0
  pure (trend.insert row.bucketStart (Function.update counts index row.resultCount))

def get (scan : Scan) (d : Db) (code : Bytes) (query : AccessStatisticsQuery) :
    Except Exception (Option AccessStatisticsSnapshot) :=
  if !isValidAccessStatisticsQuery query then
    .error (.invalidArgument (ascii "invalid access statistics query"))
  else
    match d.shortLinks.selectIdByCode code with
    | none => .ok none
    | some shortLinkId => do
      let summary ← (scan.totals (selectTotals d shortLinkId)).foldlM readTotal
        ⟨fun _ => 0, none, none⟩
      let trend ← (scan.trend (selectTrend d shortLinkId query)).foldlM readTrend .empty
      pure (some ⟨code, summary, trend.entries.map fun item => ⟨item.1, item.2⟩⟩)

theorem resultIndex_toString {r : AccessEventResult} {index : Fin kAccessStatisticsResultCount}
    (h : accessStatisticsResultIndex r = some index) :
    resultIndex (accessEventResultToString r) = .ok index := by
  have hparse : parseAccessEventResult (accessEventResultToString r) = some r := by
    cases r <;> decide
  simp only [resultIndex, hparse, h]

theorem accessStatisticsResultIndex_injective {r r' : AccessEventResult}
    {index : Fin kAccessStatisticsResultCount} (h : accessStatisticsResultIndex r = some index)
    (h' : accessStatisticsResultIndex r' = some index) : r = r' := by
  rw [← h'] at h
  cases r <;> cases r' <;> first | rfl | exact absurd h (by decide)

theorem accessStatisticsResultIndex_surjective (i : Fin kAccessStatisticsResultCount) :
    ∃ r, accessStatisticsResultIndex r = some i := by
  have hi : i = 0 ∨ i = 1 ∨ i = 2 ∨ i = 3 := by
    revert i
    decide
  rcases hi with rfl | rfl | rfl | rfl
  · exact ⟨.success, rfl⟩
  · exact ⟨.disabled, rfl⟩
  · exact ⟨.expired, rfl⟩
  · exact ⟨.error, rfl⟩

theorem statisticsResults_spec {result : Bytes} :
    result ∈ statisticsResults ↔ ∃ r, r ≠ AccessEventResult.notFound ∧
      accessEventResultToString r = result := by
  constructor
  · intro h
    simp only [statisticsResults, List.mem_cons, List.not_mem_nil, or_false] at h
    rcases h with rfl | rfl | rfl | rfl
    · exact ⟨.disabled, by decide⟩
    · exact ⟨.error, by decide⟩
    · exact ⟨.expired, by decide⟩
    · exact ⟨.success, by decide⟩
  · rintro ⟨r, hr, rfl⟩
    cases r <;> first | exact absurd rfl hr | decide

theorem statisticsResults_nodup : statisticsResults.Nodup := by decide

def hourOf (occurredAtMs : ℤ) : ℤ := 3600 * (occurredAtMs / 3600000)

theorem inBucket_iff {e : AccessEvent} (h : 0 < e.occurredAtMs) {b : ℤ} :
    inBucket b e = true ↔ hourOf e.occurredAtMs = b := by
  obtain ⟨hour, hhour⟩ : ∃ hour, utcHourBucketStartEpochSeconds e.occurredAtMs = .ok hour := by
    unfold utcHourBucketStartEpochSeconds
    rw [if_neg (by omega)]
    exact ⟨_, rfl⟩
  have hspec := utcHourBucket_spec hhour
  have heq : hourOf e.occurredAtMs = hour := by
    unfold hourOf
    omega
  simp only [inBucket, hhour, heq, beq_iff_eq]

theorem mem_bucketStarts {b fromEpochSeconds toEpochSeconds : ℤ} :
    b ∈ bucketStarts fromEpochSeconds toEpochSeconds ↔
      fromEpochSeconds ≤ b ∧ b < toEpochSeconds ∧ b % 3600 = 0 := by
  simp only [bucketStarts, List.mem_map, List.mem_range]
  constructor
  · rintro ⟨i, hi, rfl⟩
    omega
  · rintro ⟨hfrom, hto, hb⟩
    refine ⟨(b / 3600 + -fromEpochSeconds / 3600).toNat, ?_, ?_⟩ <;> omega

theorem bucketStarts_nodup (fromEpochSeconds toEpochSeconds : ℤ) :
    (bucketStarts fromEpochSeconds toEpochSeconds).Nodup := by
  unfold bucketStarts
  apply List.Nodup.map _ List.nodup_range
  intro i j h
  simpa using h

theorem bucketExpression_hourOf (interval : AccessStatisticsInterval) (t b : ℤ)
    (hb : b % accessStatisticsBucketSeconds interval = 0) :
    bucketExpression interval (hourOf t) = b ↔
      b * 1000 ≤ t ∧ t < (b + accessStatisticsBucketSeconds interval) * 1000 := by
  cases interval <;>
    simp only [bucketExpression, hourOf, accessStatisticsBucketSeconds] at hb ⊢ <;> omega

theorem bucketExpression_aligned (interval : AccessStatisticsInterval) {b : ℤ}
    (hb : b % 3600 = 0) :
    bucketExpression interval b % accessStatisticsBucketSeconds interval = 0 := by
  cases interval <;> simp only [bucketExpression, accessStatisticsBucketSeconds] <;> omega

theorem bucketExpression_range {query : AccessStatisticsQuery}
    (hq : isValidAccessStatisticsQuery query = true) {b : ℤ} (hb : b % 3600 = 0) :
    (query.fromEpochSeconds ≤ bucketExpression query.interval b ∧
        bucketExpression query.interval b < query.toEpochSeconds) ↔
      query.fromEpochSeconds ≤ b ∧ b < query.toEpochSeconds := by
  obtain ⟨-, -, hfrom, hto⟩ := validQuery_aligned hq
  generalize query.interval = interval at hfrom hto ⊢
  cases interval <;> simp only [bucketExpression, accessStatisticsBucketSeconds] at hfrom hto ⊢
  omega

end AccessStatisticsReader
