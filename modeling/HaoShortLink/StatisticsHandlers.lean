import HaoShortLink.ApiHandlers

/-! GET /api/short-links/:code/statistics (ShortLinkHttpApi.cpp). -/
namespace StatisticsHandlers

open Cpp Actions HttpRequests JsonValues ServerStates ServerStates.Server ShortLinkServices
open AccessStatistics ApiHandlers
open UtcTimestamps (parseUtcTimestamp formatUtcTimestamp)

def parseInterval (value : Bytes) : Except FieldError AccessStatisticsInterval :=
  if value = [] then .ok .day
  else
    match parseAccessStatisticsInterval value with
    | none => .error ⟨"invalid_interval", "interval must be hour or day"⟩
    | some interval => .ok interval

/-- An end of the range that is left out has a default. -/
def parseRangeEnd (value : Bytes) (default : ℤ) (e : FieldError) : Except FieldError ℤ :=
  if value = [] then .ok default
  else
    match parseUtcTimestamp value with
    | none => .error e
    | some seconds => .ok seconds

def maxRange : AccessStatisticsInterval → ℤ
  | .hour => 31 * 86400
  | .day => 366 * 86400

/-- The range for one clock reading. C++ division and remainder truncate towards zero. -/
def parseRange (request : HttpRequest) (interval : AccessStatisticsInterval) (now : ℤ) :
    Except FieldError AccessStatisticsQuery := do
  let bucketSeconds := accessStatisticsBucketSeconds interval
  let defaultTo := (now + bucketSeconds - 1).tdiv bucketSeconds * bucketSeconds
  let rangeStart ← parseRangeEnd (request.getQueryParameters (ascii "from"))
    (defaultTo - 7 * 86400) ⟨"invalid_from", "from must be a UTC timestamp"⟩
  let rangeEnd ← parseRangeEnd (request.getQueryParameters (ascii "to")) defaultTo
    ⟨"invalid_to", "to must be a UTC timestamp"⟩
  if rangeStart.tmod bucketSeconds ≠ 0 ∨ rangeEnd.tmod bucketSeconds ≠ 0 ∨
      rangeEnd ≤ rangeStart then
    .error ⟨"invalid_statistics_range", "from/to must be aligned and increasing"⟩
  else if maxRange interval < rangeEnd - rangeStart then
    .error ⟨"statistics_range_too_large", "Requested statistics range is too large"⟩
  else .ok ⟨rangeStart, rangeEnd, interval⟩

variable {A L : Type} (api : ShortLinkHttpApi A L)

def parseStatisticsQuery (request : HttpRequest) :
    Server A L (Except FieldError AccessStatisticsQuery) :=
  match parseInterval (request.getQueryParameters (ascii "interval")) with
  | .error e => pure (.error e)
  | .ok interval => do
    let now ← nowEpochSeconds
    pure (parseRange request interval now)

def countsJson (counts : AccessStatisticsResultCounts) : Json :=
  .ofMembers [
    member "success" (.integer (counts 0)),
    member "disabled" (.integer (counts 1)),
    member "expired" (.integer (counts 2)),
    member "error" (.integer (counts 3))]

def pointJson (point : AccessStatisticsTrendPoint) : Json :=
  .ofMembers [
    member "bucket_start" (.string (formatUtcTimestamp point.bucketStartEpochSeconds)),
    member "access_count" (.integer (point.resultCounts 0)),
    member "attempt_count" (.integer (accessStatisticsAttemptCount point.resultCounts)),
    member "result_counts" (countsJson point.resultCounts)]

def summaryJson (summary : AccessStatisticsSummary) : Json :=
  .ofMembers [
    member "access_count" (.integer (summary.resultCounts 0)),
    member "attempt_count" (.integer (accessStatisticsAttemptCount summary.resultCounts)),
    member "result_counts" (countsJson summary.resultCounts),
    member "last_access_at" (timestampMsJson summary.lastAccessAtMs),
    member "last_attempt_at" (timestampMsJson summary.lastAttemptAtMs)]

def trendJson (query : AccessStatisticsQuery) (trend : List AccessStatisticsTrendPoint) : Json :=
  .ofMembers [
    member "interval" (.string (accessStatisticsIntervalToString query.interval)),
    member "from" (.string (formatUtcTimestamp query.fromEpochSeconds)),
    member "to" (.string (formatUtcTimestamp query.toEpochSeconds)),
    member "points" (.array (trend.map pointJson))]

def statisticsJson (query : AccessStatisticsQuery) (snapshot : AccessStatisticsSnapshot) : Json :=
  .ofMembers [
    member "code" (.string snapshot.code),
    member "consistency" (text "eventual"),
    member "summary" (summaryJson snapshot.summary),
    member "trend" (trendJson query snapshot.trend)]

/-- The repository of aggregated statistics, asked for one code. -/
def getStatistics (code : Bytes) (query : AccessStatisticsQuery) :
    Server A L (Option AccessStatisticsSnapshot) :=
  Action.query fun s => (s.statistics code query).mapError .std

def handleStatistics (request : HttpRequest) (ownerId : ℕ) : Server A L Unit := do
  let code := request.getPathParameters (ascii "param1")
  match ← getForOwner api code ownerId with
  | none => notFound
  | some _ =>
    match ← parseStatisticsQuery request with
    | .error e => refuse e
    | .ok query =>
      match ← getStatistics code query with
      | none => notFound
      | some snapshot => setJson api 200 "OK" (statisticsJson query snapshot)

theorem parseStatisticsQuery_harmless (request : HttpRequest) :
    Harmless (parseStatisticsQuery request : Server A L _) := by
  unfold parseStatisticsQuery
  split
  · exact .pure _
  · exact .bind .nowEpochSeconds fun _ => .pure _

theorem handleStatistics_harmless (request : HttpRequest) (ownerId : ℕ) :
    Harmless (handleStatistics api request ownerId) := by
  refine .bind (.queryLinks _) ?_
  intro record
  split
  · exact notFound_harmless
  · refine .bind (parseStatisticsQuery_harmless request) ?_
    intro query
    split
    · exact refuse_harmless _
    · refine .bind .query ?_
      intro snapshot
      split
      · exact notFound_harmless
      · exact setJson_harmless api _ _ _

end StatisticsHandlers
