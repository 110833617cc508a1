import HaoShortLink.AccessStatisticsReader
import HaoShortLink.StatisticsHandlers
import HaoShortLink.TimestampTexts

/-! Which statistics queries the HTTP side lets through, and the default range. -/
namespace StatisticsQueries

open Cpp Actions HttpRequests ServerStates ServerStates.Server AccessStatistics StatisticsHandlers
open ApiHandlers (FieldError)
open UtcTimestamps (parseUtcTimestamp)

variable {A L : Type} {request : HttpRequest} {interval : AccessStatisticsInterval}
  {query : AccessStatisticsQuery} {now t : ℤ}

/-- Aligned, increasing and not too long. -/
structure InRange (query : AccessStatisticsQuery) : Prop where
  from_aligned :
    query.fromEpochSeconds.tmod (accessStatisticsBucketSeconds query.interval) = 0
  to_aligned : query.toEpochSeconds.tmod (accessStatisticsBucketSeconds query.interval) = 0
  increasing : query.fromEpochSeconds < query.toEpochSeconds
  short : query.toEpochSeconds - query.fromEpochSeconds ≤ maxRange query.interval

theorem isValid_iff (query : AccessStatisticsQuery) : isValidAccessStatisticsQuery query = true ↔
    0 ≤ query.fromEpochSeconds ∧ InRange query := by
  obtain ⟨start, stop, interval⟩ := query
  have hrange : InRange ⟨start, stop, interval⟩ ↔
      start.tmod (accessStatisticsBucketSeconds interval) = 0 ∧
      stop.tmod (accessStatisticsBucketSeconds interval) = 0 ∧ start < stop ∧
      stop - start ≤ maxRange interval :=
    ⟨fun h => ⟨h.from_aligned, h.to_aligned, h.increasing, h.short⟩,
      fun ⟨hfrom, hto, hlt, hle⟩ => ⟨hfrom, hto, hlt, hle⟩⟩
  rw [hrange, isValidAccessStatisticsQuery]
  by_cases horder : start < 0 ∨ stop ≤ start
  · rw [if_pos (by simpa using horder)]
    simp only [Bool.false_eq_true, false_iff]
    omega
  · rw [if_neg (by simpa using horder)]
    by_cases haligned : start.tmod (accessStatisticsBucketSeconds interval) ≠ 0 ∨
        stop.tmod (accessStatisticsBucketSeconds interval) ≠ 0
    · rw [if_pos (by simpa using haligned)]
      simp only [Bool.false_eq_true, false_iff]
      omega
    · rw [if_neg (by simpa using haligned)]
      cases interval with
      | hour =>
        simp only [decide_eq_true_eq, maxRange]
        omega
      | day =>
        simp only [decide_eq_true_eq, maxRange]
        omega

/-- The clock rounded up to a bucket. -/
def defaultTo (interval : AccessStatisticsInterval) (now : ℤ) : ℤ :=
  (now + accessStatisticsBucketSeconds interval - 1).tdiv (accessStatisticsBucketSeconds interval) *
    accessStatisticsBucketSeconds interval

def fromError : FieldError := ⟨"invalid_from", "from must be a UTC timestamp"⟩

def toError : FieldError := ⟨"invalid_to", "to must be a UTC timestamp"⟩

theorem parseRange_eq_ok : parseRange request interval now = .ok query ↔
    parseRangeEnd (request.getQueryParameters (ascii "from")) (defaultTo interval now - 7 * 86400)
      fromError = .ok query.fromEpochSeconds ∧
    parseRangeEnd (request.getQueryParameters (ascii "to")) (defaultTo interval now) toError =
      .ok query.toEpochSeconds ∧
    query.interval = interval ∧ InRange query := by
  have hrun : parseRange request interval now =
      (parseRangeEnd (request.getQueryParameters (ascii "from"))
        (defaultTo interval now - 7 * 86400) fromError).bind fun rangeStart =>
      (parseRangeEnd (request.getQueryParameters (ascii "to")) (defaultTo interval now)
        toError).bind fun rangeEnd =>
      if rangeStart.tmod (accessStatisticsBucketSeconds interval) ≠ 0 ∨
          rangeEnd.tmod (accessStatisticsBucketSeconds interval) ≠ 0 ∨ rangeEnd ≤ rangeStart then
        .error ⟨"invalid_statistics_range", "from/to must be aligned and increasing"⟩
      else if maxRange interval < rangeEnd - rangeStart then
        .error ⟨"statistics_range_too_large", "Requested statistics range is too large"⟩
      else .ok ⟨rangeStart, rangeEnd, interval⟩ := rfl
  rw [hrun]
  cases parseRangeEnd (request.getQueryParameters (ascii "from"))
    (defaultTo interval now - 7 * 86400) fromError with
  | error e => simp [Except.bind]
  | ok rangeStart =>
    cases parseRangeEnd (request.getQueryParameters (ascii "to")) (defaultTo interval now)
      toError with
    | error e => simp [Except.bind]
    | ok rangeEnd =>
      simp only [Except.bind, Except.ok.injEq]
      constructor
      · intro h
        split at h
        · cases h
        · next haligned =>
          split at h
          · cases h
          · next hshort =>
            obtain rfl := Except.ok.inj h
            simp only [ne_eq, not_or, not_not, Int.not_le] at haligned
            exact ⟨rfl, rfl, rfl, haligned.1, haligned.2.1, haligned.2.2, Int.not_lt.mp hshort⟩
      · rintro ⟨rfl, rfl, rfl, hrange⟩
        rw [if_neg, if_neg (Int.not_lt.mpr hrange.short)]
        simp only [ne_eq, hrange.from_aligned, hrange.to_aligned, not_true_eq_false, false_or]
        exact Int.not_le.mpr hrange.increasing

theorem parseRangeEnd_given {value : Bytes} {default : ℤ} {e : FieldError}
    (h : parseUtcTimestamp value = some t) : parseRangeEnd value default e = .ok t := by
  have hne : value ≠ [] := by
    rintro rfl
    cases h
  rw [parseRangeEnd, if_neg hne, h]

theorem parseRangeEnd_absent (default : ℤ) (e : FieldError) :
    parseRangeEnd [] default e = .ok default := rfl

theorem parseRangeEnd_nonneg {value : Bytes} {default : ℤ} {e : FieldError}
    (hdefault : 0 ≤ default) (h : parseRangeEnd value default e = .ok t) : 0 ≤ t := by
  rw [parseRangeEnd] at h
  split at h
  · obtain rfl := Except.ok.inj h
    exact hdefault
  · split at h
    · cases h
    · next hparse =>
      obtain rfl := Except.ok.inj h
      obtain ⟨τ, -, hτ⟩ := TimestampTexts.parseUtcTimestamp_eq_some.mp hparse
      omega

theorem bucketSeconds_cases (interval : AccessStatisticsInterval) :
    accessStatisticsBucketSeconds interval = 3600 ∨
      accessStatisticsBucketSeconds interval = 86400 := by
  cases interval
  · exact .inl rfl
  · exact .inr rfl

theorem defaultTo_eq (interval : AccessStatisticsInterval) (h : 0 ≤ now) : defaultTo interval now =
    (now + accessStatisticsBucketSeconds interval - 1) / accessStatisticsBucketSeconds interval *
      accessStatisticsBucketSeconds interval := by
  have hbucket := bucketSeconds_cases interval
  rw [defaultTo, Int.tdiv_eq_ediv_of_nonneg (by omega)]

theorem le_defaultTo (interval : AccessStatisticsInterval) (h : 0 ≤ now) :
    now ≤ defaultTo interval now := by
  rw [defaultTo_eq interval h]
  rcases bucketSeconds_cases interval with hbucket | hbucket
  · rw [hbucket]
    omega
  · rw [hbucket]
    omega

theorem defaultTo_nonpos (interval : AccessStatisticsInterval) (h : now < 0) :
    defaultTo interval now ≤ 0 := by
  have hbucket := bucketSeconds_cases interval
  have hquotient : (now + accessStatisticsBucketSeconds interval - 1).tdiv
      (accessStatisticsBucketSeconds interval) ≤ 0 := by
    by_cases hsign : 0 ≤ now + accessStatisticsBucketSeconds interval - 1
    · rw [Int.tdiv_eq_zero_of_lt hsign (by omega)]
    · have hnonneg := Int.tdiv_nonneg
        (show 0 ≤ -(now + accessStatisticsBucketSeconds interval - 1) by omega)
        (show 0 ≤ accessStatisticsBucketSeconds interval by omega)
      rw [Int.neg_tdiv] at hnonneg
      omega
  exact Int.mul_nonpos_of_nonpos_of_nonneg hquotient (by omega)

/-- The default end is the one aligned time less than a bucket ahead of the clock. -/
theorem defaultTo_eq_iff (hlate : 604800 ≤ t)
    (haligned : t % accessStatisticsBucketSeconds interval = 0) :
    defaultTo interval now = t ↔ now ≤ t ∧ t < now + accessStatisticsBucketSeconds interval := by
  by_cases hnow : 0 ≤ now
  · rw [defaultTo_eq interval hnow]
    rcases bucketSeconds_cases interval with hbucket | hbucket
    · rw [hbucket] at haligned ⊢
      omega
    · rw [hbucket] at haligned ⊢
      omega
  · -- the clock is before 1970 and the time is not
    have hbucket := bucketSeconds_cases interval
    have hpast := defaultTo_nonpos interval (Int.not_le.mp hnow)
    omega

variable (request) (s : ServerState A L)

/-- The query that the handler works with, for one clock reading in seconds. -/
def parsed (now : ℤ) : Except FieldError AccessStatisticsQuery :=
  (parseInterval (request.getQueryParameters (ascii "interval"))).bind fun interval =>
    parseRange request interval now

theorem parseStatisticsQuery_run : ((parseStatisticsQuery request).run s).1 =
    .ok (parsed request ((s.clock 0).tdiv 1000)) := by
  rw [parseStatisticsQuery, parsed]
  cases parseInterval (request.getQueryParameters (ascii "interval")) with
  | error e => rfl
  | ok interval => rfl

variable {request}

theorem parsed_eq_ok : parsed request now = .ok query ↔
    ∃ interval, parseInterval (request.getQueryParameters (ascii "interval")) = .ok interval ∧
      parseRange request interval now = .ok query := by
  rw [parsed]
  cases parseInterval (request.getQueryParameters (ascii "interval")) with
  | error e => simp [Except.bind]
  | ok interval => simp [Except.bind]

/-- With a clock at least seven days after 1970, what passes the handler passes the repository. -/
theorem isValid_of_parsed (hnow : 604800 ≤ now) (h : parsed request now = .ok query) :
    isValidAccessStatisticsQuery query = true := by
  obtain ⟨interval, -, hparse⟩ := parsed_eq_ok.mp h
  obtain ⟨hfrom, -, -, hrange⟩ := parseRange_eq_ok.mp hparse
  have hdefault := le_defaultTo interval (show 0 ≤ now by omega)
  exact (isValid_iff query).mpr ⟨parseRangeEnd_nonneg (by omega) hfrom, hrange⟩

theorem parsed_given {rangeStart rangeEnd : ℤ}
    (hinterval : parseInterval (request.getQueryParameters (ascii "interval")) = .ok interval)
    (hfrom : parseUtcTimestamp (request.getQueryParameters (ascii "from")) = some rangeStart)
    (hto : parseUtcTimestamp (request.getQueryParameters (ascii "to")) = some rangeEnd) :
    parsed request now = .ok query ↔
      query = ⟨rangeStart, rangeEnd, interval⟩ ∧ isValidAccessStatisticsQuery query = true := by
  obtain ⟨τ, -, hτ⟩ := TimestampTexts.parseUtcTimestamp_eq_some.mp hfrom
  simp only [parsed, hinterval, Except.bind, parseRange_eq_ok, parseRangeEnd_given hfrom,
    parseRangeEnd_given hto, Except.ok.injEq]
  rw [isValid_iff]
  constructor
  · rintro ⟨hstart, hend, hquery, hrange⟩
    have heq : query = ⟨rangeStart, rangeEnd, interval⟩ := by
      cases query
      simp_all
    refine ⟨heq, ?_, hrange⟩
    rw [← hstart]
    omega
  · rintro ⟨rfl, -, hrange⟩
    exact ⟨rfl, rfl, rfl, hrange⟩

theorem resultIndex_error {value what : Bytes} :
    AccessStatisticsReader.resultIndex value ≠ .error (.invalidArgument what) := by
  rw [AccessStatisticsReader.resultIndex]
  split
  · simp
  · split <;> simp

theorem bind_ne_error {α β : Type} {x : Except Exception α} {g : α → Except Exception β}
    {e : Exception} (hx : x ≠ .error e) (hg : ∀ a, g a ≠ .error e) : (x >>= g) ≠ .error e := by
  cases x with
  | error e' => exact fun h => hx (congrArg _ (Except.error.inj h))
  | ok a => exact hg a

theorem foldlM_ne_error {α β : Type} {step : β → α → Except Exception β} {e : Exception}
    (hstep : ∀ b a, step b a ≠ .error e) (rows : List α) (b : β) :
    rows.foldlM step b ≠ .error e := by
  induction rows generalizing b with
  | nil => simp [pure, Except.pure]
  | cons row rows ih =>
    rw [List.foldlM_cons]
    exact bind_ne_error (hstep b row) ih

theorem pure_ne_error {α : Type} (a : α) (e : Exception) :
    (pure a : Except Exception α) ≠ .error e := by
  simp [pure, Except.pure]

theorem get_ne_invalidArgument (scan : AccessStatisticsReader.Scan) (d : StatisticsSchema.Db)
    (code what : Bytes) (h : isValidAccessStatisticsQuery query = true) :
    AccessStatisticsReader.get scan d code query ≠ .error (.invalidArgument what) := by
  have hindex : ∀ value,
      AccessStatisticsReader.resultIndex value ≠ .error (.invalidArgument what) :=
        fun value => resultIndex_error
  have htotal : ∀ summary row, AccessStatisticsReader.readTotal summary row ≠
      .error (.invalidArgument what) := fun summary row =>
    bind_ne_error (hindex row.1) fun index => pure_ne_error _ _
  have htrend : ∀ trend row, AccessStatisticsReader.readTrend trend row ≠
      .error (.invalidArgument what) := fun trend row =>
    bind_ne_error (hindex row.result) fun index => pure_ne_error _ _
  rw [AccessStatisticsReader.get, h]
  cases d.shortLinks.selectIdByCode code with
  | none => simp
  | some shortLinkId =>
    exact bind_ne_error (foldlM_ne_error htotal _ _) fun summary =>
      bind_ne_error (foldlM_ne_error htrend _ _) fun trend => pure_ne_error _ _

/-- What the handler takes for a query is one that the repository serves, and three values that
parse make a query just when they make one that the repository serves. -/
theorem validators_agree (request : HttpRequest) (s : ServerState A L)
    (hclock : 604800 ≤ (s.clock 0).tdiv 1000) :
    (∀ query, ((parseStatisticsQuery request).run s).1 = .ok (.ok query) →
      isValidAccessStatisticsQuery query = true ∧
      ∀ scan d code what,
        AccessStatisticsReader.get scan d code query ≠ .error (.invalidArgument what)) ∧
    ∀ rangeStart rangeEnd interval,
      parseUtcTimestamp (request.getQueryParameters (ascii "from")) = some rangeStart →
      parseUtcTimestamp (request.getQueryParameters (ascii "to")) = some rangeEnd →
      parseAccessStatisticsInterval (request.getQueryParameters (ascii "interval")) =
        some interval →
      ∀ query, ((parseStatisticsQuery request).run s).1 = .ok (.ok query) ↔
        query = ⟨rangeStart, rangeEnd, interval⟩ ∧
          isValidAccessStatisticsQuery ⟨rangeStart, rangeEnd, interval⟩ = true := by
  constructor
  · intro query h
    rw [parseStatisticsQuery_run, Except.ok.injEq] at h
    have hvalid := isValid_of_parsed hclock h
    exact ⟨hvalid, fun scan d code what => get_ne_invalidArgument scan d code what hvalid⟩
  · intro rangeStart rangeEnd interval hfrom hto hinterval query
    have hparse : parseInterval (request.getQueryParameters (ascii "interval")) =
        .ok interval := by
      have hne : request.getQueryParameters (ascii "interval") ≠ [] := by
        intro hnil
        rw [hnil] at hinterval
        cases hinterval
      rw [parseInterval, if_neg hne, hinterval]
    rw [parseStatisticsQuery_run, Except.ok.injEq, parsed_given hparse hfrom hto]
    constructor
    · rintro ⟨rfl, hvalid⟩
      exact ⟨rfl, hvalid⟩
    · rintro ⟨rfl, hvalid⟩
      exact ⟨rfl, hvalid⟩

/-- A server that answers nothing but the time. -/
def demoServer (seconds : ℤ) : ServerState Unit Unit where
  auth := ()
  links := ()
  statistics _ _ := .ok none
  clock _ := seconds * 1000
  random _ := none
  limiter _ := ⟨.allowed, 0⟩
  consulted := []
  published := []
  eventSequence := 0
  metrics := []
  httpMetricsText := []
  mysqlHealthy := false
  response := {}

/-- The default range of a request on the evening of 1970-01-20. -/
theorem validators_agree_default :
    isValidAccessStatisticsQuery ⟨1123200, 1728000, .day⟩ = true ∧
      ∀ scan d code what, AccessStatisticsReader.get scan d code ⟨1123200, 1728000, .day⟩ ≠
        .error (.invalidArgument what) :=
  (validators_agree {} (demoServer 1720000) (by decide)).1 _ rfl

/-- The start is seven days before the end when the end is the clock rounded up, and only then. -/
theorem defaultFrom_follows_iff (request : HttpRequest) (s : ServerState A L)
    (hinterval : parseInterval (request.getQueryParameters (ascii "interval")) = .ok interval)
    (hfrom : request.getQueryParameters (ascii "from") = [])
    (hto : parseUtcTimestamp (request.getQueryParameters (ascii "to")) = some t)
    (haligned : t % accessStatisticsBucketSeconds interval = 0) (hlate : 604800 ≤ t) :
    ((parseStatisticsQuery request).run s).1 = .ok (.ok ⟨t - 7 * 86400, t, interval⟩) ↔
      (s.clock 0).tdiv 1000 ≤ t ∧
        t < (s.clock 0).tdiv 1000 + accessStatisticsBucketSeconds interval := by
  rw [parseStatisticsQuery_run, Except.ok.injEq, ← defaultTo_eq_iff hlate haligned]
  simp only [parsed, hinterval, Except.bind, parseRange_eq_ok, hfrom, parseRangeEnd_absent,
    parseRangeEnd_given hto, Except.ok.injEq, true_and]
  constructor
  · rintro ⟨hstart, -⟩
    omega
  · intro hdefault
    refine ⟨by omega, ?_⟩
    have hbucket := bucketSeconds_cases interval
    have hweek : (t - 7 * 86400) % accessStatisticsBucketSeconds interval = 0 := by
      rcases hbucket with hbucket | hbucket
      · rw [hbucket] at haligned ⊢
        omega
      · rw [hbucket] at haligned ⊢
        omega
    refine ⟨?_, ?_, by dsimp only; omega, ?_⟩
    · rw [Int.tmod_eq_emod_of_nonneg (by dsimp only; omega)]
      exact hweek
    · rw [Int.tmod_eq_emod_of_nonneg (by dsimp only; omega)]
      exact haligned
    · have hmax : 7 * 86400 ≤ maxRange interval := by
        cases interval <;> decide
      dsimp only
      omega

/-- GET …/statistics?to=1970-01-11T00:00:00Z -/
def demoRequest : HttpRequest where
  queryParameters := .insert .empty (ascii "to") (ascii "1970-01-11T00:00:00Z")

theorem defaultFrom_follows_on_time : ((parseStatisticsQuery demoRequest).run
    (demoServer 860000)).1 = .ok (.ok ⟨864000 - 7 * 86400, 864000, .day⟩) :=
  (defaultFrom_follows_iff demoRequest (demoServer 860000) rfl rfl (by decide) (by decide)
    (by decide)).mpr (by decide)

/-- Nine days later the same request is refused: its start would be after its end. -/
theorem defaultFrom_after_to :
    parseUtcTimestamp (demoRequest.getQueryParameters (ascii "to")) = some 864000 ∧
    ((parseStatisticsQuery demoRequest).run (demoServer 1720000)).1 =
      .ok (.error ⟨"invalid_statistics_range", "from/to must be aligned and increasing"⟩) :=
  ⟨by decide, rfl⟩

end StatisticsQueries
