import HaoShortLink.ApiHandlers

/-! The counters of create requests (ShortLinkMetrics.cpp): the one that a request increments, and
the answer it stands for. -/
namespace CreateCounts

open Cpp Actions HttpRequests ShortLinks ServerStates ServerStates.Server ShortLinkServices
open ApiHandlers

def storageIndex : Storage → ℕ
  | .memory => 0
  | .mysql => 1

def createResultIndex : CreateResult → ℕ
  | .success => 0
  | .invalid => 1
  | .error => 2

def rateLimitIndex : RateLimitStatus → Fin 3
  | .allowed => 0
  | .limited => 1
  | .error => 2

def kStorageCount : ℕ := 2
def kCreateResultCount : ℕ := 3

theorem createIndex_lt (result : CreateResult) (storage : Storage) :
    storageIndex storage * kCreateResultCount + createResultIndex result <
      kStorageCount * kCreateResultCount := by
  cases storage <;> cases result <;> decide

def createIndex (result : CreateResult) (storage : Storage) :
    Fin (kStorageCount * kCreateResultCount) :=
  ⟨storageIndex storage * kCreateResultCount + createResultIndex result, createIndex_lt _ _⟩

structure ShortLinkMetrics where
  createCounters : Fin (kStorageCount * kCreateResultCount) → ℕ
  rateLimitCounters : Fin 3 → ℕ

/-- The counters are 64-bit. -/
def fetchAdd {n : ℕ} (counters : Fin n → ℕ) (index : Fin n) : Fin n → ℕ :=
  Function.update counters index ((counters index + 1) % 2 ^ 64)

namespace ShortLinkMetrics

def zero : ShortLinkMetrics := ⟨fun _ => 0, fun _ => 0⟩

def recordCreate (result : CreateResult) (storage : Storage) (m : ShortLinkMetrics) :
    ShortLinkMetrics :=
  { m with createCounters := fetchAdd m.createCounters (createIndex result storage) }

def recordRateLimit (result : RateLimitStatus) (m : ShortLinkMetrics) : ShortLinkMetrics :=
  { m with rateLimitCounters := fetchAdd m.rateLimitCounters (rateLimitIndex result) }

/-- The other metrics are kept elsewhere. -/
def apply (m : ShortLinkMetrics) : Metric → ShortLinkMetrics
  | .create result storage => m.recordCreate result storage
  | .rateLimit result => m.recordRateLimit result
  | _ => m

def after (metrics : List Metric) : ShortLinkMetrics := metrics.foldl apply zero

end ShortLinkMetrics

inductive Counter where
  | limited
  | create (result : CreateResult) (storage : Storage)
  deriving DecidableEq, Repr

def Counter.value (m : ShortLinkMetrics) : Counter → ℕ
  | .limited => m.rateLimitCounters (rateLimitIndex .limited)
  | .create result storage => m.createCounters (createIndex result storage)

def Increments (c : Counter) (before after : ShortLinkMetrics) : Prop :=
  ∀ c', c'.value after = if c' = c then (c'.value before + 1) % 2 ^ 64 else c'.value before

theorem createIndex_injective {result result' : CreateResult} {storage storage' : Storage}
    (h : createIndex result storage = createIndex result' storage') :
    result = result' ∧ storage = storage' := by
  revert h
  cases result <;> cases storage <;> cases result' <;> cases storage' <;> decide

theorem increments_create (result : CreateResult) (storage : Storage) (m : ShortLinkMetrics) :
    Increments (.create result storage) m (m.recordCreate result storage) := by
  intro c
  cases c with
  | limited => simp [Counter.value, ShortLinkMetrics.recordCreate]
  | create result' storage' =>
    by_cases h : createIndex result' storage' = createIndex result storage
    · obtain ⟨hresult, hstorage⟩ := createIndex_injective h
      simp [Counter.value, ShortLinkMetrics.recordCreate, fetchAdd, hresult, hstorage]
    · have hne : Counter.create result' storage' ≠ .create result storage := by
        intro heq
        obtain ⟨hresult, hstorage⟩ := Counter.create.inj heq
        exact h (by rw [hresult, hstorage])
      simp [Counter.value, ShortLinkMetrics.recordCreate, fetchAdd, h, hne]

theorem increments_limited (m : ShortLinkMetrics) :
    Increments .limited m (m.recordRateLimit .limited) := by
  intro c
  cases c with
  | limited => simp [Counter.value, ShortLinkMetrics.recordRateLimit, fetchAdd]
  | create result storage => simp [Counter.value, ShortLinkMetrics.recordRateLimit]

theorem value_recordRateLimit {status : RateLimitStatus} (h : status ≠ .limited)
    (m : ShortLinkMetrics) (c : Counter) : c.value (m.recordRateLimit status) = c.value m := by
  cases c with
  | limited =>
    have hindex : rateLimitIndex .limited ≠ rateLimitIndex status := by
      revert h
      cases status <;> decide
    simp [Counter.value, ShortLinkMetrics.recordRateLimit, fetchAdd, hindex]
  | create result storage => simp [Counter.value, ShortLinkMetrics.recordRateLimit]

variable {A L : Type}

/-- The counter says how the handler ended. -/
inductive Exit (storage : Storage) (x : Ended A L) : Counter → Prop where
  | created : Answers 201 x → Exit storage x (.create .success storage)
  | refused (status : ℕ) : status = 400 ∨ status = 409 → Answers status x →
      Exit storage x (.create .invalid storage)
  | failed (e : RepositoryException) : x.1 = .error e → Exit storage x (.create .error storage)
  | limited : Answers 429 x → Exit storage x .limited

/-- The counter, and what each value of it stands for. -/
structure Labelled (storage : Storage) (x : Ended A L) (c : Counter) : Prop where
  success : c = .create .success storage ↔ Answers 201 x
  invalid : c = .create .invalid storage ↔ Answers 400 x ∨ Answers 409 x
  error : c = .create .error storage ↔ LetsThrough x
  limited : c = .limited ↔ Answers 429 x

theorem Exit.labelled {storage : Storage} {x : Ended A L} {c : Counter} (h : Exit storage x c) :
    Labelled storage x c := by
  cases h with
  | created h => constructor <;> simp [h.status_eq, h.not_letsThrough]
  | refused status hstatus h =>
    rcases hstatus with hstatus | hstatus <;> subst hstatus <;>
      constructor <;> simp [h.status_eq, h.not_letsThrough]
  | failed e h =>
    have hnot : ∀ status, ¬ Answers status x := by
      intro status hanswer
      rw [hanswer.1] at h
      cases h
    constructor <;> simp [hnot, LetsThrough, h]
  | limited h => constructor <;> simp [h.status_eq, h.not_letsThrough]

variable (api : ShortLinkHttpApi A L)

theorem parseExpiry_run (value : Option JsonValues.Json) (s : ServerState A L) :
    ∃ outcome clock, (parseExpiry value).run s = (.ok outcome, { s with clock := clock }) := by
  unfold parseExpiry
  split
  · exact ⟨_, s.clock, rfl⟩
  · split
    · exact ⟨_, s.clock, rfl⟩
    · next expiresAt _ =>
      have hnow : (nowEpochSeconds : Server A L ℤ).run s =
        (.ok ((s.clock 0).tdiv 1000), { s with clock := fun n => s.clock (n + 1) }) := rfl
      rw [Action.run_bind_ok hnow]
      split
      · exact ⟨_, _, rfl⟩
      · exact ⟨_, _, rfl⟩

theorem parseCreate_run (request : HttpRequest) (s : ServerState A L) :
    ∃ outcome clock, (parseCreate api request).run s =
      (.ok outcome, { s with clock := clock }) := by
  unfold parseCreate
  split
  · exact ⟨_, s.clock, rfl⟩
  · next object _ =>
    split
    · exact ⟨_, s.clock, rfl⟩
    · split
      · exact ⟨_, s.clock, rfl⟩
      · obtain ⟨outcome, clock, hexpiry⟩ := parseExpiry_run (object.find (ascii "expires_at")) s
        rw [Action.run_bind_ok hexpiry]
        cases outcome with
        | error e => exact ⟨_, clock, rfl⟩
        | ok expiresAt =>
          dsimp only
          split
          · exact ⟨_, clock, rfl⟩
          · exact ⟨_, clock, rfl⟩

theorem isPast_run (expiresAt : Option ℤ) (s : ServerState A L) :
    ∃ past clock, (isPast expiresAt).run s = (.ok past, { s with clock := clock }) := by
  cases expiresAt with
  | none => exact ⟨_, s.clock, rfl⟩
  | some t => exact ⟨_, _, rfl⟩

theorem createShortLink_run (originalUrl : Bytes) (expiresAt : Option ℤ) (ownerId : ℕ)
    (customCode : Option Bytes) (s : ServerState A L) :
    ∃ result clock links, (createShortLink api originalUrl expiresAt ownerId customCode).run s =
      (result, { s with clock := clock, links := links }) := by
  unfold createShortLink
  split
  · exact ⟨_, s.clock, s.links, rfl⟩
  · obtain ⟨past, clock, hpast⟩ := isPast_run expiresAt s
    rw [Action.run_bind_ok hpast]
    split
    · exact ⟨_, clock, s.links, rfl⟩
    · have hnow : (nowEpochSeconds : Server A L ℤ).run { s with clock := clock } =
        (.ok ((clock 0).tdiv 1000), { s with clock := fun n => clock (n + 1) }) := rfl
      rw [Action.run_bind_ok hnow, Action.run_bind]
      simp only [updateLinks]
      rcases api.linkRepository.create originalUrl expiresAt ownerId customCode
        ((clock 0).tdiv 1000) s.links with ⟨e | record, links⟩
      · exact ⟨_, _, links, rfl⟩
      · exact ⟨_, _, links, rfl⟩

open ShortLinkMetrics (after)

theorem after_snoc (metrics : List Metric) (metric : Metric) :
    after (metrics ++ [metric]) = (after metrics).apply metric := by simp [after]

def Records (storage : Storage) (metrics : List Metric) (x : Ended A L) : Prop :=
  ∃ result, x.2.metrics = metrics ++ [.create result storage] ∧
    Exit storage x (.create result storage)

theorem performCreate_records (create : CreateRequest) (ownerId : ℕ) (s : ServerState A L) :
    Records api.config.metricsStorage s.metrics ((performCreate api create ownerId).run s) := by
  obtain ⟨result, clock, links, hcreate⟩ :=
    createShortLink_run api create.url create.expiresAt ownerId create.customCode s
  unfold performCreate
  rcases result with e | _ | created
  · rw [Action.run_tryCatch_error (Action.run_bind_error hcreate _)]
    cases e with
    | shortCodeConflict => exact ⟨.invalid, rfl, .refused 409 (.inr rfl) ⟨rfl, rfl⟩⟩
    | std e => exact ⟨.error, rfl, .failed (.std e) rfl⟩
  · rw [Action.run_tryCatch_ok ((Action.run_bind_ok hcreate _).trans rfl)]
    exact ⟨.invalid, rfl, .refused 400 (.inl rfl) ⟨rfl, rfl⟩⟩
  · -- the body of the answer is dumped before the request is counted
    cases hdump : api.json.dump (recordJson created.record) with
    | error e =>
      rw [Action.run_tryCatch_error ((Action.run_bind_ok hcreate _).trans
        (Action.run_bind_error (setJson_error api hdump 201 "Created" _) _))]
      exact ⟨.error, rfl, .failed (.std e) rfl⟩
    | ok body =>
      rw [Action.run_tryCatch_ok ((Action.run_bind_ok hcreate _).trans
        ((Action.run_bind_ok (setJson_ok api hdump 201 "Created" _) _).trans rfl))]
      exact ⟨.success, rfl, .created ⟨rfl, rfl⟩⟩

/-- handleCreate once the limiter has let the request pass. -/
def admitted (request : HttpRequest) (ownerId : ℕ) : Server A L Unit := do
  match ← parseCreate api request with
  | .error e => do
    recordCreate api .invalid
    refuse e
  | .ok create => performCreate api create ownerId

theorem admitted_records (request : HttpRequest) (ownerId : ℕ) (s : ServerState A L) :
    Records api.config.metricsStorage s.metrics ((admitted api request ownerId).run s) := by
  obtain ⟨outcome, clock, hparse⟩ := parseCreate_run api request s
  rw [admitted, Action.run_bind_ok hparse]
  cases outcome with
  | error e => exact ⟨.invalid, rfl, .refused 400 (.inl rfl) ⟨rfl, rfl⟩⟩
  | ok create => exact performCreate_records api create ownerId { s with clock := clock }

theorem Records.increments {storage : Storage} {metrics : List Metric} {x : Ended A L}
    (h : Records storage metrics x) :
    ∃ c, Increments c (after metrics) (after x.2.metrics) ∧ Exit storage x c := by
  obtain ⟨result, hmetrics, hexit⟩ := h
  refine ⟨.create result storage, ?_, hexit⟩
  rw [hmetrics, after_snoc]
  exact increments_create result storage _

def asked (counted : List Metric) (s : ServerState A L) : ServerState A L :=
  { s with
    limiter := fun n => s.limiter (n + 1)
    consulted := s.consulted ++ [ascii "global"]
    metrics := s.metrics ++ counted }

theorem handleCreate_unlimited (h : api.hasRateLimiter = false) (request : HttpRequest)
    (ownerId : ℕ) (s : ServerState A L) :
    (handleCreate api request ownerId).run s = (admitted api request ownerId).run s := by
  have hpass : (passRateLimiter api).run s = (.ok true, s) := by
    rw [passRateLimiter, h]
    rfl
  rw [handleCreate, Action.run_bind_ok hpass, if_pos rfl]
  rfl

/-- An answer of the limiter that lets the request pass, with what is counted for it. -/
def Passes : RateLimitStatus → List Metric → Prop
  | .allowed, counted => counted = [.rateLimit .allowed]
  | .error, counted => counted = [.rateLimit .error, .rateLimitBackendError]
  | .limited, _ => False

theorem handleCreate_passed (h : api.hasRateLimiter = true) (request : HttpRequest) (ownerId : ℕ)
    {s : ServerState A L} {counted : List Metric} (hpasses : Passes (s.limiter 0).status counted) :
    (handleCreate api request ownerId).run s =
      (admitted api request ownerId).run (asked counted s) := by
  have hpass : (passRateLimiter api).run s = (.ok true, asked counted s) := by
    have hcheck : (checkRateLimiter (ascii "global") : Server A L RateLimitResult).run s =
      (.ok (s.limiter 0), asked [] s) := by simp [checkRateLimiter, asked]
    rw [passRateLimiter, if_pos h, Action.run_bind_ok hcheck]
    cases hstatus : (s.limiter 0).status with
    | allowed =>
      rw [hstatus] at hpasses
      subst hpasses
      simp [asked, record, Action.run_bind, Action.modify]
    | error =>
      rw [hstatus] at hpasses
      subst hpasses
      simp [asked, record, Action.run_bind, Action.modify]
    | limited =>
      rw [hstatus] at hpasses
      exact hpasses.elim
  rw [handleCreate, Action.run_bind_ok hpass, if_pos rfl]
  rfl

theorem handleCreate_limited (h : api.hasRateLimiter = true) (request : HttpRequest)
    (ownerId : ℕ) {s : ServerState A L} (hlimited : (s.limiter 0).status = .limited) :
    (handleCreate api request ownerId).run s = (.ok (), { asked [.rateLimit .limited] s with
      response := { (s.response.addHeader (ascii "Retry-After")
          (signedToDecimal (s.limiter 0).retryAfterSeconds)).setErrorResponse 429
            (ascii "rate_limit_exceeded") (ascii "Too many requests") with
        statusMessage := ascii "Too Many Requests" } }) := by
  have hcheck : (checkRateLimiter (ascii "global") : Server A L RateLimitResult).run s =
    (.ok (s.limiter 0), asked [] s) := by simp [checkRateLimiter, asked]
  rw [handleCreate, passRateLimiter, if_pos h, Action.run_bind, Action.run_bind_ok hcheck, hlimited]
  simp [asked, record, Action.run_bind, Action.modify, addHeader, setErrorResponse, respond]

theorem after_passed {status : RateLimitStatus} {counted : List Metric}
    (hpasses : Passes status counted) (metrics : List Metric) (c : Counter) :
    c.value (after (metrics ++ counted)) = c.value (after metrics) := by
  cases status with
  | allowed =>
    rw [hpasses, after_snoc]
    exact value_recordRateLimit (by decide) _ c
  | limited => exact hpasses.elim
  | error =>
    rw [hpasses, ← List.singleton_append, ← List.append_assoc, after_snoc, after_snoc]
    exact value_recordRateLimit (by decide) _ c

def SameBut (s t : ServerState A L) : Prop :=
  ∃ limiter consulted metrics,
    t = { s with limiter := limiter, consulted := consulted, metrics := metrics }

variable {api}

theorem lockstep_record (metric : Metric) :
    Lockstep SameBut (record metric : Server A L Unit) := by
  apply lockstep_modify
  intro s t ⟨limiter, consulted, metrics, h⟩
  subst h
  exact ⟨_, _, _, rfl⟩

theorem lockstep_respond (f : HttpResponses.HttpResponse → HttpResponses.HttpResponse) :
    Lockstep SameBut (respond f : Server A L Unit) := by
  apply lockstep_modify
  intro s t ⟨limiter, consulted, metrics, h⟩
  subst h
  exact ⟨_, _, _, rfl⟩

theorem lockstep_refuse (e : FieldError) : Lockstep SameBut (refuse e : Server A L Unit) := by
  unfold refuse setErrorResponse
  exact lockstep_respond _

theorem lockstep_now : Lockstep SameBut (nowEpochSeconds : Server A L ℤ) := by
  intro s t ⟨limiter, consulted, metrics, h⟩
  subst h
  exact ⟨rfl, _, _, _, rfl⟩

theorem lockstep_setJson (status : ℕ) (message : String) (body : JsonValues.Json) :
    Lockstep SameBut (setJson api status message body) := by
  refine lockstep_bind (lockstep_respond _) ?_
  intro _
  cases api.json.dump body with
  | error e => exact lockstep_throw _
  | ok written => exact lockstep_respond _

theorem lockstep_parseExpiry (value : Option JsonValues.Json) :
    Lockstep SameBut (parseExpiry value : Server A L _) := by
  unfold parseExpiry
  split
  · exact lockstep_pure _
  · split
    · exact lockstep_pure _
    · refine lockstep_bind lockstep_now ?_
      intro now
      split <;> exact lockstep_pure _

theorem lockstep_parseCreate (request : HttpRequest) :
    Lockstep SameBut (parseCreate api request) := by
  unfold parseCreate
  split
  · exact lockstep_pure _
  · split
    · exact lockstep_pure _
    · split
      · exact lockstep_pure _
      · refine lockstep_bind (lockstep_parseExpiry _) ?_
        intro outcome
        split
        · exact lockstep_pure _
        · split <;> exact lockstep_pure _

theorem lockstep_createShortLink (originalUrl : Bytes) (expiresAt : Option ℤ) (ownerId : ℕ)
    (customCode : Option Bytes) :
    Lockstep SameBut (createShortLink api originalUrl expiresAt ownerId customCode) := by
  unfold createShortLink
  split
  · exact lockstep_pure _
  · refine lockstep_bind ?_ ?_
    · cases expiresAt with
      | none => exact lockstep_pure _
      | some t => exact lockstep_bind lockstep_now fun _ => lockstep_pure _
    · intro past
      split
      · exact lockstep_pure _
      · refine lockstep_bind lockstep_now ?_
        intro now
        refine lockstep_bind ?_ fun _ => lockstep_pure _
        intro s t ⟨limiter, consulted, metrics, h⟩
        subst h
        exact ⟨rfl, _, _, _, rfl⟩

theorem lockstep_performCreate (create : CreateRequest) (ownerId : ℕ) :
    Lockstep SameBut (performCreate api create ownerId) := by
  intro s t hst
  apply LockstepAt.tryCatch
  · refine lockstep_bind (lockstep_createShortLink _ _ _ _) ?_ s t hst
    intro created
    cases created with
    | none => exact lockstep_bind (lockstep_record _) fun _ => lockstep_refuse _
    | some created => exact lockstep_bind (lockstep_setJson _ _ _) fun _ => lockstep_record _
  · intro e
    cases e with
    | shortCodeConflict => exact lockstep_bind (lockstep_record _) fun _ => lockstep_respond _
    | std e => exact lockstep_bind (lockstep_record _) fun _ => lockstep_throw _

theorem lockstep_admitted (request : HttpRequest) (ownerId : ℕ) :
    Lockstep SameBut (admitted api request ownerId) := by
  refine lockstep_bind (lockstep_parseCreate request) ?_
  intro outcome
  cases outcome with
  | error e => exact lockstep_bind (lockstep_record _) fun _ => lockstep_refuse _
  | ok create => exact lockstep_performCreate create ownerId

variable (api)

/-- What holds of a create request from the state s. -/
structure CountedOnce (request : HttpRequest) (ownerId : ℕ) (s : ServerState A L)
    (x : Ended A L) : Prop where
  one : ∃ c, Increments c (after s.metrics) (after x.2.metrics) ∧
    Labelled api.config.metricsStorage x c
  /-- Another repository would not have been noticed, and the clock is not read. -/
  limited : api.hasRateLimiter → (s.limiter 0).status = .limited →
    Answers 429 x ∧ x.2.links = s.links ∧ x.2.clock = s.clock ∧
      ∀ repository,
        (handleCreate { api with linkRepository := repository } request ownerId).run s = x
  /-- The request is answered as without a limiter. -/
  limiterError : api.hasRateLimiter → (s.limiter 0).status = .error →
    let unlimited := (handleCreate { api with hasRateLimiter := false } request ownerId).run s
    unlimited.1 = x.1 ∧ SameBut unlimited.2 x.2

theorem passes_of_ne {status : RateLimitStatus} (h : status ≠ .limited) :
    ∃ counted, Passes status counted := by
  cases status with
  | allowed => exact ⟨_, rfl⟩
  | limited => exact absurd rfl h
  | error => exact ⟨_, rfl⟩

theorem handleCreate_one (request : HttpRequest) (ownerId : ℕ) (s : ServerState A L) :
    ∃ c, Increments c (after s.metrics)
        (after ((handleCreate api request ownerId).run s).2.metrics) ∧
      Exit api.config.metricsStorage ((handleCreate api request ownerId).run s) c := by
  cases hlimiter : api.hasRateLimiter with
  | false =>
    rw [handleCreate_unlimited api hlimiter]
    exact (admitted_records api request ownerId s).increments
  | true =>
    by_cases hlimited : (s.limiter 0).status = .limited
    · rw [handleCreate_limited api hlimiter request ownerId hlimited]
      refine ⟨.limited, ?_, .limited ⟨rfl, rfl⟩⟩
      have hmetrics : (asked [.rateLimit .limited] s).metrics =
        s.metrics ++ [.rateLimit .limited] := rfl
      simp only [hmetrics, after_snoc]
      exact increments_limited _
    · obtain ⟨counted, hpasses⟩ := passes_of_ne hlimited
      rw [handleCreate_passed api hlimiter request ownerId hpasses]
      obtain ⟨c, hincrements, hexit⟩ :=
        (admitted_records api request ownerId (asked counted s)).increments
      refine ⟨c, ?_, hexit⟩
      intro c'
      have hbefore := after_passed hpasses s.metrics c'
      rw [hincrements c']
      simp only [asked, hbefore]

theorem handleCreate_counted_once (request : HttpRequest) (ownerId : ℕ) (s : ServerState A L) :
    CountedOnce api request ownerId s ((handleCreate api request ownerId).run s) where
  one := by
    obtain ⟨c, hincrements, hexit⟩ := handleCreate_one api request ownerId s
    exact ⟨c, hincrements, hexit.labelled⟩
  limited hlimiter hlimited := by
    rw [handleCreate_limited api hlimiter request ownerId hlimited]
    refine ⟨⟨rfl, rfl⟩, rfl, rfl, ?_⟩
    intro repository
    exact handleCreate_limited { api with linkRepository := repository } hlimiter request ownerId
      hlimited
  limiterError hlimiter herror := by
    have hpasses : Passes (s.limiter 0).status [.rateLimit .error, .rateLimitBackendError] := by
      rw [herror]
      rfl
    have hunlimited := handleCreate_unlimited { api with hasRateLimiter := false } rfl request
      ownerId s
    rw [handleCreate_passed api hlimiter request ownerId hpasses, hunlimited]
    exact lockstep_admitted request ownerId s _ ⟨_, _, _, rfl⟩

end CreateCounts
