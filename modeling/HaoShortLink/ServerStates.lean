import HaoShortLink.AccessStatistics
import HaoShortLink.Actions
import HaoShortLink.AuthRepositories
import HaoShortLink.HttpResponses
import HaoShortLink.HttpRequests
import HaoShortLink.JsonValues
import HaoShortLink.ShortLinks

/-! What the handlers of the API run on: the stores, the clock and the other services they use,
and the response under construction. -/
namespace ServerStates

open Cpp Actions HttpRequests HttpResponses ShortLinks AuthRepositories AccessStatistics
open AccessEvents (AccessEvent)
open JsonValues (JsonLibrary)

inductive Storage where
  | memory
  | mysql
  deriving DecidableEq, Repr

inductive CreateResult where
  | success
  | invalid
  | error
  deriving DecidableEq, Repr

inductive RedirectResult where
  | success
  | notFound
  | disabled
  | expired
  | error
  deriving DecidableEq, Repr

/-- RateLimiter::Status, and the result the metrics count under the same names. -/
inductive RateLimitStatus where
  | allowed
  | limited
  | error
  deriving DecidableEq, Repr

inductive Metric where
  | create (result : CreateResult) (storage : Storage)
  | redirect (result : RedirectResult) (source : LookupSource)
  | rateLimit (result : RateLimitStatus)
  /-- Backend Redis, operation RateLimit. -/
  | rateLimitBackendError
  deriving DecidableEq, Repr

structure RateLimitResult where
  status : RateLimitStatus
  retryAfterSeconds : ℤ
  deriving DecidableEq, Repr

/-- The streams hold what the outside will answer next. -/
structure ServerState (A L : Type) where
  auth : A
  links : L
  statistics : Bytes → AccessStatisticsQuery → Except Exception (Option AccessStatisticsSnapshot)
  /-- Readings of system_clock in milliseconds. -/
  clock : ℕ → ℤ
  /-- Outcomes of RAND_bytes. -/
  random : ℕ → Option (ℕ → UInt8)
  limiter : ℕ → RateLimitResult
  /-- The keys the rate limiter was asked for. -/
  consulted : List Bytes
  published : List AccessEvent
  eventSequence : ℕ
  metrics : List Metric
  /-- What HttpServer::prometheusMetrics would render. -/
  httpMetricsText : Bytes
  mysqlHealthy : Bool
  response : HttpResponse

structure AuthHttpConfig where
  registrationEnabled : Bool := true
  cookieSecure : Bool := false
  cookieName : Bytes := ascii "hao_session"
  deriving DecidableEq, Repr

structure ShortLinkHttpApiConfig where
  requiresMySql : Bool := false
  metricsEnabled : Bool := true
  metricsStorage : Storage := .memory
  auth : AuthHttpConfig := {}
  deriving DecidableEq, Repr

/-- The calls to OpenSSL, which may fail. -/
structure OpenSsl where
  sha256 : Bytes → Option Bytes
  scrypt : (password salt : Bytes) → Option Bytes

/-- What registerShortLinkHttpApi is given, with what the services behind it were built from. -/
structure ShortLinkHttpApi (A L : Type) where
  authRepository : AuthRepository A
  linkRepository : ShortLinkRepository L
  openSsl : OpenSsl
  json : JsonLibrary
  sessionTtlSeconds : ℤ
  dummyPasswordHash : Bytes
  hasRateLimiter : Bool
  hasStatistics : Bool
  eventNonce : ℕ
  renderPrometheus : List Metric → Bytes
  config : ShortLinkHttpApiConfig

abbrev Server (A L : Type) := Action (ServerState A L) RepositoryException

variable {A L α : Type}

namespace Server

def nowEpochMilliseconds : Server A L ℤ :=
  ⟨fun s => (.ok (s.clock 0), { s with clock := fun n => s.clock (n + 1) })⟩

def nowEpochSeconds : Server A L ℤ := do
  let milliseconds ← nowEpochMilliseconds
  pure (milliseconds.tdiv 1000)

def randBytes (count : ℕ) : Server A L (Option Bytes) :=
  ⟨fun s => (.ok ((s.random 0).map fun byte => (List.range count).map byte),
    { s with random := fun n => s.random (n + 1) })⟩

def checkRateLimiter (key : Bytes) : Server A L RateLimitResult :=
  ⟨fun s => (.ok (s.limiter 0),
    { s with limiter := fun n => s.limiter (n + 1), consulted := s.consulted ++ [key] })⟩

def record (metric : Metric) : Server A L Unit :=
  Action.modify fun s => { s with metrics := s.metrics ++ [metric] }

/-- publish is noexcept. -/
def publish (event : AccessEvent) : Server A L Unit :=
  Action.modify fun s => { s with published := s.published ++ [event] }

def respond (f : HttpResponse → HttpResponse) : Server A L Unit :=
  Action.modify fun s => { s with response := f s.response }

def setErrorResponse (statusCode : ℕ) (errorCode message : String) : Server A L Unit :=
  respond fun r => r.setErrorResponse statusCode (ascii errorCode) (ascii message)

def addHeader (name : String) (value : Bytes) : Server A L Unit :=
  respond fun r => r.addHeader (ascii name) value

/-- A const method of a repository: it sees the store and may throw. -/
def queryLinks (f : L → Except RepositoryException α) : Server A L α :=
  Action.query fun s => f s.links

def updateLinks (f : L → Except RepositoryException α × L) : Server A L α :=
  ⟨fun s => ((f s.links).1, { s with links := (f s.links).2 })⟩

def queryAuth (f : A → Except Exception α) : Server A L α :=
  Action.query fun s => (f s.auth).mapError .std

def updateAuth (f : A → Except Exception α × A) : Server A L α :=
  ⟨fun s => ((f s.auth).1.mapError .std, { s with auth := (f s.auth).2 })⟩

end Server

/-- Users, sessions, links and consultations of the rate limiter. -/
def guarded (s : ServerState A L) : A × L × List Bytes := (s.auth, s.links, s.consulted)

/-- The action changes no user, session or link and does not ask the rate limiter. -/
def Harmless (x : Server A L α) : Prop := Keeps guarded x

namespace Harmless

variable {β : Type} {x : Server A L α} {g : α → Server A L β}

theorem pure (a : α) : Harmless (pure a : Server A L α) := keeps_pure a

theorem throw (e : RepositoryException) : Harmless (throw e : Server A L α) := keeps_throw e

theorem bind (hx : Harmless x) (hg : ∀ a, Harmless (g a)) : Harmless (x >>= g) := keeps_bind hx hg

theorem tryCatch {h : RepositoryException → Server A L α} (hx : Harmless x)
    (hh : ∀ e, Harmless (h e)) : Harmless (tryCatch x h) := keeps_tryCatch hx hh

theorem nowEpochMilliseconds : Harmless (Server.nowEpochMilliseconds : Server A L ℤ) := fun _ => rfl

theorem nowEpochSeconds : Harmless (Server.nowEpochSeconds : Server A L ℤ) :=
  bind nowEpochMilliseconds fun _ => pure _

theorem randBytes (count : ℕ) : Harmless (Server.randBytes count : Server A L _) := fun _ => rfl

theorem record (metric : Metric) : Harmless (Server.record metric : Server A L Unit) :=
  keeps_modify fun _ => rfl

theorem publish (event : AccessEvent) : Harmless (Server.publish event : Server A L Unit) :=
  keeps_modify fun _ => rfl

theorem respond (f : HttpResponse → HttpResponse) :
    Harmless (Server.respond f : Server A L Unit) := keeps_modify fun _ => rfl

theorem setErrorResponse (statusCode : ℕ) (errorCode message : String) :
    Harmless (Server.setErrorResponse statusCode errorCode message : Server A L Unit) :=
  respond _

theorem addHeader (name : String) (value : Bytes) :
    Harmless (Server.addHeader name value : Server A L Unit) := respond _

theorem query {f : ServerState A L → Except RepositoryException α} :
    Harmless (Action.query f) := keeps_query f

theorem queryLinks (f : L → Except RepositoryException α) :
    Harmless (Server.queryLinks f : Server A L α) := query

theorem queryAuth (f : A → Except Exception α) : Harmless (Server.queryAuth f : Server A L α) :=
  query

end Harmless

end ServerStates
