import HaoShortLink.RedirectHandlers
import HaoShortLink.Routers
import HaoShortLink.StatisticsHandlers

/-! The routes of the API (registerShortLinkHttpApi) and HttpServer::handleRequest over them. No
middleware is installed. -/
namespace ApiRoutes

open Cpp Actions HttpRequests HttpResponses Routers ShortLinks ServerStates ServerStates.Server
open SameOriginPolicies AuthHttp ApiHandlers StatisticsHandlers RedirectHandlers

variable {A L : Type} (api : ShortLinkHttpApi A L)

abbrev Handler (A L : Type) := HttpRequest → Server A L Unit

def forUser (handler : HttpRequest → ℕ → Server A L Unit) : Handler A L := fun request => do
  match ← authenticate api request with
  | none => pure ()
  | some user => handler request user.id

def fromSameOrigin (handler : Handler A L) : Handler A L := fun request => do
  if ← requireSameOriginRequest request then handler request else pure ()

def handleMetrics : Handler A L := fun _ => do
  let metrics ← Action.read ServerState.metrics
  let httpMetrics ← Action.read ServerState.httpMetricsText
  let body := httpMetrics ++ api.renderPrometheus metrics
  respond fun r => (((r.setStatus 200 (ascii "OK")).setContentType
    (ascii "text/plain; version=0.0.4; charset=utf-8")).setContentLength body.length).setBody body

def registerAuthRoutes (router : Router (Handler A L)) : Router (Handler A L) :=
  (((router
    |>.registerCallback .post "/api/auth/register" (handleRegister api))
    |>.registerCallback .post "/api/auth/login" (handleLogin api))
    |>.addRegexCallback .delete "/api/auth/session" (handleLogout api))
    |>.registerCallback .get "/api/me" (handleMe api)

def registerHealthRoutes (router : Router (Handler A L)) : Router (Handler A L) :=
  ((router
    |>.registerCallback .get "/api/health" fun _ => handleHealth api)
    |>.registerCallback .get "/api/health/live" fun _ => handleHealth api)
    |>.registerCallback .get "/api/health/ready" fun _ => handleReadiness api

def registerLinkRoutes (router : Router (Handler A L)) : Router (Handler A L) :=
  (((router
    |>.registerCallback .post "/api/short-links"
      (fromSameOrigin (forUser api (handleCreate api))))
    |>.registerCallback .get "/api/short-links" (forUser api (handleList api)))
    |>.addRegexCallback .get "/api/short-links/:code" (forUser api (handleDetail api)))
    |>.addRegexCallback .put "/api/short-links/:code"
      (fromSameOrigin (forUser api (handleUpdate api)))

def registerStatisticsRoute (router : Router (Handler A L)) : Router (Handler A L) :=
  if api.hasStatistics then
    router.addRegexCallback .get "/api/short-links/:code/statistics"
      (forUser api (handleStatistics api))
  else router

def registerMetricsRoute (router : Router (Handler A L)) : Router (Handler A L) :=
  if api.config.metricsEnabled then router.registerCallback .get "/metrics" (handleMetrics api)
  else router

def registerShortLinkHttpApi : Router (Handler A L) :=
  let router := registerLinkRoutes api (registerAuthRoutes api (registerHealthRoutes api .empty))
  let router := registerStatisticsRoute api router
  registerMetricsRoute api (router.addRegexCallback .get "/s/:code" (handleRedirect api))

structure EachRoute (P : Route (Handler A L) → Prop) : Prop where
  health : P ⟨.get, ascii "/api/health", fun _ => handleHealth api⟩
  live : P ⟨.get, ascii "/api/health/live", fun _ => handleHealth api⟩
  ready : P ⟨.get, ascii "/api/health/ready", fun _ => handleReadiness api⟩
  register : P ⟨.post, ascii "/api/auth/register", handleRegister api⟩
  login : P ⟨.post, ascii "/api/auth/login", handleLogin api⟩
  logout : P ⟨.delete, ascii "/api/auth/session", handleLogout api⟩
  me : P ⟨.get, ascii "/api/me", handleMe api⟩
  create : P ⟨.post, ascii "/api/short-links", fromSameOrigin (forUser api (handleCreate api))⟩
  list : P ⟨.get, ascii "/api/short-links", forUser api (handleList api)⟩
  detail : P ⟨.get, ascii "/api/short-links/:code", forUser api (handleDetail api)⟩
  update : P ⟨.put, ascii "/api/short-links/:code",
    fromSameOrigin (forUser api (handleUpdate api))⟩
  statistics : P ⟨.get, ascii "/api/short-links/:code/statistics",
    forUser api (handleStatistics api)⟩
  redirect : P ⟨.get, ascii "/s/:code", handleRedirect api⟩
  metrics : P ⟨.get, ascii "/metrics", handleMetrics api⟩

theorem registered_every {P : Route (Handler A L) → Prop} (h : EachRoute api P) :
    (registerShortLinkHttpApi api).Every P := by
  have hhealth : (registerHealthRoutes api .empty).Every P :=
    ((Router.every_empty.registerCallback h.health).registerCallback h.live).registerCallback
      h.ready
  have hauth : (registerAuthRoutes api (registerHealthRoutes api .empty)).Every P :=
    (((hhealth.registerCallback h.register).registerCallback h.login).addRegexCallback
      h.logout).registerCallback h.me
  have hlinks : (registerLinkRoutes api (registerAuthRoutes api
      (registerHealthRoutes api .empty))).Every P :=
    (((hauth.registerCallback h.create).registerCallback h.list).addRegexCallback
      h.detail).addRegexCallback h.update
  have hstatistics : (registerStatisticsRoute api (registerLinkRoutes api (registerAuthRoutes api
      (registerHealthRoutes api .empty)))).Every P := by
    unfold registerStatisticsRoute
    split
    · exact hlinks.addRegexCallback h.statistics
    · exact hlinks
  have hredirect := hstatistics.addRegexCallback h.redirect
  unfold registerShortLinkHttpApi registerMetricsRoute
  dsimp only
  split
  · exact hredirect.registerCallback h.metrics
  · exact hredirect

theorem callbacks_eq : (registerShortLinkHttpApi api).callbacks =
    (if api.config.metricsEnabled then [⟨.get, ascii "/metrics", handleMetrics api⟩] else []) ++
    [⟨.get, ascii "/api/short-links", forUser api (handleList api)⟩,
      ⟨.post, ascii "/api/short-links", fromSameOrigin (forUser api (handleCreate api))⟩,
      ⟨.get, ascii "/api/me", handleMe api⟩,
      ⟨.post, ascii "/api/auth/login", handleLogin api⟩,
      ⟨.post, ascii "/api/auth/register", handleRegister api⟩,
      ⟨.get, ascii "/api/health/ready", fun _ => handleReadiness api⟩,
      ⟨.get, ascii "/api/health/live", fun _ => handleHealth api⟩,
      ⟨.get, ascii "/api/health", fun _ => handleHealth api⟩] := by
  unfold registerShortLinkHttpApi registerMetricsRoute registerStatisticsRoute
  dsimp only
  split <;> split <;> rfl

/-- The patterns in the order in which they are tried. -/
theorem regexCallbacks_eq : (registerShortLinkHttpApi api).regexCallbacks =
    [⟨.delete, ascii "/api/auth/session", handleLogout api⟩,
      ⟨.get, ascii "/api/short-links/:code", forUser api (handleDetail api)⟩,
      ⟨.put, ascii "/api/short-links/:code", fromSameOrigin (forUser api (handleUpdate api))⟩] ++
    (if api.hasStatistics then
      [⟨.get, ascii "/api/short-links/:code/statistics", forUser api (handleStatistics api)⟩]
    else []) ++ [⟨.get, ascii "/s/:code", handleRedirect api⟩] := by
  unfold registerShortLinkHttpApi registerMetricsRoute registerStatisticsRoute
  dsimp only
  split <;> split <;> rfl

theorem regexCallbacks_method {r : Route (Handler A L)}
    (h : r ∈ (registerShortLinkHttpApi api).regexCallbacks) : r.method ≠ .post := by
  rw [regexCallbacks_eq] at h
  simp only [List.mem_append, List.mem_cons, List.not_mem_nil, or_false] at h
  rcases h with ((rfl | rfl | rfl) | h) | rfl
  · simp
  · simp
  · simp
  · split at h
    · obtain rfl := List.mem_singleton.mp h
      simp
    · cases h
  · simp

theorem callbacks_elsewhere {start : Bytes}
    (hstart : start = ascii "/s/" ∨ start = ascii "/api/short-links/") (tail : Bytes)
    {route : Route (Handler A L)} (h : route ∈ (registerShortLinkHttpApi api).callbacks) :
    route.path ≠ start ++ tail := by
  have hpath : start.isPrefixOf route.path = false := by
    rw [callbacks_eq] at h
    simp only [List.mem_append, List.mem_cons, List.not_mem_nil, or_false] at h
    rcases hstart with rfl | rfl
    all_goals
      rcases h with h | rfl | rfl | rfl | rfl | rfl | rfl | rfl | rfl
      · split at h
        · obtain rfl := List.mem_singleton.mp h
          rfl
        · cases h
      all_goals rfl
  intro heq
  rw [heq, List.isPrefixOf_iff_prefix.mpr (List.prefix_append _ _)] at hpath
  cases hpath

theorem route_pattern {start tail : Bytes} {request : HttpRequest}
    (hstart : start = ascii "/s/" ∨ start = ascii "/api/short-links/")
    (hpath : request.path = start ++ tail) : (registerShortLinkHttpApi api).route request =
      (registerShortLinkHttpApi api).regexCallbacks.findSome? (Router.matchRoute request) := by
  have hexact : (registerShortLinkHttpApi api).callbacks.find?
      (fun r => r.method == request.method && r.path == request.path) = none := by
    rw [List.find?_eq_none]
    intro route hmem
    simp [hpath, callbacks_elsewhere api hstart tail hmem]
  rw [Router.route, hexact]

/-- Everything that is thrown here is a std::exception, but for foreign objects. -/
def handleException : RepositoryException → Server A L Unit
  | .std .foreign => throw (.std .foreign)
  | _ => setErrorResponse 500 "internal_server_error" "Internal Server Error"

def handleRequest (request : HttpRequest) : Server A L Unit :=
  match (registerShortLinkHttpApi api).route request with
  | none => do
    setErrorResponse 404 "not_found" "Not Found"
    respond fun r => { r with closeConnection := true, routePattern := ascii "unmatched" }
  | some found => do
    tryCatch (found.handler found.request) handleException
    respond fun r => { r with routePattern := found.pattern }

def stateAfter (request : HttpRequest) (s : ServerState A L) : ServerState A L :=
  ((handleRequest api request).run s).2

/-- The answer, or what escapes handleRequest. -/
def answer (request : HttpRequest) (s : ServerState A L) :
    Except RepositoryException HttpResponse :=
  match (handleRequest api request).run s with
  | (.ok (), s') => .ok s'.response
  | (.error e, _) => .error e

end ApiRoutes
