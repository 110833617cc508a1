import HaoShortLink.ApiRoutes
import HaoShortLink.RouteTables

/-! The routes of this program as registrations in the four tables of Router. -/
namespace RegisteredRoutes

open Cpp Actions HttpRequests HttpResponses ServerStates ApiRoutes RouteTables
open Routers (Route)
open RedirectHandlers (handleRedirect)

variable {H : Type}

/-- The calls that a router was built by, in order. -/
inductive RegisteredBy : Routers.Router H → List (Registration H) → Prop where
  | empty : RegisteredBy .empty []
  | callback {router : Routers.Router H} {registrations : List (Registration H)}
      (method : Method) (path : String) (handler : H) :
      RegisteredBy router registrations →
      RegisteredBy (router.registerCallback method path handler)
        (registrations ++ [.callback ⟨method, ascii path⟩ handler])
  | regexCallback {router : Routers.Router H} {registrations : List (Registration H)}
      (method : Method) (path : String) (handler : H) :
      RegisteredBy router registrations →
      RegisteredBy (router.addRegexCallback method path handler)
        (registrations ++ [.regexCallback method (ascii path) handler])

/-- The two lists find what the registrations say, and no handler object is among these. -/
structure Agrees (router : Routers.Router H) (registrations : List (Registration H)) : Prop where
  handlers : ∀ key, registrations.reverse.findSome? (Registration.handlerFor key) = none
  callbacks : ∀ key, registrations.reverse.findSome? (Registration.callbackFor key) =
    (router.callbacks.find? fun r => r.method == key.method && r.path == key.path).map Route.handler
  regexHandlers : ∀ req, registrations.findSome? (Registration.regexHandlerFor req) = none
  regexCallbacks : ∀ req, registrations.findSome? (Registration.regexCallbackFor req) =
    router.regexCallbacks.findSome? (Routers.Router.matchRoute req)

theorem RegisteredBy.agrees {router : Routers.Router H} {registrations : List (Registration H)}
    (h : RegisteredBy router registrations) : Agrees router registrations := by
  induction h with
  | empty => exact ⟨fun _ => rfl, fun _ => rfl, fun _ => rfl, fun _ => rfl⟩
  | @callback router registrations method path handler _ ih =>
    refine ⟨?_, ?_, ?_, ?_⟩
    · intro key
      rw [findSome?_latest, ih.handlers]
      rfl
    · intro key
      rw [findSome?_latest, ih.callbacks, Routers.Router.registerCallback, List.find?_cons]
      by_cases hkey : (⟨method, ascii path⟩ : RouteKey) = key
      · subst hkey
        simp [Registration.callbackFor]
      · have hne : (method == key.method && ascii path == key.path) = false := by
          rw [Bool.and_eq_false_iff, beq_eq_false_iff_ne, beq_eq_false_iff_ne]
          by_contra hsame
          push Not at hsame
          exact hkey (by rw [hsame.1, hsame.2])
        simp [Registration.callbackFor, hkey, hne]
    · intro req
      rw [findSome?_snoc, ih.regexHandlers]
      rfl
    · intro req
      rw [findSome?_snoc, ih.regexCallbacks]
      simp [Registration.regexCallbackFor, Routers.Router.registerCallback]
  | @regexCallback router registrations method path handler _ ih =>
    refine ⟨?_, ?_, ?_, ?_⟩
    · intro key
      rw [findSome?_latest, ih.handlers]
      rfl
    · intro key
      rw [findSome?_latest, ih.callbacks]
      simp [Registration.callbackFor, Routers.Router.addRegexCallback]
    · intro req
      rw [findSome?_snoc, ih.regexHandlers]
      rfl
    · intro req
      rw [findSome?_snoc, ih.regexCallbacks, Routers.Router.addRegexCallback, findSome?_snoc]
      rfl

theorem Agrees.choose {router : Routers.Router H} {registrations : List (Registration H)}
    (h : Agrees router registrations) (req : HttpRequest) :
    choose registrations req = router.route req := by
  simp only [RouteTables.choose, h.handlers, h.callbacks, h.regexHandlers, h.regexCallbacks,
    Routers.Router.route]
  cases hfind : router.callbacks.find? fun r =>
      r.method == req.method && r.path == req.path with
  | none => simp
  | some found =>
    have hfound := List.find?_some hfind
    simp only [Bool.and_eq_true, beq_iff_eq] at hfound
    simp [hfound.2]

/-- Built by calls whose patterns have no special characters. -/
def Built (router : Routers.Router H) : Prop :=
  ∃ registrations, RegisteredBy router registrations ∧ ∀ r ∈ registrations, r.Plain

theorem built_empty : Built (.empty : Routers.Router H) :=
  ⟨[], .empty, fun _ h => absurd h List.not_mem_nil⟩

section

variable {router : Routers.Router H} {method : Method} {path : String} {handler : H}

theorem Built.registerCallback (h : Built router) :
    Built (router.registerCallback method path handler) := by
  obtain ⟨registrations, hby, hplain⟩ := h
  refine ⟨_, hby.callback method path handler, ?_⟩
  intro r hmem
  rcases List.mem_append.mp hmem with hmem | hmem
  · exact hplain r hmem
  · obtain rfl := List.mem_singleton.mp hmem
    trivial

theorem Built.addRegexCallback (h : Built router) (hpath : RoutePatterns.Plain (ascii path)) :
    Built (router.addRegexCallback method path handler) := by
  obtain ⟨registrations, hby, hplain⟩ := h
  refine ⟨_, hby.regexCallback method path handler, ?_⟩
  intro r hmem
  rcases List.mem_append.mp hmem with hmem | hmem
  · exact hplain r hmem
  · obtain rfl := List.mem_singleton.mp hmem
    exact hpath

end

variable {A L : Type}

theorem registered_built (api : ShortLinkHttpApi A L) : Built (registerShortLinkHttpApi api) := by
  have hhealth : Built (registerHealthRoutes api .empty) :=
    built_empty.registerCallback.registerCallback.registerCallback
  have hauth : Built (registerAuthRoutes api (registerHealthRoutes api .empty)) :=
    (hhealth.registerCallback.registerCallback.addRegexCallback (by decide)).registerCallback
  have hlinks : Built (registerLinkRoutes api (registerAuthRoutes api
      (registerHealthRoutes api .empty))) :=
    (hauth.registerCallback.registerCallback.addRegexCallback (by decide)).addRegexCallback
      (by decide)
  have hstatistics : Built (registerStatisticsRoute api (registerLinkRoutes api
      (registerAuthRoutes api (registerHealthRoutes api .empty)))) := by
    unfold registerStatisticsRoute
    split
    · exact hlinks.addRegexCallback (by decide)
    · exact hlinks
  have hredirect : Built ((registerStatisticsRoute api (registerLinkRoutes api
      (registerAuthRoutes api (registerHealthRoutes api .empty)))).addRegexCallback .get
      "/s/:code" (handleRedirect api)) := hstatistics.addRegexCallback (by decide)
  unfold registerShortLinkHttpApi registerMetricsRoute
  dsimp only
  split
  · exact hredirect.registerCallback
  · exact hredirect

/-- The registrations of this program succeed, and with the tables they leave Router::route goes
where the router of ApiRoutes goes. -/
theorem tables_route (api : ShortLinkHttpApi A L) :
    ∃ registrations table, RegisteredBy (registerShortLinkHttpApi api) registrations ∧
      registrations.foldlM Router.register Router.empty = some table ∧
      ∀ req (s : ServerState A L × Bytes), (table.route req).run s =
        match (registerShortLinkHttpApi api).route req with
        | some m => (Router.invoke m).run s
        | none => (.ok false, s) := by
  obtain ⟨registrations, hby, hplain⟩ := registered_built api
  obtain ⟨table, hbuild, hholds⟩ := build_holds hplain
  refine ⟨registrations, table, hby, hbuild, ?_⟩
  intro req s
  rw [route_run hholds, hby.agrees.choose]
  cases (registerShortLinkHttpApi api).route req <;> rfl

/-- HttpServer::handleRequest with the router's own tables. -/
def handleRequest (table : Router (Handler A L)) (request : HttpRequest) : Server A L Unit where
  run s :=
    match (table.route request).run (s, []) with
    | (.ok true, s', routePattern) =>
      (Server.respond fun r => { r with routePattern := routePattern }).run s'
    | (.ok false, s', _) =>
      (do
        Server.setErrorResponse 404 "not_found" "Not Found"
        Server.respond fun r =>
          { r with closeConnection := true, routePattern := ascii "unmatched" } :
        Server A L Unit).run s'
    | (.error e, s', routePattern) =>
      (do
        handleException e
        Server.respond fun r => { r with routePattern := routePattern } : Server A L Unit).run s'

/-- Whatever holds of the program's answers holds of those found through the tables. -/
theorem handleRequest_tables (api : ShortLinkHttpApi A L) :
    ∃ registrations table, RegisteredBy (registerShortLinkHttpApi api) registrations ∧
      registrations.foldlM Router.register Router.empty = some table ∧
      ∀ request s,
        (handleRequest table request).run s = (ApiRoutes.handleRequest api request).run s := by
  obtain ⟨registrations, table, hby, hbuild, hroute⟩ := tables_route api
  refine ⟨registrations, table, hby, hbuild, ?_⟩
  intro request s
  simp only [handleRequest, hroute, ApiRoutes.handleRequest]
  cases (registerShortLinkHttpApi api).route request with
  | none => rfl
  | some found =>
    simp only [Router.invoke, Action.run_bind, Action.run_tryCatch]
    rcases (found.handler found.request).run s with ⟨_ | _, s'⟩
    · rfl
    · rfl

end RegisteredRoutes
