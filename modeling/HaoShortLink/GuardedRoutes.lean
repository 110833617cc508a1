import HaoShortLink.ApiRoutes

/-! Who may change what: the checks in front of every route that changes state. -/
namespace GuardedRoutes

open Cpp Actions HttpRequests Routers ShortLinks ServerStates SameOriginPolicies AuthHttp
open ApiHandlers StatisticsHandlers RedirectHandlers ApiRoutes

variable {A L : Type} (api : ShortLinkHttpApi A L)

/-- The routes that need a session before they change anything. -/
def NeedsSession (method : Method) (path : Bytes) : Prop :=
  method = .put ∨ method = .post ∧ path = ascii "/api/short-links"

instance (method : Method) (path : Bytes) : Decidable (NeedsSession method path) :=
  inferInstanceAs (Decidable (_ ∨ _ ∧ _))

/-- What a route promises: no harm for requests from another origin, for requests without a valid
session where one is needed, and for any GET. -/
structure Gated (route : Route (Handler A L)) : Prop where
  origin : ∀ request, isSameOriginRequest request = false → Harmless (route.handler request)
  session : NeedsSession route.method route.path → ∀ request s,
    sessionUser api request s = none → KeepsAt guarded (route.handler request) s
  get : route.method = .get → ∀ request, Harmless (route.handler request)

variable {api} {request : HttpRequest}

theorem Gated.of_harmless {method : Method} {path : String} {handler : Handler A L}
    (h : ∀ request, Harmless (handler request)) : Gated api ⟨method, ascii path, handler⟩ where
  origin request _ := h request
  session _ request s _ := h request s
  get _ := h

theorem forUser_keeps {handler : HttpRequest → ℕ → Server A L Unit} {s : ServerState A L}
    (h : sessionUser api request s = none) : KeepsAt guarded (forUser api handler request) s := by
  apply (authenticate_harmless api request s).bind
  intro user huser
  cases user with
  | none => exact Harmless.pure () _
  | some user =>
    have hsome := authenticate_some api huser
    rw [h] at hsome
    cases hsome

theorem forUser_harmless {handler : HttpRequest → ℕ → Server A L Unit}
    (h : ∀ request ownerId, Harmless (handler request ownerId)) (request : HttpRequest) :
    Harmless (forUser api handler request) := by
  refine .bind (authenticate_harmless api request) ?_
  intro user
  split
  · exact .pure _
  · exact h _ _

theorem Gated.of_guarded {path : String} {method : Method}
    {handler : HttpRequest → ℕ → Server A L Unit} (hmethod : method ≠ .get) :
    Gated api ⟨method, ascii path, fromSameOrigin (forUser api handler)⟩ where
  origin request h := harmless_of_cross_origin h _
  session _ request s h := by
    apply (requireSameOriginRequest_harmless request s).bind
    intro same _
    split
    · exact forUser_keeps ((requireSameOriginRequest_sessionUser api request s).trans h)
    · exact Harmless.pure () _
  get h := absurd h hmethod

/-- A handler for sessions: it begins with a header and the origin check. -/
theorem Gated.of_origin {method : Method} {path : String} {handler : Handler A L}
    (hmethod : method ≠ .get) (hsession : ¬ NeedsSession method (ascii path))
    (h : ∀ request, isSameOriginRequest request = false → Harmless (handler request)) :
    Gated api ⟨method, ascii path, handler⟩ where
  origin := h
  session hneeds := absurd hneeds hsession
  get hget := absurd hget hmethod

theorem handleRegister_origin (h : isSameOriginRequest request = false) :
    Harmless (handleRegister api request) :=
  .bind (.addHeader _ _) fun _ => harmless_of_cross_origin h _

theorem handleLogin_origin (h : isSameOriginRequest request = false) :
    Harmless (handleLogin api request) :=
  .bind (.addHeader _ _) fun _ => harmless_of_cross_origin h _

theorem handleLogout_origin (h : isSameOriginRequest request = false) :
    Harmless (handleLogout api request) :=
  .bind (.addHeader _ _) fun _ => harmless_of_cross_origin h _

theorem handleMetrics_harmless (request : HttpRequest) : Harmless (handleMetrics api request) :=
  .bind .query fun _ => .bind .query fun _ => .respond _

theorem routes_gated : EachRoute api (Gated api) where
  health := .of_harmless fun _ => handleHealth_harmless api
  live := .of_harmless fun _ => handleHealth_harmless api
  ready := .of_harmless fun _ => handleReadiness_harmless api
  register := .of_origin (by decide) (by decide) fun _ => handleRegister_origin
  login := .of_origin (by decide) (by decide) fun _ => handleLogin_origin
  logout := .of_origin (by decide) (by decide) fun _ => handleLogout_origin
  me := .of_harmless (handleMe_harmless api)
  create := .of_guarded (by decide)
  list := .of_harmless (forUser_harmless (handleList_harmless api))
  detail := .of_harmless (forUser_harmless (handleDetail_harmless api))
  update := .of_guarded (by decide)
  statistics := .of_harmless (forUser_harmless (handleStatistics_harmless api))
  redirect := .of_harmless (handleRedirect_harmless api)
  metrics := .of_harmless handleMetrics_harmless

theorem handleException_harmless (e : RepositoryException) :
    Harmless (handleException e : Server A L Unit) := by
  unfold handleException
  split
  · exact .throw _
  · exact .setErrorResponse _ _ _

/-- What a request may not change, whatever route it takes. -/
theorem handleRequest_keeps {s : ServerState A L}
    (h : ∀ route, Gated api route → route.method = request.method →
      (route.path = request.path ∨ route.method ≠ .post) →
      ∀ parameters, KeepsAt guarded
        (route.handler { request with pathParameters := parameters }) s) :
    KeepsAt guarded (handleRequest api request) s := by
  unfold handleRequest
  cases hroute : (registerShortLinkHttpApi api).route request with
  | none => exact Harmless.bind (.setErrorResponse _ _ _) (fun _ => .respond _) s
  | some found =>
    have hhandler : KeepsAt guarded (found.handler found.request) s := by
      cases Router.route_answers hroute with
      | @exact route hmem hmethod hpath =>
        exact h route ((registered_every api routes_gated).1 route hmem) hmethod (.inl hpath)
          request.pathParameters
      | @pattern route values hmem hmethod hmatch =>
        obtain ⟨parameters, hrest⟩ := extractPathParameters_rest values request
        rw [hrest]
        exact h route ((registered_every api routes_gated).2 route hmem) hmethod
          (.inr (regexCallbacks_method api hmem)) parameters
    exact (hhandler.tryCatch handleException_harmless).bind fun _ _ => Harmless.respond _ _

/-- Requests from another origin change nothing and do not ask the rate limiter; without a valid
session no link is created or changed and the limiter is not asked; GET requests change neither
users nor sessions nor links. -/
theorem state_changes_are_gated (api : ShortLinkHttpApi A L) (request : HttpRequest)
    (s : ServerState A L) :
    (isSameOriginRequest request = false →
      (stateAfter api request s).auth = s.auth ∧ (stateAfter api request s).links = s.links ∧
        (stateAfter api request s).consulted = s.consulted) ∧
    (sessionUser api request s = none → NeedsSession request.method request.path →
      (stateAfter api request s).links = s.links ∧
        (stateAfter api request s).consulted = s.consulted) ∧
    (request.method = .get →
      (stateAfter api request s).auth = s.auth ∧ (stateAfter api request s).links = s.links) := by
  have hparts : KeepsAt guarded (handleRequest api request) s →
      (stateAfter api request s).auth = s.auth ∧ (stateAfter api request s).links = s.links ∧
        (stateAfter api request s).consulted = s.consulted := by
    intro h
    simpa [KeepsAt, guarded, stateAfter] using h
  refine ⟨fun horigin => hparts ?_, fun hsession hneeds => (hparts ?_).2, fun hget => ?_⟩
  · exact handleRequest_keeps fun route hgated _ _ parameters =>
      hgated.origin { request with pathParameters := parameters } horigin s
  · apply handleRequest_keeps
    intro route hgated hmethod hpath _
    refine hgated.session ?_ _ s hsession
    rcases hneeds with hput | ⟨hpost, hlinks⟩
    · exact .inl (hmethod.trans hput)
    · exact .inr ⟨hmethod.trans hpost,
        (hpath.resolve_right fun hne => hne (hmethod.trans hpost)).trans hlinks⟩
  · obtain ⟨hauth, hlinks, -⟩ := hparts (handleRequest_keeps fun route hgated hmethod _ _ =>
      hgated.get (hmethod.trans hget) _ s)
    exact ⟨hauth, hlinks⟩

end GuardedRoutes
