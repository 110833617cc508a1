import HaoShortLink.ApiRoutes

/-! The Content-Length that the answers of the API declare. -/
namespace ContentLengths

open Cpp Actions HttpRequests HttpResponses Routers ShortLinks ServerStates ServerStates.Server
open SameOriginPolicies AuthServices AuthHttp ApiHandlers StatisticsHandlers RedirectHandlers
open ApiRoutes
open JsonValues (Json)

/-- The header tells the length of the body. -/
def Declared (r : HttpResponse) : Prop :=
  r.headers.find? (ascii "Content-Length") = some (toDecimal r.body.length)

theorem declared_setBody (r : HttpResponse) (body : Bytes) :
    Declared ((r.setContentLength body.length).setBody body) := by
  rw [Declared, HttpResponse.setBody, HttpResponse.setContentLength, HttpResponse.addHeader]
  exact (OrderedMaps.OrderedMap.find?_insert _ _ _ _).trans (if_pos rfl)

theorem declared_setJsonBody (r : HttpResponse) (body : Bytes) : Declared (r.setJsonBody body) :=
  declared_setBody _ body

theorem declared_setErrorResponse (r : HttpResponse) (statusCode : ℕ) (errorCode message : Bytes) :
    Declared (r.setErrorResponse statusCode errorCode message) := declared_setJsonBody _ _

theorem declared_setRedirect (r : HttpResponse) (location : Bytes) :
    Declared (r.setRedirect location) := declared_setBody _ []

variable {A L α β : Type}

/-- Where the action returns a result of this kind, it has set a response. -/
def DeclaresWhen (answered : α → Prop) (x : Server A L α) : Prop :=
  ∀ s, Ends (fun a s' => answered a → Declared s'.response) x s

def Declares (x : Server A L α) : Prop := DeclaresWhen (fun _ => True) x

namespace Declares

variable {x : Server A L α} {g : α → Server A L β} {answered : α → Prop}

theorem respond {f : HttpResponse → HttpResponse} (h : ∀ r, Declared (f r)) :
    Declares (Server.respond f : Server A L Unit) := by
  intro s _ s' hrun _
  obtain ⟨-, rfl⟩ := Prod.mk.inj hrun
  exact h s.response

theorem setErrorResponse (statusCode : ℕ) (errorCode message : String) :
    Declares (Server.setErrorResponse statusCode errorCode message : Server A L Unit) :=
  respond fun r => declared_setErrorResponse r _ _ _

theorem throw (e : RepositoryException) : Declares (throw e : Server A L α) :=
  fun _ => Ends.throw e

theorem bind (hg : ∀ a, Declares (g a)) : Declares (x >>= g) :=
  fun _ => Ends.bind fun a s' _ => hg a s'

theorem tryCatch {h : RepositoryException → Server A L α} (hx : Declares x)
    (hh : ∀ e, Declares (h e)) : Declares (tryCatch x h) :=
  fun s => (hx s).tryCatch hh

theorem check (hx : DeclaresWhen answered x)
    (hstop : ∀ a, answered a → Keeps ServerState.response (g a))
    (hgo : ∀ a, ¬answered a → Declares (g a)) : Declares (x >>= g) := by
  intro s
  refine Ends.bind ?_
  intro a s' hrun b s'' hnext _
  by_cases ha : answered a
  · have hkept : ((g a).run s').2.response = s'.response := hstop a ha s'
    rw [hnext] at hkept
    rw [hkept]
    exact hx s a s' hrun ha
  · exact hgo a ha s' b s'' hnext trivial

theorem andThen (hx : Declares x) (hg : ∀ a, Keeps ServerState.response (g a)) :
    Declares (x >>= g) :=
  check hx (fun a _ => hg a) fun _ h => absurd trivial h

end Declares

theorem record_keeps (metric : Metric) :
    Keeps ServerState.response (record metric : Server A L Unit) := keeps_modify fun _ => rfl

variable (api : ShortLinkHttpApi A L)

theorem requireSameOriginRequest_declares (request : HttpRequest) :
    DeclaresWhen (· = false) (requireSameOriginRequest request : Server A L Bool) := by
  intro s
  refine Ends.bind ?_
  intro _ s' _
  split
  · exact Ends.pure (by simp)
  · refine Ends.bind ?_
    intro _ s'' hrun
    exact Ends.pure fun _ => Declares.setErrorResponse _ _ _ s' _ s'' hrun trivial

theorem requireAuthenticatedUser_declares (request : HttpRequest) :
    DeclaresWhen (· = none) (requireAuthenticatedUser api request) := by
  intro s
  refine Ends.bind ?_
  intro user s' _
  cases user with
  | some user => exact Ends.pure (by simp)
  | none =>
    refine Ends.bind ?_
    intro _ s'' _
    refine Ends.bind ?_
    intro _ s''' hrun
    exact Ends.pure fun _ => Declares.setErrorResponse _ _ _ s'' _ s''' hrun trivial

theorem authenticate_declares (request : HttpRequest) :
    DeclaresWhen (· = none) (authenticate api request) := by
  intro s
  refine Ends.bind ((requireAuthenticatedUser_declares api request s).mono ?_)
  intro user s' hdeclared
  cases user with
  | none => exact Ends.pure fun _ => hdeclared rfl
  | some user =>
    refine Ends.bind ?_
    intro _ s'' _
    exact Ends.pure (by simp)

theorem passRateLimiter_declares : DeclaresWhen (· = false) (passRateLimiter api) := by
  intro s
  unfold passRateLimiter
  split
  · refine Ends.bind ?_
    intro result s' _
    refine Ends.bind ?_
    intro _ s'' _
    split
    · exact Ends.pure (by simp)
    · refine Ends.bind ?_
      intro _ t _
      refine Ends.bind ?_
      intro _ t' hrun
      have hdeclared := Declares.setErrorResponse _ _ _ t _ t' hrun trivial
      refine Ends.bind ?_
      intro _ t'' hrun'
      obtain ⟨-, rfl⟩ := Prod.mk.inj hrun'
      -- Only the status text is set after the error.
      exact Ends.pure fun _ => hdeclared
    · refine Ends.bind ?_
      intro _ t _
      exact Ends.pure (by simp)
  · exact Ends.pure (by simp)

theorem fromSameOrigin_declares {handler : Handler A L} {request : HttpRequest}
    (h : Declares (handler request)) : Declares (fromSameOrigin handler request) := by
  refine .check (requireSameOriginRequest_declares request) ?_ ?_
  · rintro _ rfl
    exact keeps_pure _
  · intro same hsame
    rw [if_pos (Bool.eq_true_of_not_eq_false hsame)]
    exact h

theorem forUser_declares {handler : HttpRequest → ℕ → Server A L Unit} {request : HttpRequest}
    (h : ∀ ownerId, Declares (handler request ownerId)) :
    Declares (forUser api handler request) := by
  refine .check (authenticate_declares api request) ?_ ?_
  · rintro _ rfl
    exact keeps_pure _
  · intro user huser
    cases user with
    | none => exact absurd rfl huser
    | some user => exact h user.id

theorem setJson_declares (status : ℕ) (message : String) (body : Json) :
    Declares (setJson api status message body) := by
  refine .bind ?_
  intro _
  split
  · exact .respond fun r => declared_setJsonBody r _
  · exact .throw _

theorem refuse_declares (e : FieldError) : Declares (refuse e : Server A L Unit) :=
  .setErrorResponse _ _ _

theorem notFound_declares : Declares (notFound : Server A L Unit) := .setErrorResponse _ _ _

theorem handleReadiness_declares : Declares (handleReadiness api) := by
  refine .bind ?_
  intro healthy
  split <;> exact setJson_declares api _ _ _

theorem respondWithSession_declares (session : AuthenticatedSession) (status : ℕ)
    (statusMessage : String) : Declares (respondWithSession api session status statusMessage) :=
  .bind fun _ => .respond fun _ => declared_setJsonBody _ _

theorem answerRegistration_declares (result : Result) :
    Declares (answerRegistration api result) := by
  unfold answerRegistration
  split
  · exact respondWithSession_declares api _ _ _
  all_goals exact .setErrorResponse _ _ _

theorem handleRegister_declares (request : HttpRequest) :
    Declares (handleRegister api request) := by
  refine .bind fun _ => .check (requireSameOriginRequest_declares request) ?_ ?_
  · rintro _ rfl
    exact keeps_pure _
  · intro same hsame
    rw [if_pos (Bool.eq_true_of_not_eq_false hsame)]
    split
    · exact .setErrorResponse _ _ _
    · split
      · exact .setErrorResponse _ _ _
      · exact .bind fun result => answerRegistration_declares api result

theorem answerLogin_declares (result : Result) : Declares (answerLogin api result) := by
  unfold answerLogin
  split
  · exact respondWithSession_declares api _ _ _
  all_goals exact .setErrorResponse _ _ _

theorem handleLogin_declares (request : HttpRequest) : Declares (handleLogin api request) := by
  refine .bind fun _ => .check (requireSameOriginRequest_declares request) ?_ ?_
  · rintro _ rfl
    exact keeps_pure _
  · intro same hsame
    rw [if_pos (Bool.eq_true_of_not_eq_false hsame)]
    split
    · exact .setErrorResponse _ _ _
    · exact .bind fun result => answerLogin_declares api result

theorem handleLogout_declares (request : HttpRequest) : Declares (handleLogout api request) := by
  refine .bind fun _ => .check (requireSameOriginRequest_declares request) ?_ ?_
  · rintro _ rfl
    exact keeps_pure _
  · intro same hsame
    rw [if_pos (Bool.eq_true_of_not_eq_false hsame)]
    exact .bind fun _ => .bind fun _ => .respond fun r => declared_setBody _ []

theorem handleMe_declares (request : HttpRequest) : Declares (handleMe api request) := by
  refine .check (requireAuthenticatedUser_declares api request) ?_ ?_
  · rintro _ rfl
    exact keeps_pure _
  · intro user huser
    cases user with
    | none => exact absurd rfl huser
    | some user => exact .bind fun _ => .respond fun r => declared_setJsonBody _ _

theorem performCreate_declares (create : CreateRequest) (ownerId : ℕ) :
    Declares (performCreate api create ownerId) := by
  refine .tryCatch (.bind ?_) ?_
  · intro created
    split
    · exact .bind fun _ => refuse_declares _
    · exact .andThen (setJson_declares api _ _ _) fun _ => record_keeps _
  · intro e
    split
    · exact .bind fun _ => .setErrorResponse _ _ _
    · exact .bind fun _ => .throw _

theorem handleCreate_declares (request : HttpRequest) (ownerId : ℕ) :
    Declares (handleCreate api request ownerId) := by
  refine .check (passRateLimiter_declares api) ?_ ?_
  · rintro _ rfl
    exact keeps_pure _
  · intro passed hpassed
    rw [if_pos (Bool.eq_true_of_not_eq_false hpassed)]
    refine .bind ?_
    intro create
    split
    · exact .bind fun _ => refuse_declares _
    · exact performCreate_declares api _ ownerId

theorem handleDetail_declares (request : HttpRequest) (ownerId : ℕ) :
    Declares (handleDetail api request ownerId) := by
  refine .bind ?_
  intro record
  split
  · exact notFound_declares
  · exact setJson_declares api _ _ _

theorem handleList_declares (request : HttpRequest) (ownerId : ℕ) :
    Declares (handleList api request ownerId) := by
  unfold handleList
  split
  · exact refuse_declares _
  · exact .bind fun _ => setJson_declares api _ _ _

theorem handleUpdate_declares (request : HttpRequest) (ownerId : ℕ) :
    Declares (handleUpdate api request ownerId) := by
  unfold handleUpdate
  split
  · exact refuse_declares _
  · refine .bind ?_
    intro record
    split
    · exact notFound_declares
    · exact setJson_declares api _ _ _

theorem handleStatistics_declares (request : HttpRequest) (ownerId : ℕ) :
    Declares (handleStatistics api request ownerId) := by
  refine .bind ?_
  intro record
  split
  · exact notFound_declares
  · refine .bind ?_
    intro query
    split
    · exact refuse_declares _
    · refine .bind ?_
      intro snapshot
      split
      · exact notFound_declares
      · exact setJson_declares api _ _ _

theorem declared_redirectOrNotFound (r : HttpResponse) (originalUrl : Option Bytes) :
    Declared (redirectOrNotFound r originalUrl) := by
  cases originalUrl with
  | none => exact declared_setErrorResponse r _ _ _
  | some location => exact declared_setRedirect r location

theorem handleRedirect_declares (request : HttpRequest) :
    Declares (handleRedirect api request) := by
  refine .bind ?_
  intro result
  refine .bind ?_
  intro _
  split <;> exact .respond fun r => declared_redirectOrNotFound r _

theorem handleMetrics_declares (request : HttpRequest) : Declares (handleMetrics api request) :=
  .bind fun _ => .bind fun _ => .respond fun _ => declared_setBody _ _

theorem routes_declare :
    EachRoute api fun route => ∀ request, Declares (route.handler request) where
  health _ := setJson_declares api _ _ _
  live _ := setJson_declares api _ _ _
  ready _ := handleReadiness_declares api
  register := handleRegister_declares api
  login := handleLogin_declares api
  logout := handleLogout_declares api
  me := handleMe_declares api
  create request :=
    fromSameOrigin_declares (forUser_declares api (handleCreate_declares api request))
  list request := forUser_declares api (handleList_declares api request)
  detail request := forUser_declares api (handleDetail_declares api request)
  update request :=
    fromSameOrigin_declares (forUser_declares api (handleUpdate_declares api request))
  statistics request := forUser_declares api (handleStatistics_declares api request)
  redirect := handleRedirect_declares api
  metrics := handleMetrics_declares api

theorem handleException_declares (e : RepositoryException) :
    Declares (handleException e : Server A L Unit) := by
  unfold handleException
  split
  · exact .throw _
  · exact .setErrorResponse _ _ _

theorem handleRequest_declares (request : HttpRequest) : Declares (handleRequest api request) := by
  unfold handleRequest
  cases hroute : (registerShortLinkHttpApi api).route request with
  | none =>
    -- The route pattern and the connection are set after the error.
    refine fun s => Ends.bind ?_
    intro _ s' hrun _ s'' hnext _
    obtain ⟨-, rfl⟩ := Prod.mk.inj hnext
    exact Declares.setErrorResponse _ _ _ s _ s' hrun trivial
  | some found =>
    have hhandler : Declares (found.handler found.request) := by
      cases Router.route_answers hroute with
      | exact hmem _ _ => exact (registered_every api (routes_declare api)).1 _ hmem _
      | pattern hmem _ _ => exact (registered_every api (routes_declare api)).2 _ hmem _
    refine fun s => Ends.bind ?_
    intro _ s' hrun _ s'' hnext _
    obtain ⟨-, rfl⟩ := Prod.mk.inj hnext
    exact (hhandler.tryCatch handleException_declares) s _ s' hrun trivial

theorem handleException_error {e e' : RepositoryException} {s s' : ServerState A L}
    (h : (handleException e).run s = (.error e', s')) : e' = .std .foreign := by
  cases e with
  | shortCodeConflict => cases h
  | std e =>
    cases e with
    | foreign => exact (Except.error.inj (Prod.mk.inj h).1).symm
    | _ => cases h

/-- Only what is no std::exception escapes. -/
theorem handleRequest_error {request : HttpRequest} {s s' : ServerState A L}
    {e : RepositoryException} (h : (handleRequest api request).run s = (.error e, s')) :
    e = .std .foreign := by
  unfold handleRequest at h
  cases hroute : (registerShortLinkHttpApi api).route request with
  | none =>
    rw [hroute] at h
    cases h
  | some found =>
    simp only [hroute, Action.run_bind, Action.run_tryCatch] at h
    rcases hrun : (found.handler found.request).run s with ⟨e₁ | a, s₁⟩
    · rcases hcaught : (handleException e₁).run s₁ with ⟨e₂ | a, s₂⟩
      · simp only [hrun, hcaught] at h
        rw [← Except.error.inj (Prod.mk.inj h).1]
        exact handleException_error hcaught
      · simp only [hrun, hcaught] at h
        cases h
    · simp only [hrun] at h
      cases h

/-- Whatever the services do, every answer declares the length of its body; there is no answer only
when what is thrown is no std::exception. -/
theorem answer_declared (request : HttpRequest) (s : ServerState A L) :
    match answer api request s with
    | .ok response => Declared response
    | .error e => e = .std .foreign := by
  rw [answer]
  rcases hrun : (handleRequest api request).run s with ⟨e | a, s'⟩
  · exact handleRequest_error api hrun
  · exact handleRequest_declares api request s a s' hrun trivial

end ContentLengths
