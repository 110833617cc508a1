import HaoShortLink.HttpServers
import HaoShortLink.LifecycleRedirects

/-! The access event of a redirect beside the response that is sent, over any repository. -/
namespace RedirectEvents

open Cpp Actions HttpRequests HttpResponses RequestIds Routers ShortLinks ServerStates
open ServerStates.Server ShortLinkServices RedirectHandlers ApiRoutes AccessEvents HttpServers
open LifecycleRedirects (linkPath route_linkPath)
open JsonValues (JsonLibrary)

variable {A L : Type} (api : ShortLinkHttpApi A L)

/-- HttpServer::onRequest with the API for its callback. -/
def onRequest (processNonce next : ℕ) (request : HttpRequest) : Server A L HttpResponse := do
  let requestId := chooseRequestId (request.getHeader (ascii "X-Request-ID")) processNonce next
  let observed := { request with requestId := requestId }
  respond fun _ => { closeConnection := HttpServer.closeRequested observed }
  handleRequest api observed
  respond fun r => r.addHeader (ascii "X-Request-ID") requestId
  Action.read ServerState.response

/-- What the event says of a lookup, at the time the service reads. -/
def impliedResult (now : ℤ) : Except RepositoryException LookupResult → AccessEventResult
  | .error _ => .error
  | .ok lookup =>
    match lookup.record with
    | none => .notFound
    | some link =>
      if link.status = .disabled then .disabled
      else if isExpired link now then .expired
      else .success

variable {api} {s s' : ServerState A L} {code : Bytes} {request : HttpRequest}

theorem onRequest_server {server : HttpServer} {n : ℕ} {response : HttpResponse}
    (hserver : ∀ request response r, answer api request { s with response := response } = .ok r →
      server.handleRequest n request response = r)
    (h : (onRequest api server.processNonce (server.requestSequence n) request).run s =
      (.ok response, s')) : server.onRequest n request = response := by
  let requestId := chooseRequestId (request.getHeader (ascii "X-Request-ID")) server.processNonce
    (server.requestSequence n)
  let observed := { request with requestId := requestId }
  let s₀ := { s with response := { closeConnection := HttpServer.closeRequested observed } }
  have hstart : (respond fun _ => s₀.response : Server A L Unit).run s = (.ok (), s₀) := rfl
  rw [onRequest, Action.run_bind_ok hstart, Action.run_bind] at h
  rcases hrun : (handleRequest api observed).run s₀ with ⟨e | _, s₁⟩
  · rw [hrun] at h
    cases h
  · rw [hrun] at h
    obtain rfl := Except.ok.inj (Prod.mk.inj h).1
    have hanswer : answer api observed s₀ = .ok s₁.response := by
      rw [answer, hrun]
    exact congrArg (fun r => r.addHeader (ascii "X-Request-ID") requestId) (hserver _ _ _ hanswer)

/-- Nothing is published, the response is as it was, and the clock only goes on. -/
structure Quiet (s s' : ServerState A L) : Prop where
  published : s'.published = s.published
  response : s'.response = s.response
  clock : (∀ n, 0 < s.clock n) → ∀ n, 0 < s'.clock n

theorem resolve_throws {e : RepositoryException}
    (h : api.linkRepository.findByCode code s.links = .error e) :
    ∃ s', (resolve api code).run s = (.error e, s') ∧ Quiet s s' := by
  have hquery : (queryLinks (api.linkRepository.findByCode code) : Server A L _).run s =
      (.error e, s) := by
    rw [← h]
    rfl
  simp only [resolve, Action.run_bind, Action.run_tryCatch, hquery]
  exact ⟨_, rfl, rfl, rfl, id⟩

theorem resolve_returns {lookup : LookupResult}
    (h : api.linkRepository.findByCode code s.links = .ok lookup) :
    Returns (fun r s' =>
      (eventResult r.status).1 = impliedResult ((s.clock 0).tdiv 1000) (.ok lookup) ∧
      (r.status = .success → r.originalUrl.isSome) ∧ Quiet s s') (resolve api code) s := by
  have hquery : (queryLinks (api.linkRepository.findByCode code) : Server A L _).run s =
      (.ok lookup, s) := by
    rw [← h]
    rfl
  have hclock (hpositive : ∀ n, 0 < s.clock n) (n : ℕ) : 0 < s.clock (n + 1) := hpositive _
  obtain ⟨found, source⟩ := lookup
  apply Returns.bind
  refine ⟨_, _, Action.run_tryCatch_ok hquery _, ?_⟩
  cases found with
  | none => exact ⟨⟨.notFound, none⟩, _, rfl, rfl, by simp, rfl, rfl, id⟩
  | some link =>
    by_cases hdisabled : link.status = .disabled
    · simp only [impliedResult, if_pos hdisabled]
      exact ⟨⟨.disabled, none⟩, _, rfl, rfl, by simp, rfl, rfl, id⟩
    · simp only [impliedResult, if_neg hdisabled]
      apply Returns.bind
      refine ⟨(s.clock 0).tdiv 1000, _, rfl, ?_⟩
      by_cases hexpired : isExpired link ((s.clock 0).tdiv 1000)
      · simp only [if_pos hexpired]
        exact ⟨⟨.expired, none⟩, _, rfl, rfl, by simp, rfl, rfl, hclock⟩
      · simp only [if_neg hexpired]
        exact ⟨⟨.success, some link.originalUrl⟩, _, rfl, rfl, by simp, rfl, rfl, hclock⟩

/-- One event is published, with an id of its own, the time and the status for its result. -/
def Publishes (request : HttpRequest) (code : Bytes) (result : AccessEventResult)
    (s s' : ServerState A L) : Prop :=
  ∃ eventId occurredAtMs, isLowercaseHex eventId ∧
    ((∀ n, 0 < s.clock n) → 0 < occurredAtMs) ∧
    s'.published = s.published ++
      [⟨eventId, occurredAtMs, request.requestId, code, result, expectedHttpStatus result⟩]

theorem hexDigit_lowercase (n : ℕ) :
    (isDigit (hexDigit n) || (97 ≤ hexDigit n && hexDigit n ≤ 102)) = true := by
  have hall : ∀ i < 16, (isDigit ((ascii "0123456789abcdef").getD i 48) ||
      (97 ≤ (ascii "0123456789abcdef").getD i 48 &&
        (ascii "0123456789abcdef").getD i 48 ≤ 102)) = true := by decide
  exact hall _ (Nat.mod_lt _ (by decide))

theorem isLowercaseHex_id (nonce next : ℕ) : isLowercaseHex (hex16 nonce ++ hex16 next) := by
  rw [isLowercaseHex, Bool.and_eq_true, List.all_eq_true]
  constructor
  · simp [hex16, kEventIdLength]
  · intro c hc
    rcases List.mem_append.mp hc with hc | hc
    · obtain ⟨i, _, rfl⟩ := List.mem_map.mp hc
      exact hexDigit_lowercase _
    · obtain ⟨i, _, rfl⟩ := List.mem_map.mp hc
      exact hexDigit_lowercase _

variable (api) in
theorem publishAccessEvent_run {result : AccessEventResult} {httpStatus : ℤ}
    (hstatus : httpStatus = expectedHttpStatus result) (request : HttpRequest) (code : Bytes)
    {s₁ : ServerState A L} (h : Quiet s s₁) :
    ∃ s', (publishAccessEvent api request code result httpStatus).run s₁ = (.ok (), s') ∧
      Publishes request code result s s' ∧ s'.response = s.response := by
  subst hstatus
  let eventId := hex16 api.eventNonce ++ hex16 ((s₁.eventSequence + 1) % 2 ^ 64)
  exact ⟨_, rfl, ⟨eventId, s₁.clock 0, isLowercaseHex_id _ _, fun hclock => h.clock hclock 0,
    congrArg (· ++ _) h.published⟩, h.response⟩

theorem eventResult_status (status : RedirectStatus) :
    (eventResult status).2 = expectedHttpStatus (eventResult status).1 := by
  cases status <;> rfl

theorem handleRedirect_throws {e : RepositoryException}
    (hcode : request.getPathParameters (ascii "param1") = code)
    (h : api.linkRepository.findByCode code s.links = .error e) :
    ∃ s', (handleRedirect api request).run s = (.error e, s') ∧
      Publishes request code .error s s' := by
  obtain ⟨s₁, hresolve, hquiet⟩ := resolve_throws h
  have hstatus : (500 : ℤ) = expectedHttpStatus .error := rfl
  obtain ⟨s', hpublish, hpublishes, _⟩ := publishAccessEvent_run api hstatus request code hquiet
  refine ⟨s', ?_, hpublishes⟩
  simp only [handleRedirect, hcode, Action.run_bind, Action.run_tryCatch, hresolve, hpublish]
  rfl

/-- The answer has the status that the event tells. -/
theorem handleRedirect_returns {lookup : LookupResult}
    (hcode : request.getPathParameters (ascii "param1") = code)
    (h : api.linkRepository.findByCode code s.links = .ok lookup) :
    Returns (fun _ s' => Publishes request code
        (impliedResult ((s.clock 0).tdiv 1000) (.ok lookup)) s s' ∧
      s'.response.statusCode = expectedHttpStatus
        (impliedResult ((s.clock 0).tdiv 1000) (.ok lookup))) (handleRedirect api request) s := by
  obtain ⟨redirect, s₁, hresolve, himplied, hurl, hquiet⟩ := resolve_returns h
  obtain ⟨s₂, hpublish, hpublishes, hresponse⟩ :=
    publishAccessEvent_run api (eventResult_status redirect.status) request code hquiet
  rw [himplied] at hpublishes
  rw [handleRedirect, hcode]
  apply Returns.bind
  refine ⟨_, _, Action.run_tryCatch_ok hresolve _, ?_⟩
  apply Returns.bind
  refine ⟨_, _, hpublish, ?_⟩
  rw [← himplied] at hpublishes ⊢
  by_cases hsuccess : redirect.status = .success
  · obtain ⟨url, hurl⟩ := Option.isSome_iff_exists.mp (hurl hsuccess)
    rw [if_neg (not_not.mpr hsuccess), hurl]
    refine ⟨_, _, rfl, hpublishes, ?_⟩
    rw [hsuccess]
    rfl
  · rw [if_pos hsuccess]
    refine ⟨_, _, rfl, hpublishes, ?_⟩
    cases hstatus : redirect.status with
    | success => exact absurd hstatus hsuccess
    | _ => rfl

theorem handleException_run {e : RepositoryException} (h : e ≠ .std .foreign)
    (s : ServerState A L) : ∃ s', (handleException e).run s = (.ok (), s') ∧
      s'.published = s.published ∧ s'.response.statusCode = 500 := by
  cases e with
  | shortCodeConflict => exact ⟨_, rfl, rfl, rfl⟩
  | std e =>
    cases e with
    | foreign => exact absurd rfl h
    | _ => exact ⟨_, rfl, rfl, rfl⟩

theorem handleRequest_returns (hmethod : request.method = .get)
    (hpath : request.path = linkPath code)
    (hcode : IsSegment code)
    (hstd : api.linkRepository.findByCode code s.links ≠ .error (.std .foreign)) :
    Returns (fun _ s' => Publishes request code
        (impliedResult ((s.clock 0).tdiv 1000) (api.linkRepository.findByCode code s.links)) s s' ∧
      s'.response.statusCode = expectedHttpStatus
        (impliedResult ((s.clock 0).tdiv 1000) (api.linkRepository.findByCode code s.links)))
      (handleRequest api request) s := by
  have hroute := route_linkPath api hmethod hpath
  rw [if_pos hcode] at hroute
  have hparameter : (request.setPathParameters (ascii "param1") code).getPathParameters
      (ascii "param1") = code := by
    simp [HttpRequest.getPathParameters, HttpRequest.setPathParameters,
      OrderedMaps.OrderedMap.find?_insert]
  simp only [handleRequest, hroute]
  apply Returns.bind
  cases hlookup : api.linkRepository.findByCode code s.links with
  | error e =>
    obtain ⟨s₁, hrun, hpublishes⟩ := handleRedirect_throws hparameter hlookup
    obtain ⟨s₂, hhandled, hkept, hstatus⟩ :=
      handleException_run (fun heq => hstd (heq ▸ hlookup)) s₁
    refine ⟨(), s₂, (Action.run_tryCatch_error hrun _).trans hhandled, _, _, rfl, ?_, ?_⟩
    · obtain ⟨eventId, occurredAtMs, hid, htime, hpublished⟩ := hpublishes
      exact ⟨eventId, occurredAtMs, hid, htime, hkept.trans hpublished⟩
    · exact congrArg Nat.cast hstatus
  | ok lookup =>
    obtain ⟨_, s₁, hrun, hpublishes, hstatus⟩ := handleRedirect_returns hparameter hlookup
    exact ⟨(), s₁, Action.run_tryCatch_ok hrun _, _, _, rfl, hpublishes, hstatus⟩

/-- For each redirect request exactly one event is published, and it tells the truth about the
response that is sent. -/
theorem published_event_true (api : ShortLinkHttpApi A L) (s : ServerState A L) (code : Bytes)
    (request : HttpRequest) (processNonce next : ℕ) (hmethod : request.method = .get)
    (hpath : request.path = linkPath code) (hcode : IsSegment code)
    (hstd : api.linkRepository.findByCode code s.links ≠ .error (.std .foreign)) :
    ∃ response s', ∃ event : AccessEvent,
      (onRequest api processNonce next request).run s = (.ok response, s') ∧
      s'.published = s.published ++ [event] ∧ event.code = code ∧
      event.httpStatus = response.statusCode ∧
      event.httpStatus = expectedHttpStatus event.result ∧
      event.result = impliedResult ((s.clock 0).tdiv 1000)
        (api.linkRepository.findByCode code s.links) ∧
      (code.length ≤ 128 → (∀ n, 0 < s.clock n) → isValidAccessEvent event ∧
        ∀ json, serializeAccessEvent json event = json.dump (accessEventPayload event)) := by
  let requestId := chooseRequestId (request.getHeader (ascii "X-Request-ID")) processNonce next
  let observed := { request with requestId := requestId }
  let s₀ := { s with response := { closeConnection := HttpServer.closeRequested observed } }
  have hobserved : observed.method = .get ∧ observed.path = linkPath code := ⟨hmethod, hpath⟩
  obtain ⟨_, s₁, hrun, ⟨eventId, occurredAtMs, hid, htime, hpublished⟩, hstatus⟩ :=
    handleRequest_returns (s := s₀) hobserved.1 hobserved.2 hcode hstd
  have hsent : (onRequest api processNonce next request).run s =
      (.ok (s₁.response.addHeader (ascii "X-Request-ID") requestId),
        { s₁ with response := s₁.response.addHeader (ascii "X-Request-ID") requestId }) :=
    Action.run_bind_ok hrun _
  refine ⟨_, _, _, hsent, hpublished, rfl, hstatus.symm, rfl, rfl, ?_⟩
  intro hlength hclock
  have hvalid : isValidAccessEvent ⟨eventId, occurredAtMs, requestId, code, impliedResult
      ((s.clock 0).tdiv 1000) (api.linkRepository.findByCode code s.links), expectedHttpStatus
        (impliedResult ((s.clock 0).tdiv 1000) (api.linkRepository.findByCode code s.links))⟩ := by
    have hrequest : isSafeRequestId requestId := isValidRequestId_choose _ _ _
    have htime : 0 < occurredAtMs := htime hclock
    simp [isValidAccessEvent, hid, hrequest, htime, hcode.1, hlength, kMaxCodeLength]
  refine ⟨hvalid, ?_⟩
  intro json
  rw [serializeAccessEvent, if_neg]
  rw [hvalid]
  decide

open OwnerIsolation (demoApi demoMine)

def demoState : ServerState AuthRepositories.MemoryAuthRepository
    MemoryShortLinks.MemoryShortLinkRepository :=
  { OwnerIsolation.demoState demoMine with clock := fun _ => 1784304000123 }

def demoRequest : HttpRequest where
  method := .get
  path := linkPath (ascii "mine")
  headers := .insert .empty (ascii "X-Request-ID") (ascii "two words")

theorem published_event_true_demo :
    ∃ response s', ∃ event : AccessEvent,
      (onRequest demoApi 7 8 demoRequest).run demoState = (.ok response, s') ∧
      s'.published = [event] ∧ response.statusCode = 302 ∧ isValidAccessEvent event := by
  obtain ⟨response, s', event, hrun, hpublished, _, hsent, hstatus, hresult, hvalid⟩ :=
    published_event_true demoApi demoState (ascii "mine") demoRequest 7 8 rfl rfl (by decide)
      (by decide)
  have hsuccess : event.result = .success := hresult.trans (by decide)
  rw [hsuccess] at hstatus
  have hfound : (response.statusCode : ℤ) = 302 := hsent.symm.trans hstatus
  have hclock (n : ℕ) : 0 < demoState.clock n := by
    change (0 : ℤ) < 1784304000123
    decide
  exact ⟨response, s', event, hrun, hpublished, by exact_mod_cast hfound,
    (hvalid (by decide) hclock).1⟩

end RedirectEvents
