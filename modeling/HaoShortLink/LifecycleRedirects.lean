import HaoShortLink.LinkHistories

/-! GET /s/code after any calls of the service: where it redirects to, and when it does not. -/
namespace LifecycleRedirects

open Cpp Actions HttpRequests HttpResponses Routers ShortLinks ServerStates ServerStates.Server
open MemoryShortLinks ShortLinkServices RedirectHandlers ApiRoutes Histories LinkHistories
open OwnerIsolation (overMemory)

variable {A L : Type} (api : ShortLinkHttpApi A L) {request : HttpRequest} {code : Bytes}

def linkPath (code : Bytes) : Bytes := ascii "/s/" ++ code

theorem splitOn_linkPath (code : Bytes) :
    (linkPath code).splitOn 47 = [] :: ascii "s" :: code.splitOn 47 := by
  change ([] ++ 47 :: (ascii "s" ++ 47 :: code)).splitOn 47 = _
  rw [List.splitOn_append_cons_self_of_not_mem (by decide),
    List.splitOn_append_cons_self_of_not_mem (by decide)]

theorem regexMatch_linkPath (code : Bytes) : regexMatch (ascii "/s/:code") (linkPath code) =
    if IsSegment code then some [code] else none := by
  have hpattern : convertToRegex (ascii "/s/:code") =
      [.literal [], .literal (ascii "s"), .parameter] := by decide
  rw [regexMatch, hpattern, splitOn_linkPath]
  exact matchSegments_parameter code

theorem regexMatch_elsewhere {pattern : Bytes} {segments : List Segment}
    (h : convertToRegex pattern = .literal [] :: .literal (ascii "api") :: segments)
    (code : Bytes) : regexMatch pattern (linkPath code) = none := by
  rw [regexMatch, h, splitOn_linkPath]
  rfl

theorem route_linkPath (hmethod : request.method = .get) (hpath : request.path = linkPath code) :
    (registerShortLinkHttpApi api).route request =
      if IsSegment code then some ⟨ascii "/s/:code",
        request.setPathParameters (ascii "param1") code, handleRedirect api⟩ else none := by
  -- only the last pattern for GET can match
  have hpatterns : (registerShortLinkHttpApi api).regexCallbacks.findSome?
      (Router.matchRoute request) = Router.matchRoute request
        ⟨.get, ascii "/s/:code", handleRedirect api⟩ := by
    rw [regexCallbacks_eq]
    have hdetail : regexMatch (ascii "/api/short-links/:code") request.path = none :=
      hpath ▸ regexMatch_elsewhere rfl code
    have hstatistics : regexMatch (ascii "/api/short-links/:code/statistics") request.path = none :=
      hpath ▸ regexMatch_elsewhere rfl code
    split <;> simp [Router.matchRoute, hmethod, hdetail, hstatistics]
  rw [route_pattern api (.inl rfl) hpath, hpatterns, Router.matchRoute, if_pos hmethod.symm, hpath,
    regexMatch_linkPath]
  split
  · rw [Option.map_some, extractPathParameters_single]
  · rfl

variable {api : ShortLinkHttpApi A MemoryShortLinkRepository}
  {s : ServerState A MemoryShortLinkRepository} {now : ℤ} {url : Bytes}

/-- The second that the next reading of the clock shows. -/
def clockSeconds (s : ServerState A MemoryShortLinkRepository) : ℤ := (s.clock 0).tdiv 1000

def redirectTarget (now : ℤ) (link : Option ShortLinkRecord) : Option Bytes :=
  (link.filter fun record => record.status = .active && !isExpired record now).map
    ShortLinkRecord.originalUrl

variable (api) in
theorem resolve_run (code : Bytes) (s : ServerState A MemoryShortLinkRepository) :
    ∃ status s', (resolve (overMemory api) code).run s =
      (.ok ⟨status, redirectTarget (clockSeconds s) (s.links.links.lookup code)⟩, s') ∧
      (status ≠ .success → redirectTarget (clockSeconds s) (s.links.links.lookup code) = none) ∧
      s'.response = s.response := by
  have hlookup :
      (tryCatch (queryLinks ((overMemory api).linkRepository.findByCode code)) fun e => do
        record (.redirect .error (overMemory api).linkRepository.defaultLookupSource)
        throw e).run s = (.ok (findByCode code s.links), s) := rfl
  unfold resolve
  rw [Action.run_bind_ok hlookup]
  unfold findByCode
  cases hlink : s.links.links.lookup code with
  | none => exact ⟨_, _, rfl, fun _ => rfl, rfl⟩
  | some link =>
    dsimp only
    by_cases hstatus : link.status = .disabled
    · rw [if_pos hstatus]
      have htarget : redirectTarget (clockSeconds s) (some link) = none := by
        simp [redirectTarget, hstatus]
      rw [htarget]
      exact ⟨_, _, rfl, fun _ => rfl, rfl⟩
    · rw [if_neg hstatus]
      have hactive : link.status = .active := by
        cases hs : link.status with
        | active => rfl
        | disabled => exact absurd hs hstatus
      have hnow : (nowEpochSeconds : Server A MemoryShortLinkRepository ℤ).run s =
        (.ok (clockSeconds s), { s with clock := fun n => s.clock (n + 1) }) := rfl
      rw [Action.run_bind_ok hnow]
      by_cases hexpired : isExpired link (clockSeconds s) = true
      · have htarget : redirectTarget (clockSeconds s) (some link) = none := by
          simp [redirectTarget, hexpired]
        rw [if_pos hexpired, htarget]
        exact ⟨_, _, rfl, fun _ => rfl, rfl⟩
      · have htarget : redirectTarget (clockSeconds s) (some link) = some link.originalUrl := by
          simp [redirectTarget, hexpired, hactive]
        rw [if_neg hexpired, htarget]
        exact ⟨_, _, rfl, fun h => absurd rfl h, rfl⟩

variable (api) in
theorem handleRedirect_run (request : HttpRequest) (s : ServerState A MemoryShortLinkRepository) :
    ∃ s', (handleRedirect (overMemory api) request).run s = (.ok (), s') ∧
      s'.response = redirectOrNotFound s.response (redirectTarget (clockSeconds s)
        (s.links.links.lookup (request.getPathParameters (ascii "param1")))) := by
  obtain ⟨status, s₁, hresolve, hsuccess, hresponse⟩ :=
    resolve_run api (request.getPathParameters (ascii "param1")) s
  unfold handleRedirect
  dsimp only
  rw [Action.run_bind_ok (Action.run_tryCatch_ok hresolve _)]
  dsimp only
  by_cases hstatus : status = .success
  · subst hstatus
    exact ⟨_, rfl, congrArg (fun r => redirectOrNotFound r _) hresponse⟩
  · rw [if_pos hstatus, hsuccess hstatus]
    exact ⟨_, rfl, congrArg (fun r => redirectOrNotFound r none) hresponse⟩

/-- The answer where nothing is redirected. What is no segment cannot be a code: no route has
such a path. -/
def noLinkAnswer (code : Bytes) (r : HttpResponse) : HttpResponse :=
  if IsSegment code then { redirectOrNotFound r none with routePattern := ascii "/s/:code" }
  else { r.setErrorResponse 404 (ascii "not_found") (ascii "Not Found") with
    closeConnection := true, routePattern := ascii "unmatched" }

def linkAnswer (code : Bytes) (r : HttpResponse) : Option Bytes → HttpResponse
  | some url => { r.setRedirect url with routePattern := ascii "/s/:code" }
  | none => noLinkAnswer code r

variable (api) in
theorem answer_linkPath (hmethod : request.method = .get) (hpath : request.path = linkPath code)
    (hcodes : (s.links.links.lookup code).isSome → IsSegment code) :
    answer (overMemory api) request s = .ok (linkAnswer code s.response
      (redirectTarget (clockSeconds s) (s.links.links.lookup code))) := by
  have hroute := route_linkPath (overMemory api) hmethod hpath
  by_cases hsegment : IsSegment code
  · rw [if_pos hsegment] at hroute
    let observed := request.setPathParameters (ascii "param1") code
    obtain ⟨s₁, hrun, hresponse⟩ := handleRedirect_run api observed s
    have hcode : observed.getPathParameters (ascii "param1") = code := by
      simp [observed, HttpRequest.getPathParameters, HttpRequest.setPathParameters,
        OrderedMaps.OrderedMap.find?_insert]
    have hhandled : (handleRequest (overMemory api) request).run s = (.ok (),
        { s₁ with response := { s₁.response with routePattern := ascii "/s/:code" } }) := by
      unfold handleRequest
      rw [hroute]
      exact Action.run_bind_ok (Action.run_tryCatch_ok hrun _) _
    rw [answer, hhandled]
    dsimp only
    rw [hresponse, hcode]
    cases redirectTarget (clockSeconds s) (s.links.links.lookup code) with
    | none => rw [linkAnswer, noLinkAnswer, if_pos hsegment]
    | some url => rfl
  · rw [if_neg hsegment] at hroute
    have hnone : s.links.links.lookup code = none :=
      Option.not_isSome_iff_eq_none.mp fun hsome => hsegment (hcodes hsome)
    rw [hnone, redirectTarget, Option.filter_none, Option.map_none, linkAnswer, noLinkAnswer,
      if_neg hsegment, answer, handleRequest, hroute]
    rfl

/-- The code was created for the URL, and what was written last lets it redirect. -/
structure Redirects (events : List ServiceEvent) (code : Bytes) (now : ℤ) (url : Bytes) : Prop where
  created : ∃ e ∈ events, written ServiceCall.originalUrl code e = some url
  active : lastWrite (written ServiceCall.status code) events = some .active
  unexpired : ∀ expiresAt,
    lastWrite (written ServiceCall.expiresAt code) events = some (some expiresAt) → now < expiresAt

def IsRedirectTo (url : Bytes) (r : HttpResponse) : Prop :=
  r.statusCode = 302 ∧ r.headers.find? (ascii "Location") = some url

variable {events : List ServiceEvent}

theorem isExpired_iff {record : ShortLinkRecord} :
    isExpired record now = false ↔
      ∀ expiresAt, record.expiresAt = some expiresAt → now < expiresAt := by
  cases h : record.expiresAt <;> simp [isExpired, h]

theorem redirects_iff {links : MemoryShortLinkRepository} (h : History api events links)
    (code : Bytes) (now : ℤ) (url : Bytes) :
    Redirects events code now url ↔ redirectTarget now (links.links.lookup code) = some url := by
  have hurl := originalUrl_iff h code url
  have hstatus := field_eq_lastWrite h writes_status code
  have hexpiry := field_eq_lastWrite h writes_expiresAt code
  cases hlink : links.links.lookup code with
  | none =>
    rw [hlink] at hurl
    constructor
    · exact fun hr => absurd (hurl.mpr hr.created) (by simp)
    · exact fun hr => absurd hr (by simp [redirectTarget])
  | some record =>
    rw [hlink] at hurl hstatus hexpiry
    have htarget : redirectTarget now (some record) = some url ↔
        record.originalUrl = url ∧ record.status = .active ∧ isExpired record now = false := by
      simp only [redirectTarget, Option.map_eq_some_iff, Option.filter_eq_some_iff]
      constructor
      · rintro ⟨link, ⟨hsome, hlive⟩, hsame⟩
        obtain rfl := Option.some.inj hsome
        exact ⟨hsame, by simpa using hlive⟩
      · rintro ⟨hsame, hactive, hlive⟩
        exact ⟨record, ⟨rfl, by simp [hactive, hlive]⟩, hsame⟩
    rw [htarget, isExpired_iff]
    constructor
    · rintro ⟨hcreated, hactive, hunexpired⟩
      refine ⟨Option.some.inj (hurl.mpr hcreated), Option.some.inj (hstatus.trans hactive), ?_⟩
      exact fun expiresAt he => hunexpired expiresAt (hexpiry ▸ congrArg some he)
    · rintro ⟨hsame, hactive, hunexpired⟩
      refine ⟨hurl.mp (congrArg some hsame), hstatus ▸ congrArg some hactive, ?_⟩
      intro expiresAt he
      exact hunexpired expiresAt (Option.some.inj (hexpiry.trans he))

theorem setRedirect_location (r : HttpResponse) (url : Bytes) :
    (r.setRedirect url).headers.find? (ascii "Location") = some url := by
  have hname : ascii "Location" ≠ ascii "Content-Length" := by decide
  simp only [HttpResponse.setRedirect, HttpResponse.setBody, HttpResponse.setContentLength,
    HttpResponse.addHeader, HttpResponse.setStatus, OrderedMaps.OrderedMap.find?_insert,
    if_neg hname, if_true]

theorem linkAnswer_isRedirectTo (code : Bytes) (r : HttpResponse) (target : Option Bytes) :
    IsRedirectTo url (linkAnswer code r target) ↔ target = some url := by
  cases target with
  | none =>
    have hstatus : (noLinkAnswer code r).statusCode = 404 := by
      unfold noLinkAnswer
      split <;> rfl
    refine ⟨?_, fun h => nomatch h⟩
    intro h
    rw [IsRedirectTo, linkAnswer, hstatus] at h
    exact absurd h.1 (by decide)
  | some location =>
    refine ⟨fun h => ?_, fun h => ⟨rfl, ?_⟩⟩
    · exact (setRedirect_location r location).symm.trans h.2
    · exact (setRedirect_location r location).trans h

/-- After any calls of the service, GET /s/code redirects to the URL the code was created for as
long as the last status is active and the last expiry is not reached, and all else gets one 404. -/
theorem lifecycle_decides_redirects (hhistory : History api events s.links)
    (hmethod : request.method = .get) (hpath : request.path = linkPath code) :
    (∀ url, (∃ r, answer (overMemory api) request s = .ok r ∧ IsRedirectTo url r) ↔
      Redirects events code (clockSeconds s) url) ∧
    ((∀ url, ¬ Redirects events code (clockSeconds s) url) →
      answer (overMemory api) request s = .ok (noLinkAnswer code s.response)) := by
  have hanswer := answer_linkPath api hmethod hpath (code_isSegment hhistory code)
  rw [hanswer]
  constructor
  · intro url
    rw [redirects_iff hhistory, ← linkAnswer_isRedirectTo]
    exact ⟨fun ⟨r, hr, hredirect⟩ => Except.ok.inj hr ▸ hredirect,
      fun hredirect => ⟨_, rfl, hredirect⟩⟩
  · intro hnone
    have htarget : redirectTarget (clockSeconds s) (s.links.links.lookup code) = none :=
      Option.eq_none_iff_forall_ne_some.mpr fun url hurl =>
        hnone url ((redirects_iff hhistory code _ url).mpr hurl)
    rw [htarget]
    rfl

open OwnerIsolation (demoApi demoState)

/-- Ada creates a link and gives it an expiry later; someone else fails to disable it. -/
def demoCalls : List ServiceCall :=
  [.create (ascii "https://a.example") none 1 (some (ascii "mine")),
    .updateLifecycle (ascii "mine") ⟨none, true, some 60, some 1⟩,
    .updateLifecycle (ascii "mine") ⟨some .disabled, false, none, some 2⟩]

def demoRun := runCalls demoApi demoCalls (demoState .empty)

theorem lifecycle_decides_redirects_demo :
    ∃ r, answer (overMemory demoApi) { method := .get, path := linkPath (ascii "mine") } demoRun.2 =
      .ok r ∧ IsRedirectTo (ascii "https://a.example") r := by
  have hhistory : History demoApi demoRun.1 demoRun.2.links :=
    runCalls_history demoApi demoCalls rfl
  refine ((lifecycle_decides_redirects hhistory rfl rfl).1 _).mpr ⟨by decide, by decide, ?_⟩
  have hexpiry : lastWrite (written ServiceCall.expiresAt (ascii "mine")) demoRun.1 =
      some (some 60) := by decide
  rw [hexpiry]
  intro expiresAt he
  obtain rfl : 60 = expiresAt := Option.some.inj (Option.some.inj he)
  decide

end LifecycleRedirects
