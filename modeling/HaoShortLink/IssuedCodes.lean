import HaoShortLink.LifecycleRedirects
import HaoShortLink.RequestGrammars

/-! Every code that the service issues can be asked for: the request line, the query, the
segments of the path and the routes fit together. -/
namespace IssuedCodes

open Cpp HttpRequests HttpContexts RequestGrammars Routers ServerStates ShortCodes ApiRoutes
open ApiHandlers RedirectHandlers
open Resumable (Scanner)
open LifecycleRedirects (linkPath route_linkPath)
open OwnerIsolation (demoApi)

def Issued (code : Bytes) : Prop :=
  isValidCustomCode code ∨ ∃ id < 2 ^ 64, encodeBase62 id = code

variable {code : Bytes}

/-- Letters, digits, '_' and '-', so nothing that a request line, a query or a path gives a
meaning to. -/
theorem issued_chars (h : Issued code) {c : UInt8} (hc : c ∈ code) :
    isAlnum c ∨ c = 95 ∨ c = 45 := by
  rcases h with h | ⟨id, _, rfl⟩
  · exact isValidCustomCode_char h hc
  · exact .inl (encodeBase62_char hc)

theorem issued_not_mem (h : Issued code) {c : UInt8}
    (hc : ¬ (isAlnum c ∨ c = 95 ∨ c = 45)) : c ∉ code :=
  fun hmem => hc (issued_chars h hmem)

theorem issued_isSegment (h : Issued code) : IsSegment code := by
  rcases h with h | ⟨id, _, rfl⟩
  · exact LinkHistories.isValidCustomCode_isSegment h
  · exact LinkHistories.encodeBase62_isSegment id

def requestLine (method target : Bytes) : Bytes :=
  method ++ 32 :: (target ++ 32 :: ascii "HTTP/1.1")

theorem setTarget_path {request : HttpRequest} {target : Bytes} (h : (63 : UInt8) ∉ target) :
    setTarget request target = { request with path := target } := by
  simp [setTarget, takeWhile_ne h]

theorem processRequestLine_eq {method target : Bytes} (hmethod : (32 : UInt8) ∉ method)
    (hvalid : methodOf method ≠ .invalid) (hspace : (32 : UInt8) ∉ target)
    (hquery : (63 : UInt8) ∉ target) : processRequestLine {} (requestLine method target) =
      (true, { method := methodOf method, path := target, version := ascii "HTTP/1.1" }) := by
  simp only [processRequestLine, requestLine, takeWhile_until hmethod, takeWhile_until hspace,
    List.drop_left, if_neg hvalid, setTarget_path hquery]
  rfl

def goesTo (request : HttpRequest) : Method × Bytes := (request.method, request.path)

/-- A turn leaves the request going where it went, and never asks for a request line again. -/
def StaysOn (request : HttpRequest) : ParseTurn → Prop
  | .again c _ => goesTo c.request = goesTo request ∧ c.state ≠ .expectRequestLine
  | .stop _ c _ => goesTo c.request = goesTo request
  | .starved => True

theorem endOfHeaders_staysOn (c : HttpContext) (b rest : Bytes) :
    StaysOn c.request (endOfHeaders c b rest) := by
  unfold endOfHeaders
  split
  · dsimp only
    split
    · rfl
    · split
      · rfl
      · split
        · constructor
          · rfl
          · simp
        · rfl
  · rfl

theorem turn_staysOn {c : HttpContext} (hstate : c.state ≠ .expectRequestLine) (b : Bytes) :
    StaysOn c.request (turn c b) := by
  unfold turn
  cases hs : c.state with
  | expectRequestLine => exact absurd hs hstate
  | expectHeaders =>
    simp only [headerTurn]
    split
    · trivial
    · split
      · constructor
        · rfl
        · simpa using hstate
      · split
        · exact endOfHeaders_staysOn _ _ _
        · rfl
  | expectBody =>
    simp only [bodyTurn]
    split
    · trivial
    · rfl
  | gotAll => rfl

theorem parseRequest_staysOn {c c' : HttpContext} {b b' : Bytes} {o : Outcome}
    (hstate : c.state ≠ .expectRequestLine) (h : parseRequest c b = .finished o c' b') :
    goesTo c'.request = goesTo c.request := by
  rw [parseRequest] at h
  induction c, b using Scanner.run_induction (M := parser) with
  | again c b t rest ht ih =>
    have hturn := turn_staysOn hstate b
    rw [show HttpContexts.turn c b = .again t rest from ht] at hturn
    rw [Scanner.run_again ht] at h
    rw [ih hturn.2 h, hturn.1]
  | stop c b r t rest ht =>
    have hturn := turn_staysOn hstate b
    rw [show HttpContexts.turn c b = .stop r t rest from ht] at hturn
    rw [Scanner.run_stop ht] at h
    cases h
    exact hturn
  | starved c b ht =>
    rw [Scanner.run_starved ht] at h
    cases h

theorem parsed_goesTo {method target rest rest' : Bytes} {c : HttpContext} {o : Outcome}
    (hmethod : (32 : UInt8) ∉ method) (hvalid : methodOf method ≠ .invalid)
    (hspace : (32 : UInt8) ∉ target) (hquery : (63 : UInt8) ∉ target)
    (hline : findCRLF (requestLine method target) = none)
    (h : parseRequest {} (requestLine method target ++ 13 :: 10 :: rest) = .finished o c rest') :
    goesTo c.request = (methodOf method, target) := by
  have hturn := turn_requestLine rest hline (processRequestLine_eq hmethod hvalid hspace hquery)
  rw [parseRequest, Scanner.run_again hturn] at h
  exact parseRequest_staysOn (by simp) h

variable {A L : Type} (api : ShortLinkHttpApi A L) {request : HttpRequest}

def apiPath (code : Bytes) : Bytes := ascii "/api/short-links/" ++ code

theorem splitOn_apiPath (code : Bytes) : (apiPath code).splitOn 47 =
    [] :: ascii "api" :: ascii "short-links" :: code.splitOn 47 := by
  change ([] ++ 47 :: (ascii "api" ++ 47 :: (ascii "short-links" ++ 47 :: code))).splitOn 47 = _
  rw [List.splitOn_append_cons_self_of_not_mem (by decide),
    List.splitOn_append_cons_self_of_not_mem (by decide),
    List.splitOn_append_cons_self_of_not_mem (by decide)]

theorem regexMatch_apiPath (hsegment : IsSegment code) :
    regexMatch (ascii "/api/short-links/:code") (apiPath code) = some [code] := by
  have hpattern : convertToRegex (ascii "/api/short-links/:code") =
      [.literal [], .literal (ascii "api"), .literal (ascii "short-links"), .parameter] := by
    decide
  rw [regexMatch, hpattern, splitOn_apiPath]
  exact (matchSegments_parameter code).trans (if_pos hsegment)

theorem route_apiPath (hsegment : IsSegment code) (hpath : request.path = apiPath code) :
    (request.method = .get → (registerShortLinkHttpApi api).route request =
      some ⟨ascii "/api/short-links/:code", request.setPathParameters (ascii "param1") code,
        forUser api (handleDetail api)⟩) ∧
    (request.method = .put → (registerShortLinkHttpApi api).route request =
      some ⟨ascii "/api/short-links/:code", request.setPathParameters (ascii "param1") code,
        fromSameOrigin (forUser api (handleUpdate api))⟩) := by
  have hmatch : regexMatch (ascii "/api/short-links/:code") request.path = some [code] :=
    hpath ▸ regexMatch_apiPath hsegment
  rw [route_pattern api (.inr rfl) hpath, regexCallbacks_eq]
  constructor
  · intro hmethod
    simp [Router.matchRoute, hmethod, hmatch, extractPathParameters_single]
  · intro hmethod
    simp [Router.matchRoute, hmethod, hmatch, extractPathParameters_single]

/-- The line is accepted, and when the request that it begins is complete, in how many pieces
it may come, it is the handler's with the code as parameter. -/
structure Reaches (line pattern : Bytes) (handler : Handler A L) (code : Bytes) : Prop where
  accepted : findCRLF line = none ∧ (processRequestLine {} line).1 = true
  handled : ∀ {seen chunk rest buffer rest' : Bytes} {c c' : HttpContext},
    parser.Resumes {} seen c buffer → seen ++ chunk = line ++ 13 :: 10 :: rest →
    parseRequest c (buffer ++ chunk) = .finished .gotAll c' rest' →
    ∃ found, (registerShortLinkHttpApi api).route c'.request = some found ∧
      found.pattern = pattern ∧ found.handler = handler ∧
      found.request.getPathParameters (ascii "param1") = code

variable {api}

theorem getPathParameters_set (request : HttpRequest) (name value : Bytes) :
    (request.setPathParameters name value).getPathParameters name = value := by
  simp [HttpRequest.setPathParameters, HttpRequest.getPathParameters,
    OrderedMaps.OrderedMap.find?_insert]

theorem Reaches.of_route {method start pattern : Bytes} {handler : Handler A L}
    (hcode : Issued code) (hmethod : (32 : UInt8) ∉ method ∧ (13 : UInt8) ∉ method)
    (hvalid : methodOf method ≠ .invalid)
    (hstart : (32 : UInt8) ∉ start ∧ (63 : UInt8) ∉ start ∧ (13 : UInt8) ∉ start)
    (hroute : ∀ request : HttpRequest, request.method = methodOf method →
      request.path = start ++ code → (registerShortLinkHttpApi api).route request =
        some ⟨pattern, request.setPathParameters (ascii "param1") code, handler⟩) :
    Reaches api (requestLine method (start ++ code)) pattern handler code := by
  have hspace : (32 : UInt8) ∉ start ++ code :=
    List.not_mem_append hstart.1 (issued_not_mem hcode (by decide))
  have hquery : (63 : UInt8) ∉ start ++ code :=
    List.not_mem_append hstart.2.1 (issued_not_mem hcode (by decide))
  have hreturn : (13 : UInt8) ∉ start ++ code :=
    List.not_mem_append hstart.2.2 (issued_not_mem hcode (by decide))
  have hline : findCRLF (requestLine method (start ++ code)) = none := by
    have hversion : (13 : UInt8) ∉ ascii "HTTP/1.1" := by decide
    apply findCRLF_none
    simp [requestLine, hmethod.2, hversion, List.mem_append.not.mp hreturn]
  constructor
  · constructor
    · exact hline
    · rw [processRequestLine_eq hmethod.1 hvalid hspace hquery]
  · intro seen chunk rest buffer rest' c c' hresumes hbytes hparse
    have hwhole : parseRequest {} (requestLine method (start ++ code) ++ 13 :: 10 :: rest) =
        .finished .gotAll c' rest' := by
      rw [← hparse, ← hbytes, parseRequest, parseRequest, hresumes.run_eq]
    have hgoes := parsed_goesTo hmethod.1 hvalid hspace hquery hline hwhole
    simp only [goesTo, Prod.mk.injEq] at hgoes
    refine ⟨_, hroute c'.request hgoes.1 hgoes.2, ?_⟩
    simp [getPathParameters_set]

variable (api) in
/-- Whichever code is issued, its link and its two API paths lead to their callbacks with the
code as it was issued. -/
theorem issued_code_reached (hcode : Issued code) :
    Reaches api (requestLine (ascii "GET") (linkPath code)) (ascii "/s/:code")
      (handleRedirect api) code ∧
    Reaches api (requestLine (ascii "GET") (apiPath code)) (ascii "/api/short-links/:code")
      (forUser api (handleDetail api)) code ∧
    Reaches api (requestLine (ascii "PUT") (apiPath code)) (ascii "/api/short-links/:code")
      (fromSameOrigin (forUser api (handleUpdate api))) code := by
  have hsegment := issued_isSegment hcode
  constructor
  · apply Reaches.of_route hcode (by decide) (by decide) (by decide)
    intro request hmethod hpath
    exact (route_linkPath api hmethod hpath).trans (if_pos hsegment)
  · constructor
    · apply Reaches.of_route hcode (by decide) (by decide) (by decide)
      intro request hmethod hpath
      exact (route_apiPath api hsegment hpath).1 hmethod
    · apply Reaches.of_route hcode (by decide) (by decide) (by decide)
      intro request hmethod hpath
      exact (route_apiPath api hsegment hpath).2 hmethod

def demoDetail : HttpRequest where
  method := .get
  path := ascii "/api/short-links/statistics"
  version := ascii "HTTP/1.1"

/-- A code that is also a word of the paths. -/
theorem issued_code_reached_demo :
    ∃ c, parseRequest {} (ascii "GET /api/short-links/statistics HTTP/1.1\r\n\r\n") =
        .finished .gotAll c [] ∧
      ∃ found, (registerShortLinkHttpApi demoApi).route c.request = some found ∧
        found.pattern = ascii "/api/short-links/:code" ∧
        found.handler = forUser demoApi (handleDetail demoApi) ∧
        found.request.getPathParameters (ascii "param1") = ascii "statistics" := by
  have hcode : Issued (ascii "statistics") := .inl (by decide)
  have hparse : parseRequest {} (ascii "GET /api/short-links/statistics HTTP/1.1\r\n\r\n") =
      .finished .gotAll ⟨.gotAll, demoDetail⟩ [] :=
    (Scanner.run_again rfl).trans (Scanner.run_stop rfl)
  have hbytes : [] ++ ascii "GET /api/short-links/statistics HTTP/1.1\r\n\r\n" =
      requestLine (ascii "GET") (apiPath (ascii "statistics")) ++ 13 :: 10 :: [13, 10] := by decide
  have hfresh : parser.Resumes {} [] {} [] :=
    Scanner.Resumes.start ({} : HttpContext) []
  refine ⟨_, hparse, ?_⟩
  exact (issued_code_reached demoApi hcode).2.1.handled hfresh hbytes hparse

end IssuedCodes
