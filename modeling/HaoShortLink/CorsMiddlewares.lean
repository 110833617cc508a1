import HaoShortLink.Middlewares

/-! CorsMiddleware.cpp: the answer to a preflight, which sees the origin, and the headers of the
actual response, which are added without it. -/
namespace CorsMiddlewares

open Cpp Actions HttpRequests HttpResponses Middlewares
open OrderedMaps (OrderedMap)

structure CorsConfig where
  allowedOrigins : List Bytes := []
  allowedMethods : List Bytes := []
  allowedHeaders : List Bytes := []
  allowCredentials : Bool := false
  maxAge : ℤ := 3600

namespace CorsConfig

def defaultConfig : CorsConfig where
  allowedOrigins := [ascii "*"]
  allowedMethods :=
    [ascii "GET", ascii "POST", ascii "PUT", ascii "DELETE", ascii "OPTIONS"]
  allowedHeaders := [ascii "Content-Type", ascii "Authorization"]

variable (config : CorsConfig)

def join (strings : List Bytes) (delimiter : Bytes) : Bytes := delimiter.intercalate strings

def addHeaderIf (added : Bool) (key value : Bytes) (response : HttpResponse) : HttpResponse :=
  if added then response.addHeader key value else response

def addCorsHeaders (response : HttpResponse) (origin : Bytes) : HttpResponse :=
  let response := response.addHeader (ascii "Access-Control-Allow-Origin") origin
  let response := addHeaderIf config.allowCredentials
    (ascii "Access-Control-Allow-Credentials") (ascii "true") response
  let response := addHeaderIf (!config.allowedMethods.isEmpty)
    (ascii "Access-Control-Allow-Methods") (join config.allowedMethods (ascii ", ")) response
  let response := addHeaderIf (!config.allowedHeaders.isEmpty)
    (ascii "Access-Control-Allow-Headers") (join config.allowedHeaders (ascii ", ")) response
  response.addHeader (ascii "Access-Control-Max-Age") (signedToDecimal config.maxAge)

def isOriginAllowed (origin : Bytes) : Bool :=
  config.allowedOrigins.isEmpty || config.allowedOrigins.contains (ascii "*") ||
    config.allowedOrigins.contains origin

def handlePreflightRequest (request : HttpRequest) (response : HttpResponse) : HttpResponse :=
  let origin := request.getHeader (ascii "Origin")
  if !config.isOriginAllowed origin then { response with statusCode := 403 }
  else { config.addCorsHeaders response origin with statusCode := 204 }

variable {W : Type}

def before : Action (W × HttpRequest) Thrown Unit :=
  Action.query fun (_, request) =>
    if request.method = .options then
      .error (.response (config.handlePreflightRequest request {}))
    else .ok ()

def after (response : HttpResponse) : HttpResponse :=
  match config.allowedOrigins with
  | [] => response
  | first :: rest =>
    if (first :: rest).contains (ascii "*") then config.addCorsHeaders response (ascii "*")
    else config.addCorsHeaders response first

end CorsConfig

open CorsConfig

variable {W : Type}

def corsMiddleware (config : CorsConfig) : Middleware W where
  before := config.before
  after := Action.modify fun (world, response) => (world, config.after response)

def allowOrigin (response : HttpResponse) : Option Bytes :=
  response.headers.find? (ascii "Access-Control-Allow-Origin")

theorem allowOrigin_addHeader (response : HttpResponse) {key : Bytes} (value : Bytes)
    (h : key ≠ ascii "Access-Control-Allow-Origin") :
    allowOrigin (response.addHeader key value) = allowOrigin response := by
  rw [allowOrigin, HttpResponse.addHeader, OrderedMap.find?_insert, if_neg h.symm, allowOrigin]

theorem allowOrigin_addHeaderIf (response : HttpResponse) (added : Bool) {key : Bytes}
    (value : Bytes) (h : key ≠ ascii "Access-Control-Allow-Origin") :
    allowOrigin (addHeaderIf added key value response) = allowOrigin response := by
  cases added
  · rfl
  · exact allowOrigin_addHeader response value h

theorem allowOrigin_addCorsHeaders (config : CorsConfig) (response : HttpResponse)
    (origin : Bytes) : allowOrigin (config.addCorsHeaders response origin) = some origin := by
  rw [addCorsHeaders, allowOrigin_addHeader _ _ (by decide),
    allowOrigin_addHeaderIf _ _ _ (by decide), allowOrigin_addHeaderIf _ _ _ (by decide),
    allowOrigin_addHeaderIf _ _ _ (by decide), allowOrigin, HttpResponse.addHeader,
    OrderedMap.find?_insert, if_pos rfl]

theorem allowOrigin_after (config : CorsConfig) (response : HttpResponse) :
    allowOrigin (config.after response) =
      if config.allowedOrigins = [] then allowOrigin response
      else if ascii "*" ∈ config.allowedOrigins then some (ascii "*")
      else config.allowedOrigins.head? := by
  rcases horigins : config.allowedOrigins with _ | ⟨first, rest⟩
  · simp [after, horigins]
  · by_cases hany : ascii "*" ∈ first :: rest
    · simp [after, horigins, hany, allowOrigin_addCorsHeaders]
    · simp [after, horigins, hany, allowOrigin_addCorsHeaders]

theorem isOriginAllowed_iff (config : CorsConfig) (origin : Bytes) :
    config.isOriginAllowed origin ↔ config.allowedOrigins = [] ∨
      ascii "*" ∈ config.allowedOrigins ∨ origin ∈ config.allowedOrigins := by
  simp [isOriginAllowed, or_assoc]

theorem preflight_answer (config : CorsConfig) {request : HttpRequest} {origin : Bytes}
    (h : request.getHeader (ascii "Origin") = origin) :
    let answer := config.handlePreflightRequest request {}
    answer.statusCode = 204 ∧ allowOrigin answer = some origin ↔
      config.isOriginAllowed origin := by
  intro answer
  have hanswer : answer = if !config.isOriginAllowed origin then { statusCode := 403 }
      else { config.addCorsHeaders {} origin with statusCode := 204 } := by
    rw [← h]
    rfl
  rw [hanswer]
  cases hallowed : config.isOriginAllowed origin
  · simp
  · constructor
    · intro _
      rfl
    · intro _
      exact ⟨rfl, allowOrigin_addCorsHeaders config {} origin⟩

/-- A preflight from the origin that is answered with 204, naming the origin, means that after
leaves a response that carries the origin or "*". -/
def PreflightAgrees (config : CorsConfig) (origin : Bytes) (response : HttpResponse) : Prop :=
  ∀ (request : HttpRequest) (answer : HttpResponse), request.method = .options →
    request.getHeader (ascii "Origin") = origin →
    (config.before.run ((), request)).1 = .error (.response answer) →
    answer.statusCode = 204 → allowOrigin answer = some origin →
    allowOrigin (config.after response) = some origin ∨
      allowOrigin (config.after response) = some (ascii "*")

def preflight (origin : Bytes) : HttpRequest :=
  { method := .options
    headers := OrderedMap.empty.insert (ascii "Origin") origin }

theorem preflight_origin (origin : Bytes) :
    (preflight origin).getHeader (ascii "Origin") = origin := by
  simp [preflight, HttpRequest.getHeader, OrderedMap.find?_insert]

theorem preflightAgrees_allowed {config : CorsConfig} {origin : Bytes} {response : HttpResponse} :
    PreflightAgrees config origin response ↔
      (config.isOriginAllowed origin → allowOrigin (config.after response) = some origin ∨
        allowOrigin (config.after response) = some (ascii "*")) := by
  constructor
  · intro h hallowed
    obtain ⟨hstatus, horigin⟩ :=
      (preflight_answer config (preflight_origin origin)).mpr hallowed
    exact h (preflight origin) _ rfl (preflight_origin origin) rfl hstatus horigin
  · intro h request answer hmethod hfrom hthrown hstatus horigin
    have hanswer : config.handlePreflightRequest request {} = answer := by
      simpa [CorsConfig.before, Action.query, hmethod] using hthrown
    subst hanswer
    exact h ((preflight_answer config hfrom).mp ⟨hstatus, horigin⟩)

/-- The two agree for every origin under "*", and otherwise for the first entry and the origins
that are refused; under the empty list the header has to be there already. -/
theorem preflightAgrees_iff (config : CorsConfig) (origin : Bytes) (response : HttpResponse) :
    PreflightAgrees config origin response ↔
      ascii "*" ∈ config.allowedOrigins ∨ config.allowedOrigins.head? = some origin ∨
      (config.allowedOrigins ≠ [] ∧ origin ∉ config.allowedOrigins) ∨
      (config.allowedOrigins = [] ∧
        (allowOrigin response = some origin ∨ allowOrigin response = some (ascii "*"))) := by
  rw [preflightAgrees_allowed, allowOrigin_after, isOriginAllowed_iff]
  rcases horigins : config.allowedOrigins with _ | ⟨first, rest⟩
  · simp
  · by_cases hany : ascii "*" ∈ first :: rest
    · simp [hany]
    · have hfirst : first ≠ ascii "*" := by
        intro h
        rw [h] at hany
        exact hany List.mem_cons_self
      rw [if_neg (List.cons_ne_nil _ _), if_neg hany, List.head?_cons]
      by_cases hlisted : origin ∈ first :: rest
      · simp [hany, hfirst, hlisted]
      · simp [hany, hlisted]

theorem preflightAgrees_second :
    ¬ PreflightAgrees { allowedOrigins := [ascii "https://a.example", ascii "https://b.example"] }
      (ascii "https://b.example") {} := by
  intro h
  have hcarried := h (preflight (ascii "https://b.example")) _ rfl (preflight_origin _) rfl
    (by decide) (by decide)
  revert hcarried
  decide

variable {s : HttpServer W} {config : CorsConfig} {others : List (Middleware W)}

theorem forward_preflight (hchain : s.middlewares = corsMiddleware config :: others)
    {request : HttpRequest} (hmethod : request.method = .options) (e : Exchange W) :
    (forward s request).run e = (.error (.response (config.handlePreflightRequest request {})),
      { e with mutableReq := request, routePattern := [] }) := by
  have hbefore : (onRequest (W := W) config.before).run
      { e with mutableReq := request, routePattern := [] } =
      (.error (.response (config.handlePreflightRequest request {})),
        { e with mutableReq := request, routePattern := [] }) := by
    simp [onRequest, CorsConfig.before, Action.query, hmethod]
  have hrun : (forward s request).run e = (processBefore s.middlewares.zipIdx >>= fun _ =>
      onRoute s.router.route >>= fun found =>
        if !found then Action.modify notFound else pure ()).run
          { e with mutableReq := request, routePattern := [] } := rfl
  rw [hrun, Action.run_bind_error]
  rw [hchain, List.zipIdx_cons, processBefore, Action.run_bind_error]
  exact hbefore

/-- A preflight is answered by CorsMiddleware and by nothing else. -/
theorem handleRequest_preflight (hchain : s.middlewares = corsMiddleware config :: others)
    {request : HttpRequest} (hmethod : request.method = .options) (e : Exchange W) :
    ((handleRequest s request).run e).2.response =
      { config.handlePreflightRequest request {} with routePattern := ascii "middleware" } := by
  rw [handleRequest_thrown (forward_preflight hchain hmethod e)]
  rfl

/-- The response to an actual request passes through after last. -/
theorem handleRequest_actual (hchain : s.middlewares = corsMiddleware config :: others)
    {request : HttpRequest} {e e₁ e₂ : Exchange W}
    (hforward : (forward s request).run e = (.ok (), e₁))
    (hafter : (callAfter (others.zipIdx 1).reverse).run e₁ = (.ok (), e₂)) :
    allowOrigin ((handleRequest s request).run e).2.response =
      allowOrigin (config.after e₂.response) := by
  have hlast : (callAfter s.middlewares.zipIdx.reverse).run e₁ =
      (callAfter [(corsMiddleware config, 0)]).run e₂ := by
    rw [hchain, List.zipIdx_cons, List.reverse_cons, callAfter_append hafter]
  rw [handleRequest_after_ok hforward hlast]
  rfl

end CorsMiddlewares
