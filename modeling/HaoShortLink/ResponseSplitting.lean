import HaoShortLink.HttpServers
import HaoShortLink.LifecycleRedirects

/-! What is sent for a redirect, and whether it can be read back line by line. -/
namespace ResponseSplitting

open Cpp HttpRequests HttpResponses RequestIds ServerStates MemoryShortLinks ApiRoutes
open HttpServers LinkHistories LifecycleRedirects
open HttpServer (closeRequested)
open OwnerIsolation (overMemory demoApi demoState)
open AuthRepositories (MemoryAuthRepository)
open ShortLinkServices (createShortLink)

variable {A : Type} {api : ShortLinkHttpApi A MemoryShortLinkRepository}
  {s : ServerState A MemoryShortLinkRepository} {server : HttpServer} {n : ℕ}
  {request : HttpRequest} {code url : Bytes} {events : List ServiceEvent}

/-- The n-th answer of the server to the request is the redirect that handleRedirect sets. -/
def RedirectsTo (server : HttpServer) (n : ℕ) (request : HttpRequest) (url : Bytes) : Prop :=
  ∀ requestId response, ∃ pattern,
    server.handleRequest n { request with requestId := requestId } response =
      { response.setRedirect url with routePattern := pattern }

/-- To the redirect onRequest adds the identifier of the request, which it has checked. -/
theorem onRequest_redirect (h : RedirectsTo server n request url) :
    ∃ requestId pattern, isValidRequestId requestId = true ∧ server.onRequest n request =
      { redirectResponse (closeRequested request) url requestId with routePattern := pattern } := by
  let requestId := chooseRequestId (request.getHeader (ascii "X-Request-ID")) server.processNonce
    (server.requestSequence n)
  obtain ⟨pattern, hanswer⟩ := h requestId { closeConnection := closeRequested request }
  refine ⟨requestId, pattern, isValidRequestId_choose _ _ _, ?_⟩
  exact congrArg (fun r => r.addHeader (ascii "X-Request-ID") requestId) hanswer

/-- The bytes sent for a redirect read back exactly when its URL holds no line end. -/
theorem redirect_reads_back_iff (h : RedirectsTo server n request url) :
    ReadsBack (server.onRequest n request) ↔ findCRLF url = none := by
  obtain ⟨requestId, pattern, hvalid, hsent⟩ := onRequest_redirect h
  rw [hsent]
  exact redirect_readsBack_iff (closeRequested request) url requestId hvalid

/-- The n-th answer of the server is the one that the API gives from the state s. -/
def Serves (api : ShortLinkHttpApi A MemoryShortLinkRepository)
    (s : ServerState A MemoryShortLinkRepository) (server : HttpServer) (n : ℕ) : Prop :=
  ∀ request response r, answer (overMemory api) request { s with response := response } = .ok r →
    server.handleRequest n request response = r

theorem Serves.redirectsTo (hserves : Serves api s server n)
    (hhistory : History api events s.links) (hmethod : request.method = .get)
    (hpath : request.path = linkPath code)
    (hredirects : Redirects events code (clockSeconds s) url) :
    RedirectsTo server n request url := by
  intro requestId response
  have hanswer : answer (overMemory api) { request with requestId := requestId }
      { s with response := response } = .ok (linkAnswer code response
        (redirectTarget (clockSeconds s) (s.links.links.lookup code))) :=
    answer_linkPath api hmethod hpath (code_isSegment hhistory code)
  rw [(redirects_iff hhistory code _ url).mp hredirects] at hanswer
  exact ⟨_, hserves _ _ _ hanswer⟩

def demoServer (s : ServerState MemoryAuthRepository MemoryShortLinkRepository) : HttpServer where
  handleRequest _ request response :=
    (answer (overMemory demoApi) request { s with response := response }).toOption.getD response
  processNonce := 0
  requestSequence n := n

theorem demoServer_serves (s : ServerState MemoryAuthRepository MemoryShortLinkRepository) (n : ℕ) :
    Serves demoApi s (demoServer s) n := by
  intro request response r h
  simp [demoServer, h, Except.toOption]

def demoRun (url : Bytes) : List ServiceEvent ×
    ServerState MemoryAuthRepository MemoryShortLinkRepository :=
  runCalls demoApi [.create url none 1 (some (ascii "mine"))] (demoState .empty)

theorem demoRun_history (url : Bytes) : History demoApi (demoRun url).1 (demoRun url).2.links :=
  runCalls_history demoApi _ rfl

def demoRequest : HttpRequest := { method := .get, path := linkPath (ascii "mine") }

theorem demoServer_redirectsTo {url : Bytes} (h : redirectTarget (clockSeconds (demoRun url).2)
    ((demoRun url).2.links.links.lookup (ascii "mine")) = some url) :
    RedirectsTo (demoServer (demoRun url).2) 0 demoRequest url :=
  (demoServer_serves _ 0).redirectsTo (demoRun_history url) rfl rfl
    ((redirects_iff (demoRun_history url) _ _ _).mpr h)

def demoUrl : Bytes := ascii "https://a.example"

theorem redirect_reads_back_demo :
    ReadsBack ((demoServer (demoRun demoUrl).2).onRequest 0 demoRequest) :=
  (redirect_reads_back_iff (demoServer_redirectsTo (by decide))).mpr
    (show findCRLF demoUrl = none by decide)

def splittingUrl : Bytes := ascii "http://a.example" ++ 13 :: 10 :: ascii "Set-Cookie: b=c"

/-- The service accepts the URL, and what is sent for it does not read back. -/
theorem accepted_url_splits :
    (∃ link, (createShortLink (overMemory demoApi) splittingUrl none 1 (some (ascii "mine"))).run
      (demoState .empty) = (.ok (some link), (demoRun splittingUrl).2)) ∧
    ¬ ReadsBack ((demoServer (demoRun splittingUrl).2).onRequest 0 demoRequest) := by
  refine ⟨⟨_, rfl⟩, ?_⟩
  intro hreads
  have hredirect : RedirectsTo (demoServer (demoRun splittingUrl).2) 0 demoRequest splittingUrl :=
    demoServer_redirectsTo (by decide)
  obtain ⟨requestId, pattern, hvalid, hsent⟩ := onRequest_redirect hredirect
  rw [hsent] at hreads
  have hclean := (redirect_readsBack_iff (closeRequested demoRequest) splittingUrl requestId
    hvalid).mp hreads
  exact absurd hclean (by decide)

end ResponseSplitting
