import HaoShortLink.HttpContexts
import HaoShortLink.HttpResponses
import HaoShortLink.RequestGrammars

/-! HttpServer.cpp on one plain connection: what each delivery of input makes it do. -/
namespace HttpServers

open Cpp HttpRequests HttpResponses HttpContexts RequestIds RequestGrammars
open Resumable (Scanner Verdict)

/-- What a connection runs in. handleRequest lets no exception out; its n-th answer on the
connection may depend on everything that happened elsewhere in the meantime. -/
structure HttpServer where
  handleRequest : ℕ → HttpRequest → HttpResponse → HttpResponse
  processNonce : ℕ
  /-- The sequence value that the n-th identifier generated here gets. -/
  requestSequence : ℕ → ℕ

inductive Effect where
  /-- onRequest is called. -/
  | dispatched (request : HttpRequest)
  | answered (response : HttpResponse)
  /-- sendErrorResponse. -/
  | rejected (response : HttpResponse)
  deriving DecidableEq

structure Connection where
  context : HttpContext := {}
  buffer : Bytes := []
  effects : List Effect := []
  deriving DecidableEq

namespace HttpServer

def errorResponse (s : HttpServer) (n : ℕ) : HttpResponse :=
  (({} : HttpResponse).setErrorResponse 400 (ascii "bad_request") (ascii "Bad Request")).addHeader
    (ascii "X-Request-ID") (generateRequestId s.processNonce (s.requestSequence n))

def closeRequested (request : HttpRequest) : Bool :=
  let connection := request.getHeader (ascii "Connection")
  connection == ascii "close" ||
    (request.version == ascii "HTTP/1.0" && connection != ascii "Keep-Alive")

def onRequest (s : HttpServer) (n : ℕ) (request : HttpRequest) : HttpResponse :=
  let requestId := chooseRequestId (request.getHeader (ascii "X-Request-ID")) s.processNonce
    (s.requestSequence n)
  let observed := { request with requestId := requestId }
  let response := s.handleRequest n observed { closeConnection := closeRequested observed }
  response.addHeader (ascii "X-Request-ID") requestId

/-- One delivery. It does not return when the parser spins. -/
def onMessage (s : HttpServer) (c : Connection) (chunk : Bytes) : Option Connection :=
  let n := c.effects.length
  match parseRequest c.context (c.buffer ++ chunk) with
  | .pending context buffer => some { c with context := context, buffer := buffer }
  | .finished .gotAll context buffer =>
    some ⟨context.reset, buffer, c.effects ++
      [.dispatched context.request, .answered (s.onRequest n context.request)]⟩
  | .finished .malformed context buffer =>
    some ⟨context, buffer, c.effects ++ [.rejected (s.errorResponse n)]⟩
  | .finished (.threw _) context buffer =>
    some ⟨context, buffer, c.effects ++ [.rejected (s.errorResponse n)]⟩
  | .finished .spins _ _ => none

def onMessages (s : HttpServer) (c : Connection) : List Bytes → Option Connection
  | [] => some c
  | chunk :: chunks => (s.onMessage c chunk).bind fun c' => onMessages s c' chunks

end HttpServer

theorem turn_again_state {c c' : HttpContext} {b b' : Bytes} (h : turn c b = .again c' b') :
    c'.state = .expectHeaders ∨ c'.state = .expectBody := by
  obtain ⟨state, request⟩ := c
  cases state with
  | expectRequestLine =>
    simp only [turn, requestLineTurn] at h
    split at h
    · cases h
    · split at h <;> cases h
      exact .inl rfl
  | expectHeaders =>
    simp only [turn, headerTurn, endOfHeaders] at h
    repeat' split at h
    all_goals cases h
    all_goals simp
  | expectBody =>
    simp only [turn, bodyTurn] at h
    split at h <;> cases h
  | gotAll => cases h

/-- A turn that stops has read everything or keeps the state, and spins in kGotAll alone. -/
theorem turn_stop_state {c c' : HttpContext} {b b' : Bytes} {o : Outcome}
    (h : turn c b = .stop o c' b') : o = .gotAll ∧ c'.state = .gotAll ∨
      o ≠ .gotAll ∧ c'.state = c.state ∧ (o = .spins → c.state = .gotAll) := by
  obtain ⟨state, request⟩ := c
  cases state with
  | expectRequestLine =>
    simp only [turn, requestLineTurn] at h
    split at h
    · cases h
    · split at h <;> cases h
      simp
  | expectHeaders =>
    simp only [turn, headerTurn, endOfHeaders] at h
    repeat' split at h
    all_goals cases h
    all_goals simp
  | expectBody =>
    simp only [turn, bodyTurn] at h
    split at h <;> cases h
    simp
  | gotAll =>
    cases h
    simp

theorem turn_again_live {c c' : HttpContext} {b b' : Bytes} (h : turn c b = .again c' b') :
    c'.state ≠ .gotAll := by
  rcases turn_again_state h with hstate | hstate <;> rw [hstate] <;> decide

theorem turn_stop_live {c c' : HttpContext} {b b' : Bytes} {o : Outcome}
    (h : turn c b = .stop o c' b') (hlive : c.state ≠ .gotAll) :
    o = .gotAll ∨ o ≠ .spins ∧ c'.state ≠ .gotAll := by
  rcases turn_stop_state h with ⟨ho, -⟩ | ⟨-, hstate, hspins⟩
  · exact .inl ho
  · rw [hstate]
    exact .inr ⟨fun ho => hlive (hspins ho), hlive⟩

theorem parse_live {c : HttpContext} {b : Bytes} (hlive : c.state ≠ .gotAll) :
    (∃ c' rest, parseRequest c b = .pending c' rest ∧ c'.state ≠ .gotAll) ∨
      ∃ o c' rest, parseRequest c b = .finished o c' rest ∧
        (o = .gotAll ∨ o ≠ .spins ∧ c'.state ≠ .gotAll) := by
  induction c, b using Scanner.run_induction (M := parser) with
  | again c b c' b' ht ih =>
    rw [parseRequest, Scanner.run_again ht]
    exact ih (turn_again_live ht)
  | stop c b o c' b' ht => exact .inr ⟨o, c', b', Scanner.run_stop ht, turn_stop_live ht hlive⟩
  | starved c b ht => exact .inl ⟨c, b, Scanner.run_starved ht, hlive⟩

theorem onMessage_cases (s : HttpServer) {c : Connection} (chunk : Bytes)
    (hlive : c.context.state ≠ .gotAll) :
    (∃ context rest, parseRequest c.context (c.buffer ++ chunk) = .finished .gotAll context rest ∧
      s.onMessage c chunk = some ⟨{}, rest, c.effects ++ [.dispatched context.request,
        .answered (s.onRequest c.effects.length context.request)]⟩) ∨
    (∃ context rest, parseRequest c.context (c.buffer ++ chunk) = .pending context rest ∧
      context.state ≠ .gotAll ∧ s.onMessage c chunk = some ⟨context, rest, c.effects⟩) ∨
    ¬ Completes c.context (c.buffer ++ chunk) ∧ ∃ context rest, context.state ≠ .gotAll ∧
      s.onMessage c chunk =
        some ⟨context, rest, c.effects ++ [.rejected (s.errorResponse c.effects.length)]⟩ := by
  rcases parse_live (b := c.buffer ++ chunk) hlive with
    ⟨context, rest, hparse, hstate⟩ | ⟨o, context, rest, hparse, ho⟩
  · exact .inr (.inl ⟨context, rest, hparse, hstate, by simp only [HttpServer.onMessage, hparse]⟩)
  · cases o with
    | gotAll =>
      exact .inl ⟨context, rest, hparse, by
        simp only [HttpServer.onMessage, hparse, reset_eq]⟩
    | malformed =>
      refine .inr (.inr ⟨?_, context, rest, by simpa using ho, ?_⟩)
      · rintro ⟨context', rest', hall⟩
        rw [hparse] at hall
        cases hall
      · simp only [HttpServer.onMessage, hparse]
    | threw e =>
      refine .inr (.inr ⟨?_, context, rest, by simpa using ho, ?_⟩)
      · rintro ⟨context', rest', hall⟩
        rw [hparse] at hall
        cases hall
      · simp only [HttpServer.onMessage, hparse]
    | spins => simp at ho

namespace Effect

def IsDispatch : Effect → Prop
  | .dispatched _ => True
  | _ => False

/-- The server has decided to close: a response that closes, or any parse error. -/
def Closes : Effect → Prop
  | .answered response => response.closeConnection = true
  | .rejected _ => True
  | .dispatched _ => False

end Effect

def HasClosed (effects : List Effect) : Prop := ∃ e ∈ effects, e.Closes

/-- No route handler runs after a decision to close. -/
def NothingAfterClose (effects : List Effect) : Prop :=
  effects.Pairwise fun earlier later => earlier.Closes → ¬ later.IsDispatch

end HttpServers
