import HaoShortLink.ShortLinkServices
import HaoShortLink.RequestIds

/-! GET /s/:code (RedirectHandler.cpp). -/
namespace RedirectHandlers

open Cpp Actions HttpRequests HttpResponses ServerStates ServerStates.Server ShortLinkServices
open AccessEvents (AccessEvent AccessEventResult)
open RequestIds (hex16)

variable {A L : Type} (api : ShortLinkHttpApi A L)

def generateAccessEventId : Server A L Bytes :=
  ⟨fun s =>
    let next := (s.eventSequence + 1) % 2 ^ 64
    (.ok (hex16 api.eventNonce ++ hex16 next), { s with eventSequence := next })⟩

def publishAccessEvent (request : HttpRequest) (code : Bytes) (result : AccessEventResult)
    (httpStatus : ℤ) : Server A L Unit := do
  let eventId ← generateAccessEventId api
  let occurredAtMs ← nowEpochMilliseconds
  publish ⟨eventId, occurredAtMs, request.requestId, code, result, httpStatus⟩

def eventResult : RedirectStatus → AccessEventResult × ℤ
  | .success => (.success, 302)
  | .disabled => (.disabled, 404)
  | .expired => (.expired, 404)
  | .notFound => (.notFound, 404)

def redirectOrNotFound (r : HttpResponse) : Option Bytes → HttpResponse
  | some originalUrl => r.setRedirect originalUrl
  | none =>
    r.setErrorResponse 404 (ascii "short_link_not_found") (ascii "Short link not found")

def handleRedirect (request : HttpRequest) : Server A L Unit := do
  let code := request.getPathParameters (ascii "param1")
  let result ← tryCatch (resolve api code) fun e => do
    publishAccessEvent api request code .error 500
    throw e
  let (eventResult, httpStatus) := eventResult result.status
  publishAccessEvent api request code eventResult httpStatus
  if result.status ≠ .success then respond fun r => redirectOrNotFound r none
  else respond fun r => redirectOrNotFound r result.originalUrl

theorem publishAccessEvent_harmless (request : HttpRequest) (code : Bytes)
    (result : AccessEventResult) (httpStatus : ℤ) :
    Harmless (publishAccessEvent api request code result httpStatus) :=
  .bind (fun _ => rfl) fun _ => .bind .nowEpochMilliseconds fun _ => .publish _

theorem handleRedirect_harmless (request : HttpRequest) :
    Harmless (handleRedirect api request) := by
  refine .bind (.tryCatch (resolve_harmless api _) fun e => ?_) fun result => ?_
  · exact .bind (publishAccessEvent_harmless api _ _ _ _) fun _ => .throw e
  · refine .bind (publishAccessEvent_harmless api _ _ _ _) ?_
    intro _
    split <;> exact .respond _

end RedirectHandlers
