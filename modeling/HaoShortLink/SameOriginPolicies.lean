import HaoShortLink.ServerStates

/-! Which requests may change state (SameOriginPolicy.cpp). -/
namespace SameOriginPolicies

open Cpp Actions HttpRequests ServerStates ServerStates.Server

def asciiLower (value : Bytes) : Bytes := value.map toLower

def isValidAuthority (authority : Bytes) : Bool :=
  !authority.isEmpty &&
    authority.all fun ch => !(isSpace ch || ch == 47 || ch == 63 || ch == 35 || ch == 64)

/-- Clients that are not browsers commonly leave Origin out. -/
def isSameOriginRequest (request : HttpRequest) : Bool :=
  let fetchSite := asciiLower (request.getHeader (ascii "Sec-Fetch-Site"))
  let origin := request.getHeader (ascii "Origin")
  let host := request.getHeader (ascii "Host")
  let forwarded := asciiLower (request.getHeader (ascii "X-Forwarded-Proto"))
  let scheme := if forwarded = [] then ascii "http" else forwarded
  if fetchSite = ascii "cross-site" then false
  else if origin = [] then true
  else if !isValidAuthority host then false
  else if scheme ≠ ascii "http" ∧ scheme ≠ ascii "https" then false
  else asciiLower origin == scheme ++ ascii "://" ++ asciiLower host

variable {A L : Type}

def requireSameOriginRequest (request : HttpRequest) : Server A L Bool := do
  addHeader "Cache-Control" (ascii "no-store")
  if isSameOriginRequest request then pure true
  else do
    setErrorResponse 403 "origin_not_allowed" "Request origin is not allowed"
    pure false

theorem requireSameOriginRequest_harmless (request : HttpRequest) :
    Harmless (requireSameOriginRequest request : Server A L Bool) := by
  refine .bind (.addHeader _ _) ?_
  intro _
  split
  · exact .pure _
  · exact .bind (.setErrorResponse _ _ _) fun _ => .pure _

theorem requireSameOriginRequest_result (request : HttpRequest) (s : ServerState A L) :
    ((requireSameOriginRequest request).run s).1 = .ok (isSameOriginRequest request) := by
  unfold requireSameOriginRequest
  rw [Action.run_bind_ok rfl]
  split
  · next h => rw [h]; rfl
  · next h =>
    rw [Bool.not_eq_true] at h
    rw [h]
    rfl

/-- A guarded handler: whatever it would do, a request from another origin does no harm. -/
theorem harmless_of_cross_origin {request : HttpRequest} (h : isSameOriginRequest request = false)
    (handler : Server A L Unit) :
    Harmless (do
      if ← requireSameOriginRequest request then handler else pure ()) := by
  intro s
  apply (requireSameOriginRequest_harmless request s).bind
  intro same hsame
  rw [requireSameOriginRequest_result, h] at hsame
  obtain rfl : false = same := by simpa using hsame
  exact Harmless.pure () _

end SameOriginPolicies
