import HaoShortLink.AuthServices
import HaoShortLink.SameOriginPolicies
import HaoShortLink.UtcTimestamps

/-! The handlers for users and sessions (AuthHttp.cpp). -/
namespace AuthHttp

open Cpp Actions HttpRequests HttpResponses JsonValues AuthRepositories AuthServices ServerStates
open ServerStates.Server SameOriginPolicies
open UtcTimestamps (formatUtcTimestamp)

def hasJsonContentType (request : HttpRequest) : Bool :=
  contains (request.getHeader (ascii "Content-Type")) (ascii "application/json")

def secureSuffix (config : AuthHttpConfig) : Bytes :=
  if config.cookieSecure then ascii "; Secure" else []

def userJson (user : User) : Bytes :=
  ascii "\x7b\"id\":" ++ toDecimal user.id ++
    ascii ",\"username\":\"" ++ escapeJsonString user.username ++
    ascii "\",\"status\":\"" ++ userStatusToString user.status ++
    ascii "\",\"created_at\":\"" ++ formatUtcTimestamp user.createdAt ++
    ascii "\",\"updated_at\":\"" ++ formatUtcTimestamp user.updatedAt ++ ascii "\"\x7d"

/-- The loop over the parts of the Cookie header; the first part with the name wins. -/
def sessionTokenFromRequest (request : HttpRequest) (config : AuthHttpConfig) : Bytes :=
  let parts := (request.getHeader (ascii "Cookie")).splitOn 59
  (parts.findSome? fun part =>
    let item := part.dropWhile isSpace
    let name := item.takeWhile (· != 61)
    match item.drop name.length with
    | [] => none
    | _ :: value => if name = config.cookieName then some value else none).getD []

variable {A L : Type} (api : ShortLinkHttpApi A L)

def setSessionCookie (session : AuthenticatedSession) : Server A L Unit := do
  let now ← nowEpochSeconds
  addHeader "Set-Cookie" (api.config.auth.cookieName ++ ascii "=" ++ session.token ++
    ascii "; Path=/; HttpOnly; SameSite=Lax; Max-Age=" ++
    signedToDecimal (session.expiresAt - now) ++ secureSuffix api.config.auth)
  addHeader "Cache-Control" (ascii "no-store")

def clearSessionCookie : Server A L Unit := do
  addHeader "Set-Cookie" (api.config.auth.cookieName ++
    ascii "=; Path=/; HttpOnly; SameSite=Lax; Max-Age=0" ++ secureSuffix api.config.auth)
  addHeader "Cache-Control" (ascii "no-store")

def parseCredentials (request : HttpRequest) : Option (Bytes × Bytes) :=
  if !hasJsonContentType request || 4096 < request.body.length then none
  else do
    let object ← api.json.parseIgnoringComments request.body
    guard (object.isObject ∧ object.items.length = 2)
    let username ← object.stringAt (ascii "username")
    let password ← object.stringAt (ascii "password")
    pure (username, password)

def respondWithSession (session : AuthenticatedSession) (status : ℕ) (statusMessage : String) :
    Server A L Unit := do
  setSessionCookie api session
  respond fun r => (r.setStatus status (ascii statusMessage)).setJsonBody
    (ascii "\x7b\"user\":" ++ userJson session.user ++ ascii ",\"session_expires_at\":\"" ++
      formatUtcTimestamp session.expiresAt ++ ascii "\"\x7d")

def answerRegistration (result : Result) : Server A L Unit :=
  match result.status, result.session with
  | .success, some session => respondWithSession api session 201 "Created"
  | .invalidUsername, _ =>
    setErrorResponse 400 "invalid_username" "Username must be 3-32 ASCII letters, numbers, _ or -"
  | .invalidPassword, _ =>
    setErrorResponse 400 "invalid_password" "Password must be between 10 and 128 bytes"
  | .usernameConflict, _ => setErrorResponse 409 "username_conflict" "Username already exists"
  | _, _ => setErrorResponse 500 "authentication_error" "Unable to create account"

def handleRegister (request : HttpRequest) : Server A L Unit := do
  addHeader "Cache-Control" (ascii "no-store")
  if ← requireSameOriginRequest request then
    if !api.config.auth.registrationEnabled then
      setErrorResponse 403 "registration_disabled" "Registration is disabled"
    else
      match parseCredentials api request with
      | none =>
        setErrorResponse 400 "invalid_request" "Request must contain username and password"
      | some (username, password) => do
        let result ← registerUser api username password
        answerRegistration api result
  else pure ()

def answerLogin (result : Result) : Server A L Unit :=
  match result.status, result.session with
  | .success, some session => respondWithSession api session 200 "OK"
  | .invalidCredentials, _ =>
    setErrorResponse 401 "invalid_credentials" "Invalid username or password"
  | _, _ => setErrorResponse 500 "authentication_error" "Unable to create session"

def handleLogin (request : HttpRequest) : Server A L Unit := do
  addHeader "Cache-Control" (ascii "no-store")
  if ← requireSameOriginRequest request then
    match parseCredentials api request with
    | none => setErrorResponse 400 "invalid_request" "Request must contain username and password"
    | some (username, password) => do
      let result ← login api username password
      answerLogin api result
  else pure ()

/-- DELETE /api/auth/session. -/
def handleLogout (request : HttpRequest) : Server A L Unit := do
  addHeader "Cache-Control" (ascii "no-store")
  if ← requireSameOriginRequest request then do
    logout api (sessionTokenFromRequest request api.config.auth)
    clearSessionCookie api
    respond fun r => ((r.setStatus 204 (ascii "No Content")).setContentLength 0).setBody []
  else pure ()

def authenticateRequest (request : HttpRequest) : Server A L (Option User) :=
  let token := sessionTokenFromRequest request api.config.auth
  if token = [] then pure none else authenticate api token

def requireAuthenticatedUser (request : HttpRequest) : Server A L (Option User) := do
  match ← authenticateRequest api request with
  | none => do
    addHeader "Cache-Control" (ascii "no-store")
    setErrorResponse 401 "authentication_required" "Authentication required"
    pure none
  | some user => pure (some user)

/-- GET /api/me. -/
def handleMe (request : HttpRequest) : Server A L Unit := do
  match ← requireAuthenticatedUser api request with
  | none => pure ()
  | some user => do
    addHeader "Cache-Control" (ascii "no-store")
    respond fun r => (r.setStatus 200 (ascii "OK")).setJsonBody (userJson user)

/-- The user whose valid session the request carries, by the clock reading that comes next. -/
def sessionUser (request : HttpRequest) (s : ServerState A L) : Option User :=
  let token := sessionTokenFromRequest request api.config.auth
  if token.length = 64 then
    match api.authRepository.findUserBySession (tokenHash api token) ((s.clock 0).tdiv 1000)
        s.auth with
    | .ok user => user
    | .error _ => none
  else none

theorem authenticateRequest_harmless (request : HttpRequest) :
    Harmless (authenticateRequest api request) := by
  unfold authenticateRequest
  dsimp only
  split
  · exact .pure _
  · exact authenticate_harmless api _

theorem requireAuthenticatedUser_harmless (request : HttpRequest) :
    Harmless (requireAuthenticatedUser api request) := by
  refine .bind (authenticateRequest_harmless api request) ?_
  intro user
  split
  · exact .bind (.addHeader _ _) fun _ => .bind (.setErrorResponse _ _ _) fun _ => .pure _
  · exact .pure _

theorem handleMe_harmless (request : HttpRequest) : Harmless (handleMe api request) := by
  refine .bind (requireAuthenticatedUser_harmless api request) ?_
  intro user
  split
  · exact .pure _
  · exact .bind (.addHeader _ _) fun _ => .respond _

theorem authenticateRequest_run (request : HttpRequest) (s : ServerState A L) :
    ((authenticateRequest api request).run s).1 =
      let token := sessionTokenFromRequest request api.config.auth
      if token.length = 64 then
        (api.authRepository.findUserBySession (tokenHash api token) ((s.clock 0).tdiv 1000)
          s.auth).mapError .std
      else .ok none := by
  unfold authenticateRequest
  dsimp only
  split
  · next h => simp [h]
  · unfold authenticate
    split
    · rfl
    · next h =>
      rw [if_pos (Decidable.not_not.mp h)]
      rfl

theorem requireAuthenticatedUser_some {request : HttpRequest} {s : ServerState A L} {user : User}
    (h : ((requireAuthenticatedUser api request).run s).1 = .ok (some user)) :
    sessionUser api request s = some user := by
  have hauth : ((authenticateRequest api request).run s).1 = .ok (some user) := by
    unfold requireAuthenticatedUser at h
    rw [Action.run_bind] at h
    rcases hrun : (authenticateRequest api request).run s with ⟨e | found, s'⟩
    · rw [hrun] at h
      cases h
    · rw [hrun] at h
      cases found with
      | none => cases h
      | some found => exact h
  rw [authenticateRequest_run] at hauth
  dsimp only at hauth
  unfold sessionUser
  dsimp only
  split at hauth
  · next hlength =>
    rw [if_pos hlength]
    split
    · next found hfound =>
      rw [hfound] at hauth
      cases hauth
      rfl
    · next e hfound =>
      rw [hfound] at hauth
      cases hauth
  · cases hauth

theorem requireSameOriginRequest_sessionUser (request : HttpRequest) :
    Keeps (sessionUser api request) (requireSameOriginRequest request : Server A L Bool) := by
  refine keeps_bind (fun _ => rfl) ?_
  intro _
  split
  · exact keeps_pure _
  · exact keeps_bind (fun _ => rfl) fun _ => keeps_pure _

end AuthHttp
