import HaoShortLink.AuthHttp
import HaoShortLink.ShortLinkServices

/-! The handlers for short links (ShortLinkHttpApi.cpp). -/
namespace ApiHandlers

open Cpp Actions HttpRequests HttpResponses JsonValues ShortLinks AuthRepositories ServerStates
open ServerStates.Server ShortLinkServices AccessStatistics
open AuthHttp (hasJsonContentType requireAuthenticatedUser)
open UtcTimestamps (parseUtcTimestamp formatUtcTimestamp formatUtcTimestampMs)

def member (name : String) (value : Json) : Bytes × Json := (ascii name, value)

def text (s : String) : Json := .string (ascii s)

def timestampJson (epochSeconds : Option ℤ) : Json :=
  match epochSeconds with
  | none => .null
  | some seconds => .string (formatUtcTimestamp seconds)

def timestampMsJson (epochMilliseconds : Option ℤ) : Json :=
  match epochMilliseconds with
  | none => .null
  | some milliseconds => .string (formatUtcTimestampMs milliseconds)

def recordJson (record : ShortLinkRecord) : Json :=
  .ofMembers [
    member "id" (.integer record.id),
    member "code" (.string record.code),
    member "short_url" (.string (ascii "/s/" ++ record.code)),
    member "original_url" (.string record.originalUrl),
    member "status" (.string (statusToString record.status)),
    member "expires_at" (timestampJson record.expiresAt),
    member "created_at" (.string (formatUtcTimestamp record.createdAt)),
    member "updated_at" (.string (formatUtcTimestamp record.updatedAt))]

def parseUnsigned (value : Bytes) : Option ℕ :=
  if value = [] then none
  else value.foldlM (fun result ch =>
    let digit := ch.toNat - 48
    if !isDigit ch || (2 ^ 64 - 1 - digit) / 10 < result then none
    else some (result * 10 + digit)) 0

structure FieldError where
  code : String
  message : String

variable {A L : Type} (api : ShortLinkHttpApi A L)

def refuse (e : FieldError) : Server A L Unit := setErrorResponse 400 e.code e.message

/-- The status is set before the body is dumped, which may throw. -/
def setJson (status : ℕ) (message : String) (body : Json) : Server A L Unit := do
  respond fun r => r.setStatus status (ascii message)
  match api.json.dump body with
  | .ok body => respond fun r => r.setJsonBody body
  | .error e => throw (.std e)

def notFound : Server A L Unit :=
  setErrorResponse 404 "short_link_not_found" "Short link not found"

def handleHealth : Server A L Unit :=
  setJson api 200 "OK" (.ofMembers [member "status" (text "ok")])

def handleReadiness : Server A L Unit := do
  let healthy ← Action.read ServerState.mysqlHealthy
  if !api.config.requiresMySql || healthy then
    setJson api 200 "OK" (.ofMembers [member "status" (text "ready")])
  else setJson api 503 "Service Unavailable" (.ofMembers [member "status" (text "not_ready")])

/-- A user who is let in also gets the header that forbids caching. -/
def authenticate (request : HttpRequest) : Server A L (Option User) := do
  match ← requireAuthenticatedUser api request with
  | none => pure none
  | some user => do
    addHeader "Cache-Control" (ascii "no-store")
    pure (some user)

def parseObject (request : HttpRequest) : Except FieldError Json :=
  if !hasJsonContentType request || 16384 < request.body.length then
    .error ⟨"invalid_request", "Content-Type must be application/json"⟩
  else
    match (api.json.parseIgnoringComments request.body).filter Json.isObject with
    | none => .error ⟨"invalid_request", "Request body must be a JSON object"⟩
    | some object => .ok object

structure CreateRequest where
  url : Bytes
  expiresAt : Option ℤ
  customCode : Option Bytes

def createFields : List Bytes := [ascii "url", ascii "expires_at", ascii "custom_code"]

/-- The clock is read when an expiry is given. -/
def parseExpiry (value : Option Json) : Server A L (Except FieldError (Option ℤ)) :=
  match value.filter (fun v => !v.isNull) with
  | none => pure (.ok none)
  | some value =>
    match value.asString.bind parseUtcTimestamp with
    | none => pure (.error ⟨"invalid_expires_at", "expires_at must be a UTC timestamp"⟩)
    | some expiresAt => do
      let now ← nowEpochSeconds
      if expiresAt ≤ now then
        pure (.error ⟨"invalid_expires_at", "expires_at must be in the future"⟩)
      else pure (.ok (some expiresAt))

def parseCustomCode (value : Option Json) : Except FieldError (Option Bytes) :=
  match value.filter (fun v => !v.isNull) with
  | none => .ok none
  | some value =>
    match value.asString with
    | none => .error ⟨"invalid_custom_code", "custom_code must be a string"⟩
    | some code => .ok (some code)

def parseCreate (request : HttpRequest) : Server A L (Except FieldError CreateRequest) :=
  match parseObject api request with
  | .error e => pure (.error e)
  | .ok object =>
    if object.items.any fun item => !createFields.contains item.1 then
      pure (.error ⟨"invalid_request", "Unknown create field"⟩)
    else
      match object.stringAt (ascii "url") with
      | none => pure (.error ⟨"invalid_request", "url must be a string"⟩)
      | some url => do
        match ← parseExpiry (object.find (ascii "expires_at")) with
        | .error e => pure (.error e)
        | .ok expiresAt =>
          match parseCustomCode (object.find (ascii "custom_code")) with
          | .error e => pure (.error e)
          | .ok customCode => pure (.ok ⟨url, expiresAt, customCode⟩)

def recordCreate (result : CreateResult) : Server A L Unit :=
  record (.create result api.config.metricsStorage)

def createRefusal (customCode : Option Bytes) : FieldError :=
  match customCode with
  | some _ => ⟨"invalid_custom_code", "custom_code must contain 4-32 allowed characters"⟩
  | none => ⟨"invalid_url", "URL must start with http:// or https:// and expiry must be future"⟩

def performCreate (create : CreateRequest) (ownerId : ℕ) : Server A L Unit :=
  tryCatch (do
    match ← createShortLink api create.url create.expiresAt ownerId create.customCode with
    | none => do
      recordCreate api .invalid
      refuse (createRefusal create.customCode)
    | some created => do
      setJson api 201 "Created" (recordJson created.record)
      recordCreate api .success)
    fun
    | .shortCodeConflict => do
      recordCreate api .invalid
      setErrorResponse 409 "short_code_conflict" "Short code already exists"
    | e => do
      recordCreate api .error
      throw e

/-- False when the request is over the limit; an error of the limiter lets it pass. -/
def passRateLimiter : Server A L Bool :=
  if api.hasRateLimiter then do
    let result ← checkRateLimiter (ascii "global")
    record (.rateLimit result.status)
    match result.status with
    | .allowed => pure true
    | .limited => do
      addHeader "Retry-After" (signedToDecimal result.retryAfterSeconds)
      setErrorResponse 429 "rate_limit_exceeded" "Too many requests"
      respond fun r => { r with statusMessage := ascii "Too Many Requests" }
      pure false
    | .error => do
      record .rateLimitBackendError
      pure true
  else pure true

def handleCreate (request : HttpRequest) (ownerId : ℕ) : Server A L Unit := do
  if ← passRateLimiter api then
    match ← parseCreate api request with
    | .error e => do
      recordCreate api .invalid
      refuse e
    | .ok create => performCreate api create ownerId
  else pure ()

def handleDetail (request : HttpRequest) (ownerId : ℕ) : Server A L Unit := do
  match ← getForOwner api (request.getPathParameters (ascii "param1")) ownerId with
  | none => notFound
  | some record => setJson api 200 "OK" (recordJson record)

def parseCursor (value : Bytes) : Except FieldError ℕ :=
  if value = [] then .ok 0
  else
    match parseUnsigned value with
    | none => .error ⟨"invalid_cursor", "cursor must be an unsigned integer"⟩
    | some cursor => .ok cursor

def parseLimit (value : Bytes) : Except FieldError ℕ :=
  if value = [] then .ok 50
  else
    match (parseUnsigned value).filter fun limit => 1 ≤ limit && limit ≤ 100 with
    | none => .error ⟨"invalid_limit", "limit must be between 1 and 100"⟩
    | some limit => .ok limit

def parseStatusFilter (value : Bytes) : Except FieldError (Option Status) :=
  if value = [] then .ok none
  else
    match parseStatus value with
    | none => .error ⟨"invalid_status", "status must be active or disabled"⟩
    | some status => .ok (some status)

/-- The query asks for one record more than the page shows. -/
def parseListQuery (request : HttpRequest) (ownerId : ℕ) : Except FieldError (ListQuery × ℕ) := do
  let cursor ← parseCursor (request.getQueryParameters (ascii "cursor"))
  let limit ← parseLimit (request.getQueryParameters (ascii "limit"))
  let status ← parseStatusFilter (request.getQueryParameters (ascii "status"))
  pure (⟨cursor, limit + 1, some ownerId, status⟩, limit)

def listJson (records : List ShortLinkRecord) (requestedLimit : ℕ) : Json :=
  let page := if requestedLimit < records.length then records.take requestedLimit else records
  let nextCursor :=
    match page.getLast? with
    | some last => if requestedLimit < records.length then Json.integer last.id else .null
    | none => .null
  .ofMembers [member "items" (.array (page.map recordJson)), member "next_cursor" nextCursor]

def handleList (request : HttpRequest) (ownerId : ℕ) : Server A L Unit :=
  match parseListQuery request ownerId with
  | .error e => refuse e
  | .ok (query, requestedLimit) => do
    let records ← list api query
    setJson api 200 "OK" (listJson records requestedLimit)

def notUpdatable : FieldError :=
  ⟨"invalid_request", "Only status and expires_at may be updated"⟩

def updateField (update : LifecycleUpdate) (item : Bytes × Json) :
    Except FieldError LifecycleUpdate :=
  if item.1 = ascii "status" ∧ item.2.asString.isSome then
    match item.2.asString.bind parseStatus with
    | none => .error ⟨"invalid_status", "status must be active or disabled"⟩
    | some status => .ok { update with status := some status }
  else if item.1 = ascii "expires_at" then
    if item.2.isNull then .ok { update with expiresAtProvided := true }
    else
      match item.2.asString.bind parseUtcTimestamp with
      | none => .error ⟨"invalid_expires_at", "expires_at must be null or a UTC timestamp"⟩
      | some expiresAt =>
        .ok { update with expiresAtProvided := true, expiresAt := some expiresAt }
  else .error notUpdatable

def parseUpdate (request : HttpRequest) (ownerId : ℕ) : Except FieldError LifecycleUpdate := do
  let object ← parseObject api request
  if object.items = [] ∨ 2 < object.items.length then .error notUpdatable
  else object.items.foldlM updateField ⟨none, false, none, some ownerId⟩

def handleUpdate (request : HttpRequest) (ownerId : ℕ) : Server A L Unit :=
  match parseUpdate api request ownerId with
  | .error e => refuse e
  | .ok update => do
    match ← updateLifecycle api (request.getPathParameters (ascii "param1")) update with
    | none => notFound
    | some record => setJson api 200 "OK" (recordJson record)

abbrev Ended (A L : Type) := Except RepositoryException Unit × ServerState A L

def Answers (status : ℕ) (x : Ended A L) : Prop :=
  x.1 = .ok () ∧ x.2.response.statusCode = status

def LetsThrough (x : Ended A L) : Prop := ∃ e, x.1 = .error e

theorem Answers.status_eq {x : Ended A L} {status status' : ℕ} (h : Answers status x) :
    Answers status' x ↔ status = status' := by
  constructor
  · intro h'
    exact h.2.symm.trans h'.2
  · intro heq
    exact heq ▸ h

theorem Answers.not_letsThrough {x : Ended A L} {status : ℕ} (h : Answers status x) :
    ¬ LetsThrough x := by
  intro ⟨e, he⟩
  rw [h.1] at he
  cases he

theorem setJson_ok {body : Json} {written : Bytes} (h : api.json.dump body = .ok written)
    (status : ℕ) (message : String) (s : ServerState A L) :
    (setJson api status message body).run s = (.ok (), { s with
      response := (s.response.setStatus status (ascii message)).setJsonBody written }) := by
  rw [setJson, h]
  rfl

theorem setJson_error {body : Json} {e : Cpp.Exception} (h : api.json.dump body = .error e)
    (status : ℕ) (message : String) (s : ServerState A L) :
    (setJson api status message body).run s = (.error (.std e), { s with
      response := s.response.setStatus status (ascii message) }) := by
  rw [setJson, h]
  rfl

theorem setJson_harmless (status : ℕ) (message : String) (body : Json) :
    Harmless (setJson api status message body) := by
  refine .bind (.respond _) ?_
  intro _
  split
  · exact .respond _
  · exact .throw _

theorem notFound_harmless : Harmless (notFound : Server A L Unit) := .setErrorResponse _ _ _

theorem refuse_harmless (e : FieldError) : Harmless (refuse e : Server A L Unit) :=
  .setErrorResponse _ _ _

theorem authenticate_harmless (request : HttpRequest) : Harmless (authenticate api request) := by
  refine .bind (AuthHttp.requireAuthenticatedUser_harmless api request) ?_
  intro user
  split
  · exact .pure _
  · exact .bind (.addHeader _ _) fun _ => .pure _

theorem authenticate_some {request : HttpRequest} {s : ServerState A L} {user : User}
    (h : ((authenticate api request).run s).1 = .ok (some user)) :
    AuthHttp.sessionUser api request s = some user := by
  apply AuthHttp.requireAuthenticatedUser_some api
  unfold authenticate at h
  rw [Action.run_bind] at h
  rcases hrun : (requireAuthenticatedUser api request).run s with ⟨e | found, s'⟩
  · rw [hrun] at h
    cases h
  · rw [hrun] at h
    cases found with
    | none => cases h
    | some found => exact h

theorem handleHealth_harmless : Harmless (handleHealth api) := setJson_harmless api _ _ _

theorem handleReadiness_harmless : Harmless (handleReadiness api) := by
  refine .bind .query ?_
  intro healthy
  split <;> exact setJson_harmless api _ _ _

theorem handleDetail_harmless (request : HttpRequest) (ownerId : ℕ) :
    Harmless (handleDetail api request ownerId) := by
  refine .bind (.queryLinks _) ?_
  intro record
  split
  · exact notFound_harmless
  · exact setJson_harmless api _ _ _

theorem handleList_harmless (request : HttpRequest) (ownerId : ℕ) :
    Harmless (handleList api request ownerId) := by
  unfold handleList
  split
  · exact refuse_harmless _
  · exact .bind (.queryLinks _) fun _ => setJson_harmless api _ _ _

end ApiHandlers
