import HaoShortLink.JsonValues

/-! The access event and its contract (AccessEvent.cpp). -/
namespace AccessEvents

open Cpp JsonValues

def kAccessEventSchemaVersion : ℤ := 1
def kAccessEventType : Bytes := ascii "short_link_access"
def kEventIdLength : ℕ := 32
def kMaxRequestIdLength : ℕ := 64
def kMaxCodeLength : ℕ := 128

inductive AccessEventResult where
  | success
  | notFound
  | disabled
  | expired
  | error
  deriving DecidableEq, Repr

inductive AccessEventParseError where
  | invalidJson
  | unsupportedSchema
  | unsupportedEventType
  | invalidContract
  deriving DecidableEq, Repr

structure AccessEvent where
  eventId : Bytes
  occurredAtMs : ℤ
  requestId : Bytes
  code : Bytes
  result : AccessEventResult
  httpStatus : ℤ
  deriving DecidableEq, Repr

def isLowercaseHex (value : Bytes) : Bool :=
  value.length == kEventIdLength && value.all fun ch => isDigit ch || (97 ≤ ch && ch ≤ 102)

def isSafeRequestId (value : Bytes) : Bool :=
  !value.isEmpty && value.length ≤ kMaxRequestIdLength &&
    value.all fun ch => isAlnum ch || ch == 46 || ch == 95 || ch == 45

def expectedHttpStatus : AccessEventResult → ℤ
  | .success => 302
  | .notFound | .disabled | .expired => 404
  | .error => 500

def accessEventResultToString : AccessEventResult → Bytes
  | .success => ascii "success"
  | .notFound => ascii "not_found"
  | .disabled => ascii "disabled"
  | .expired => ascii "expired"
  | .error => ascii "error"

def parseAccessEventResult (value : Bytes) : Option AccessEventResult :=
  if value = ascii "success" then some .success
  else if value = ascii "not_found" then some .notFound
  else if value = ascii "disabled" then some .disabled
  else if value = ascii "expired" then some .expired
  else if value = ascii "error" then some .error
  else none

theorem accessEventResultToString_injective : Function.Injective accessEventResultToString := by
  intro a b h
  cases a <;> cases b <;> first | rfl | exact absurd h (by decide)

def isValidAccessEvent (event : AccessEvent) : Bool :=
  isLowercaseHex event.eventId && 0 < event.occurredAtMs && isSafeRequestId event.requestId &&
    !event.code.isEmpty && event.code.length ≤ kMaxCodeLength &&
    event.httpStatus == expectedHttpStatus event.result

theorem isValidAccessEvent_occurred {e : AccessEvent} (h : isValidAccessEvent e) :
    0 < e.occurredAtMs := by
  simp only [isValidAccessEvent, Bool.and_eq_true, decide_eq_true_eq] at h
  exact h.1.1.1.1.2

def accessEventPayload (event : AccessEvent) : Json :=
  .object [
    (ascii "schema_version", .integer kAccessEventSchemaVersion),
    (ascii "event_type", .string kAccessEventType),
    (ascii "event_id", .string event.eventId),
    (ascii "occurred_at_ms", .integer event.occurredAtMs),
    (ascii "request_id", .string event.requestId),
    (ascii "code", .string event.code),
    (ascii "result", .string (accessEventResultToString event.result)),
    (ascii "http_status", .integer event.httpStatus)]

def serializeAccessEvent (json : JsonLibrary) (event : AccessEvent) : Except Exception Bytes :=
  if !isValidAccessEvent event then .error (.invalidArgument (ascii "invalid access event"))
  else json.dump (accessEventPayload event)

/-- The event, or the error the source puts beside an absent event. -/
abbrev AccessEventParseResult := Except AccessEventParseError AccessEvent

def orContractError {α : Type} (value : Option α) : Except AccessEventParseError α :=
  value.elim (.error .invalidContract) .ok

def parseAccessEventDetailed (json : JsonLibrary) (payload : Bytes) : AccessEventParseResult := do
  let parsed ← (json.parse payload).elim (.error .invalidJson) .ok
  -- a value that is not an object has no members, and is refused as the source refuses it
  let schemaVersion ← orContractError (parsed.integerAt (ascii "schema_version"))
  if toInt32 schemaVersion ≠ kAccessEventSchemaVersion then throw .unsupportedSchema
  let eventType ← orContractError (parsed.stringAt (ascii "event_type"))
  if eventType ≠ kAccessEventType then throw .unsupportedEventType
  let eventId ← orContractError (parsed.stringAt (ascii "event_id"))
  let occurredAtMs ← orContractError (parsed.integerAt (ascii "occurred_at_ms"))
  let requestId ← orContractError (parsed.stringAt (ascii "request_id"))
  let code ← orContractError (parsed.stringAt (ascii "code"))
  let result ← orContractError (parsed.stringAt (ascii "result"))
  let httpStatus ← orContractError (parsed.integerAt (ascii "http_status"))
  let result ← orContractError (parseAccessEventResult result)
  let event : AccessEvent :=
    ⟨eventId, toInt64 occurredAtMs, requestId, code, result, toInt32 httpStatus⟩
  if !isValidAccessEvent event then throw .invalidContract
  return event

end AccessEvents
