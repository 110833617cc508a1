import HaoShortLink.AccessEventConsumer
import HaoShortLink.Actions

/-! The access event on its way from the server to the consumer: what the consumer's parser
accepts, and that it reads back what the server serializes. -/
namespace EventFormats

open Cpp JsonValues AccessEvents
open Actions (bind_eq_ok)

structure Members (parsed : Json) (schemaVersion occurredAtMs httpStatus : ℤ)
    (event : AccessEvent) : Prop where
  schemaVersion : parsed.integerAt (ascii "schema_version") = some schemaVersion
  eventType : parsed.stringAt (ascii "event_type") = some kAccessEventType
  eventId : parsed.stringAt (ascii "event_id") = some event.eventId
  occurredAtMs : parsed.integerAt (ascii "occurred_at_ms") = some occurredAtMs
  requestId : parsed.stringAt (ascii "request_id") = some event.requestId
  code : parsed.stringAt (ascii "code") = some event.code
  result : parsed.stringAt (ascii "result") = some (accessEventResultToString event.result)
  httpStatus : parsed.integerAt (ascii "http_status") = some httpStatus

/-- The payload is the event as the contract has it. -/
structure Contract (json : JsonLibrary) (payload : Bytes) (event : AccessEvent) : Prop where
  members : ∃ parsed, json.parse payload = some parsed ∧ parsed.isObject ∧
    Members parsed 1 event.occurredAtMs event.httpStatus event
  occurredAtMs : 1 ≤ event.occurredAtMs ∧ event.occurredAtMs < 2 ^ 63
  valid : isValidAccessEvent event

theorem parseAccessEventResult_eq_some {value : Bytes} {result : AccessEventResult} :
    parseAccessEventResult value = some result ↔ value = accessEventResultToString result := by
  constructor
  · intro h
    simp only [parseAccessEventResult] at h
    split_ifs at h <;> (obtain rfl := Option.some.inj h; assumption)
  · rintro rfl
    cases result <;> decide

theorem elim_eq_ok {ε α : Type} {e : ε} {value : Option α} {a : α} :
    value.elim (.error e) .ok = (.ok a : Except ε α) ↔ value = some a := by
  cases value with
  | none =>
    constructor <;> intro h <;> cases h
  | some b =>
    constructor
    · intro h
      rw [Except.ok.inj h]
    · intro h
      rw [Option.some.inj h]
      rfl

theorem throw_if_eq_ok {ε α β : Type} {p : Prop} [Decidable p] {e : ε} {f : α → Except ε β}
    {y : Except ε β} {b : β} :
    (if p then (throw e : Except ε α) >>= f else y) = .ok b ↔ ¬ p ∧ y = .ok b := by
  by_cases h : p
  · rw [if_pos h]
    constructor
    · intro hthrow
      cases hthrow
    · intro hnot
      exact absurd h hnot.1
  · rw [if_neg h]
    exact ⟨fun hy => ⟨h, hy⟩, And.right⟩

theorem parse_eq_ok {json : JsonLibrary} {payload : Bytes} {event : AccessEvent} :
    parseAccessEventDetailed json payload = .ok event ↔
      ∃ parsed schemaVersion occurredAtMs httpStatus, json.parse payload = some parsed ∧
        Members parsed schemaVersion occurredAtMs httpStatus event ∧
        toInt32 schemaVersion = 1 ∧ toInt64 occurredAtMs = event.occurredAtMs ∧
        toInt32 httpStatus = event.httpStatus ∧ isValidAccessEvent event := by
  simp only [parseAccessEventDetailed, orContractError, bind_eq_ok, throw_if_eq_ok, elim_eq_ok,
    parseAccessEventResult_eq_some]
  constructor
  · rintro ⟨parsed, hparsed, schemaVersion, hschema, hone, eventType, htype, hevent, eventId, hid,
      occurredAtMs, hoccurred, requestId, hrequest, code, hcode, _, hresult, httpStatus, hstatus,
      result, rfl, hvalid, heq⟩
    obtain rfl := Except.ok.inj heq
    obtain rfl := not_not.mp hevent
    exact ⟨parsed, schemaVersion, occurredAtMs, httpStatus, hparsed,
      ⟨hschema, htype, hid, hoccurred, hrequest, hcode, hresult, hstatus⟩, not_not.mp hone, rfl,
      rfl, by simpa using hvalid⟩
  · rintro ⟨parsed, schemaVersion, occurredAtMs, httpStatus, hparsed, h, hone, hoccurred, hstatus,
      hvalid⟩
    refine ⟨parsed, hparsed, schemaVersion, h.schemaVersion, not_not.mpr hone, _, h.eventType,
      not_not.mpr rfl, _, h.eventId, occurredAtMs, h.occurredAtMs, _, h.requestId, _, h.code, _,
      h.result, httpStatus, h.httpStatus, event.result, rfl, ?_⟩
    rw [hoccurred, hstatus]
    exact ⟨by simpa using hvalid, rfl⟩

/-- What nlohmann::json holds as an integer fits int64_t or uint64_t. -/
def Integers64 (json : JsonLibrary) : Prop :=
  ∀ payload parsed name n, json.parse payload = some parsed → parsed.integerAt name = some n →
    -2 ^ 63 ≤ n ∧ n < 2 ^ 64

theorem toInt64_positive {n : ℤ} (hn : -2 ^ 63 ≤ n ∧ n < 2 ^ 64) (h : 0 < toInt64 n) :
    toInt64 n = n ∧ n < 2 ^ 63 := by
  rw [toInt64, Int.bmod_def] at h ⊢
  split_ifs at h ⊢ <;> omega

theorem toInt64_eq {n : ℤ} (h : -2 ^ 63 ≤ n ∧ n < 2 ^ 63) : toInt64 n = n := by
  rw [toInt64]
  exact Int.bmod_eq_of_le (by omega) (by omega)

theorem toInt32_eq {n : ℤ} (h : -2 ^ 31 ≤ n ∧ n < 2 ^ 31) : toInt32 n = n := by
  rw [toInt32]
  exact Int.bmod_eq_of_le (by omega) (by omega)

theorem expectedHttpStatus_small (result : AccessEventResult) :
    0 < expectedHttpStatus result ∧ expectedHttpStatus result < 2 ^ 31 := by
  cases result <;> decide

theorem toInt32_eq_iff {n m : ℤ} (hm : 0 < m ∧ m < 2 ^ 31) : toInt32 n = m ↔ n % 2 ^ 32 = m := by
  rw [toInt32, Int.bmod_def]
  split_ifs <;> omega

/-- The payload is right but that its schema version or its status is off by a multiple of 2^32. -/
def Wraps (json : JsonLibrary) (payload : Bytes) : Prop :=
  ∃ parsed schemaVersion httpStatus event, json.parse payload = some parsed ∧
    Members parsed schemaVersion event.occurredAtMs httpStatus event ∧
    isValidAccessEvent event ∧ event.occurredAtMs < 2 ^ 63 ∧
    schemaVersion % 2 ^ 32 = 1 ∧ httpStatus % 2 ^ 32 = expectedHttpStatus event.result ∧
    (schemaVersion ≠ 1 ∨ httpStatus ≠ expectedHttpStatus event.result)

theorem isObject_of_integerAt {j : Json} {name : Bytes} {n : ℤ} (h : j.integerAt name = some n) :
    j.isObject := by
  cases j <;> first | rfl | cases h

section Acceptance

variable {json : JsonLibrary} {payload : Bytes} {event : AccessEvent}

theorem valid_httpStatus (h : isValidAccessEvent event) :
    event.httpStatus = expectedHttpStatus event.result := by
  simp only [isValidAccessEvent, Bool.and_eq_true, beq_iff_eq] at h
  exact h.2

/-- What the code accepts, told over the whole integers. -/
theorem parse_eq_ok_iff (hjson : Integers64 json) :
    parseAccessEventDetailed json payload = .ok event ↔
      ∃ parsed schemaVersion httpStatus, json.parse payload = some parsed ∧
        Members parsed schemaVersion event.occurredAtMs httpStatus event ∧
        isValidAccessEvent event ∧ event.occurredAtMs < 2 ^ 63 ∧
        schemaVersion % 2 ^ 32 = 1 ∧ httpStatus % 2 ^ 32 = expectedHttpStatus event.result := by
  rw [parse_eq_ok]
  constructor
  · rintro ⟨parsed, schemaVersion, occurredAtMs, httpStatus, hparsed, h, hone, hoccurred, hstatus,
      hvalid⟩
    have hpositive := isValidAccessEvent_occurred hvalid
    rw [← hoccurred] at hpositive
    obtain ⟨hexact, hlt⟩ := toInt64_positive (hjson _ _ _ _ hparsed h.occurredAtMs) hpositive
    obtain rfl := hexact.symm.trans hoccurred
    rw [valid_httpStatus hvalid, toInt32_eq_iff (expectedHttpStatus_small _)] at hstatus
    exact ⟨parsed, schemaVersion, httpStatus, hparsed, h, hvalid, hlt,
      (toInt32_eq_iff (by decide)).mp hone, hstatus⟩
  · rintro ⟨parsed, schemaVersion, httpStatus, hparsed, h, hvalid, hlt, hone, hstatus⟩
    refine ⟨parsed, schemaVersion, event.occurredAtMs, httpStatus, hparsed, h,
      (toInt32_eq_iff (by decide)).mpr hone, toInt64_eq ⟨?_, hlt⟩, ?_, hvalid⟩
    · have hpositive := isValidAccessEvent_occurred hvalid
      omega
    · rw [valid_httpStatus hvalid, toInt32_eq_iff (expectedHttpStatus_small _)]
      exact hstatus

/-- A payload is accepted as the contract has it unless an integer of it wraps into place. -/
theorem parse_accepts_contract_iff (payload : Bytes) (hjson : Integers64 json) :
    (∀ event, parseAccessEventDetailed json payload = .ok event ↔ Contract json payload event) ↔
      ¬ Wraps json payload := by
  constructor
  · rintro h ⟨parsed, schemaVersion, httpStatus, event, hparsed, hmembers, hvalid, hlt, hone,
      hstatus, hwraps⟩
    have haccepted := (parse_eq_ok_iff hjson).mpr
      ⟨parsed, schemaVersion, httpStatus, hparsed, hmembers, hvalid, hlt, hone, hstatus⟩
    obtain ⟨parsed', hparsed', _, hmembers'⟩ := ((h event).mp haccepted).members
    obtain rfl := Option.some.inj (hparsed'.symm.trans hparsed)
    rcases hwraps with hwraps | hwraps
    · exact hwraps (Option.some.inj (hmembers.schemaVersion.symm.trans hmembers'.schemaVersion))
    · apply hwraps
      rw [← valid_httpStatus hvalid]
      exact Option.some.inj (hmembers.httpStatus.symm.trans hmembers'.httpStatus)
  · intro hwraps event
    rw [parse_eq_ok_iff hjson]
    constructor
    · rintro ⟨parsed, schemaVersion, httpStatus, hparsed, hmembers, hvalid, hlt, hone, hstatus⟩
      have hexact : schemaVersion = 1 ∧ httpStatus = expectedHttpStatus event.result := by
        by_contra hnot
        exact hwraps ⟨parsed, schemaVersion, httpStatus, event, hparsed, hmembers, hvalid, hlt,
          hone, hstatus, not_and_or.mp hnot⟩
      obtain ⟨rfl, rfl⟩ := hexact
      refine ⟨⟨parsed, hparsed, isObject_of_integerAt hmembers.schemaVersion, ?_⟩,
        ⟨isValidAccessEvent_occurred hvalid, hlt⟩, hvalid⟩
      rw [valid_httpStatus hvalid]
      exact hmembers
    · rintro ⟨⟨parsed, hparsed, _, hmembers⟩, ⟨_, hlt⟩, hvalid⟩
      have hstatus := valid_httpStatus hvalid
      have hsmall := expectedHttpStatus_small event.result
      exact ⟨parsed, 1, event.httpStatus, hparsed, hmembers, hvalid, hlt, rfl, by omega⟩

end Acceptance

section RoundTrip

open AccessEventConsumer DeadLetters Program

/-- An object of strings and 64-bit integers. -/
def FlatObject (members : List (Bytes × Json)) : Prop :=
  (members.map Prod.fst).Nodup ∧ ∀ m ∈ members, ValidUtf8 m.1 ∧
    ((∃ s, m.2 = .string s) ∨ ∃ n, m.2 = .integer n ∧ -2 ^ 63 ≤ n ∧ n < 2 ^ 64)

/-- Such an object is dumped exactly when its strings are UTF-8, and then it is parsed back. -/
structure DumpsBack (json : JsonLibrary) (members : List (Bytes × Json)) : Prop where
  dumps : (∃ text, json.dump (.object members) = .ok text) ↔
    ∀ m ∈ members, ∀ s, m.2 = .string s → ValidUtf8 s
  parses : ∀ text, json.dump (.object members) = .ok text →
    json.parse text = some (.ofMembers members)

/-- Every dead letter the call produces is the record of this message for this reason. -/
def BuriesFor (reason : DeadLetterReason) (json : JsonLibrary) (config : ConsumerConfig)
    (message : KafkaMessage) : ConsumerOp → Prop
  | .produce m => m.key = message.key ∧ ∃ failedAtMs,
      serializeDeadLetterRecord json ⟨config.topic, message.partition, message.offset, message.key,
        message.payload, reason⟩ failedAtMs = .ok m.value
  | _ => True

variable {json : JsonLibrary} {config : ConsumerConfig} {message : KafkaMessage}
  {reason : DeadLetterReason} {event : AccessEvent}

theorem publish_buries :
    (publish json ⟨config.topic, message.partition, message.offset, message.key, message.payload,
      reason⟩).run.Asks (BuriesFor reason json config message) := by
  apply asks_client_bind (asks_perform trivial)
  intro failedAtMs
  cases hserialize : serializeDeadLetterRecord json ⟨config.topic, message.partition,
      message.offset, message.key, message.payload, reason⟩ failedAtMs with
  | error e => exact trivial
  | ok payload =>
    apply asks_client_bind (asks_perform ⟨rfl, failedAtMs, hserialize⟩)
    intro result
    split
    · exact trivial
    · exact asks_client_bind (asks_perform trivial) fun _ => trivial

theorem publishAttempts_buries (remaining : ℕ) (delayMs : ℤ) :
    (publishAttempts json config ⟨config.topic, message.partition, message.offset, message.key,
      message.payload, reason⟩ remaining delayMs).run.Asks
      (BuriesFor reason json config message) := by
  induction remaining generalizing delayMs with
  | zero => exact trivial
  | succ remaining ih =>
    apply asks_client_bind publish_buries
    rintro (_ | _)
    · simp only [Bool.false_eq_true, if_false]
      split
      · exact ih delayMs
      · exact asks_client_bind (asks_perform trivial) fun _ => ih _
    · exact trivial

theorem commitAttempts_buries (attempt remaining : ℕ) :
    (commitAttempts message attempt remaining).run.Asks
      (BuriesFor reason json config message) := by
  induction remaining generalizing attempt with
  | zero => exact trivial
  | succ remaining ih =>
    apply asks_client_bind (asks_perform trivial)
    intro result
    split
    · exact trivial
    · split
      · exact ih _
      · exact asks_client_bind (asks_perform trivial) fun _ => ih _

theorem persistAttempts_buries {source : AccessStatisticsWriter.AccessEventSourcePosition}
    (remaining : ℕ) (delayMs : ℤ) :
    (persistAttempts config event source remaining delayMs).run.Asks
      (BuriesFor reason json config message) := by
  induction remaining generalizing delayMs with
  | zero => exact trivial
  | succ remaining ih =>
    apply asks_catch (asks_lift _ fun _ => trivial)
    intro error
    cases error with
    | orphanShortLinkEvent _ => exact trivial
    | _ =>
      simp only
      split
      · exact trivial
      · apply asks_client_bind (asks_perform trivial)
        intro _
        apply asks_client_bind
        · apply asks_catch
          · exact ⟨trivial, fun _ => trivial⟩
          · intro reconnectError
            split <;> exact trivial
        · intro _
          exact ih _

theorem publishToDeadLetter_buries : (publishToDeadLetter json config message reason).run.Asks
    (BuriesFor reason json config message) := publishAttempts_buries _ _

theorem commitWithRetry_buries : (commitWithRetry config message).run.Asks
    (BuriesFor reason json config message) := commitAttempts_buries _ _

/-- A message that is parsed and has its event's code for a key is buried as an orphan only. -/
theorem handleMessage_buries (hparse : parseAccessEventDetailed json message.payload = .ok event)
    (hkey : message.key = event.code) :
    (handleMessage json config message).run.Asks
      (BuriesFor .orphanShortLink json config message) := by
  rw [handleMessage, hparse]
  simp only [ne_eq, hkey, not_true_eq_false, if_false]
  apply asks_client_bind
  · apply asks_catch
    · exact asks_client_bind (persistAttempts_buries _ _) fun _ => trivial
    · intro error
      cases error with
      | orphanShortLinkEvent _ =>
        apply asks_client_bind publishToDeadLetter_buries
        intro _
        exact asks_client_bind commitWithRetry_buries fun _ => trivial
      | _ => exact trivial
  · intro persisted
    cases persisted with
    | none => exact trivial
    | some _ => exact commitWithRetry_buries

theorem isLowercaseHex_utf8 {value : Bytes} (h : isLowercaseHex value) : ValidUtf8 value := by
  apply validUtf8_of_ascii
  intro c hc
  simp only [isLowercaseHex, Bool.and_eq_true, List.all_eq_true, Bool.or_eq_true] at h
  rcases h.2 c hc with hdigit | hletter
  · exact isAlnum_ascii (by simp [isAlnum, hdigit])
  · simp only [decide_eq_true_eq] at hletter
    exact UInt8.lt_of_le_of_lt hletter.2 (by decide)

theorem isSafeRequestId_utf8 {value : Bytes} (h : isSafeRequestId value) : ValidUtf8 value := by
  apply validUtf8_of_ascii
  intro c hc
  simp only [isSafeRequestId, Bool.and_eq_true, List.all_eq_true, Bool.or_eq_true, beq_iff_eq] at h
  rcases h.2 c hc with ((halnum | rfl) | rfl) | rfl
  · exact isAlnum_ascii halnum
  all_goals decide

theorem payload_flat (hvalid : isValidAccessEvent event) (htime : event.occurredAtMs < 2 ^ 63) :
    FlatObject (accessEventPayload event).items := by
  have hpositive := isValidAccessEvent_occurred hvalid
  have hstatus := valid_httpStatus hvalid
  have hsmall := expectedHttpStatus_small event.result
  constructor
  · simp only [accessEventPayload, Json.items, List.map_cons, List.map_nil]
    decide
  · simp only [accessEventPayload, Json.items, List.forall_mem_cons]
    refine ⟨⟨by decide, .inr ⟨_, rfl, by decide⟩⟩, ⟨by decide, .inl ⟨_, rfl⟩⟩,
      ⟨by decide, .inl ⟨_, rfl⟩⟩, ⟨by decide, .inr ⟨_, rfl, by omega⟩⟩, ⟨by decide, .inl ⟨_, rfl⟩⟩,
      ⟨by decide, .inl ⟨_, rfl⟩⟩, ⟨by decide, .inl ⟨_, rfl⟩⟩,
      ⟨by decide, .inr ⟨_, rfl, by omega⟩⟩, ?_⟩
    intro m hm
    cases hm

theorem payload_strings (hvalid : isValidAccessEvent event) :
    (∀ m ∈ (accessEventPayload event).items, ∀ s, m.2 = .string s → ValidUtf8 s) ↔
      ValidUtf8 event.code := by
  simp only [isValidAccessEvent, Bool.and_eq_true] at hvalid
  have hresult : ∀ result, ValidUtf8 (accessEventResultToString result) := by
    intro result
    cases result <;> decide
  constructor
  · intro h
    exact h (ascii "code", .string event.code) (by simp [accessEventPayload, Json.items]) _ rfl
  · intro hcode
    simp only [accessEventPayload, Json.items, List.forall_mem_cons, Json.string.injEq,
      reduceCtorEq, forall_eq', List.not_mem_nil, IsEmpty.forall_iff, implies_true, true_and,
      and_true]
    exact ⟨by decide, isLowercaseHex_utf8 hvalid.1.1.1.1.1, isSafeRequestId_utf8 hvalid.1.1.1.2,
      hcode, hresult _⟩

theorem payload_members (event : AccessEvent) :
    Members (.ofMembers (accessEventPayload event).items) 1 event.occurredAtMs event.httpStatus
      event :=
  ⟨rfl, rfl, rfl, rfl, rfl, rfl, rfl, rfl⟩

/-- What the server serializes the consumer reads back, and it dumps every valid event. -/
theorem formats_agree (json : JsonLibrary) (event : AccessEvent)
    (htime : event.occurredAtMs < 2 ^ 63)
    (hjson : FlatObject (accessEventPayload event).items →
      DumpsBack json (accessEventPayload event).items) :
    (∀ payload, serializeAccessEvent json event = .ok payload →
      parseAccessEventDetailed json payload = .ok event ∧
      ∀ config partition offset, (handleMessage json config
        ⟨partition, offset, event.code, payload⟩).run.Asks
          (BuriesFor .orphanShortLink json config ⟨partition, offset, event.code, payload⟩)) ∧
    (isValidAccessEvent event → ValidUtf8 event.code →
      ∃ payload, serializeAccessEvent json event = .ok payload) := by
  constructor
  · intro payload h
    by_cases hvalid : isValidAccessEvent event
    · rw [serializeAccessEvent, hvalid, Bool.not_true, if_neg Bool.false_ne_true] at h
      have hparsed := (hjson (payload_flat hvalid htime)).parses payload h
      have hpositive := isValidAccessEvent_occurred hvalid
      have hstatus := valid_httpStatus hvalid
      have hsmall := expectedHttpStatus_small event.result
      have hparse : parseAccessEventDetailed json payload = .ok event :=
        parse_eq_ok.mpr ⟨_, _, _, _, hparsed, payload_members event, by decide,
          toInt64_eq (by omega), toInt32_eq (by omega), hvalid⟩
      refine ⟨hparse, ?_⟩
      intro config partition offset
      exact handleMessage_buries hparse rfl
    · rw [serializeAccessEvent, if_pos (by simpa using hvalid)] at h
      cases h
  · intro hvalid hcode
    rw [serializeAccessEvent, hvalid, Bool.not_true, if_neg Bool.false_ne_true]
    exact (hjson (payload_flat hvalid htime)).dumps.mpr ((payload_strings hvalid).mpr hcode)

end RoundTrip

section Demo

def demoPayload (schemaVersion : Bytes) : Bytes :=
  ascii "\x7b\"schema_version\":" ++ schemaVersion ++
    ascii (",\"event_type\":\"short_link_access\"," ++
      "\"event_id\":\"0123456789abcdef0123456789abcdef\",\"occurred_at_ms\":1784304000123," ++
      "\"request_id\":\"request-01\",\"code\":\"") ++ [195, 169, 92, 34] ++
    ascii "\",\"result\":\"success\",\"http_status\":302\x7d"

def demoEvent : AccessEvent where
  eventId := ascii "0123456789abcdef0123456789abcdef"
  occurredAtMs := 1784304000123
  requestId := ascii "request-01"
  code := [195, 169, 34]
  result := .success
  httpStatus := 302

def demoMembers (schemaVersion : ℤ) : Json :=
  .ofMembers [
    (ascii "schema_version", .integer schemaVersion),
    (ascii "event_type", .string kAccessEventType),
    (ascii "event_id", .string demoEvent.eventId),
    (ascii "occurred_at_ms", .integer demoEvent.occurredAtMs),
    (ascii "request_id", .string demoEvent.requestId),
    (ascii "code", .string demoEvent.code),
    (ascii "result", .string (ascii "success")),
    (ascii "http_status", .integer 302)]

/-- The library on the event and on the two texts. -/
def demoJson : JsonLibrary where
  parse payload :=
    if payload = demoPayload (ascii "1") then some (demoMembers 1)
    else if payload = demoPayload (ascii "4294967297") then some (demoMembers 4294967297)
    else none
  parseIgnoringComments _ := none
  dump j :=
    if j.integerAt (ascii "schema_version") = some 1 then .ok (demoPayload (ascii "1"))
    else .error (.runtimeError [])

theorem wrapped_version_accepted :
    parseAccessEventDetailed demoJson (demoPayload (ascii "4294967297")) = .ok demoEvent ∧
      ¬ Contract demoJson (demoPayload (ascii "4294967297")) demoEvent := by
  have hdiffer : demoPayload (ascii "4294967297") ≠ demoPayload (ascii "1") := by
    intro h
    have hversion :=
      List.append_cancel_right (List.append_cancel_right (List.append_cancel_right h))
    exact absurd (List.append_cancel_left hversion) (by decide)
  have hparsed : demoJson.parse (demoPayload (ascii "4294967297")) =
      some (demoMembers 4294967297) := by
    simp only [demoJson, if_neg hdiffer, if_true]
  constructor
  · rw [parse_eq_ok]
    exact ⟨_, 4294967297, 1784304000123, 302, hparsed,
      ⟨by rfl, by rfl, by rfl, by rfl, by rfl, by rfl, by rfl, by rfl⟩,
      by decide, by decide, by decide, by decide⟩
  · intro h
    obtain ⟨parsed, h, _, hmembers⟩ := h.members
    obtain rfl := Option.some.inj (h.symm.trans hparsed)
    exact absurd hmembers.schemaVersion (by decide)

theorem mem_of_integerAt {j : Json} {name : Bytes} {n : ℤ} (h : j.integerAt name = some n) :
    ∃ m ∈ j.items, m.2.asInteger = some n := by
  obtain ⟨value, hvalue, hn⟩ := Option.bind_eq_some_iff.mp h
  cases j with
  | object members =>
    obtain ⟨m, hm, rfl⟩ := Option.map_eq_some_iff.mp hvalue
    exact ⟨m, List.mem_of_find?_eq_some hm, hn⟩
  | _ => cases hvalue

theorem demoJson_integers64 : Integers64 demoJson := by
  have hfits : ∀ parsed ∈ [demoMembers 1, demoMembers 4294967297], parsed.items.all fun m =>
      m.2.asInteger.all fun n => -2 ^ 63 ≤ n ∧ n < 2 ^ 64 := by decide
  intro payload parsed name n hparsed hn
  have hmem : parsed ∈ [demoMembers 1, demoMembers 4294967297] := by
    simp only [demoJson] at hparsed
    split_ifs at hparsed <;> simp [← Option.some.inj hparsed]
  obtain ⟨m, hm, hn⟩ := mem_of_integerAt hn
  have hall := List.all_eq_true.mp (hfits parsed hmem) m hm
  rw [hn] at hall
  simpa using hall

theorem parse_accepts_contract_demo :
    Integers64 demoJson ∧
      ∀ event, parseAccessEventDetailed demoJson (demoPayload (ascii "1")) = .ok event ↔
        Contract demoJson (demoPayload (ascii "1")) event := by
  refine ⟨demoJson_integers64, ?_⟩
  apply (parse_accepts_contract_iff _ demoJson_integers64).mpr
  rintro ⟨parsed, schemaVersion, httpStatus, event, hparsed, hmembers, _, _, _, hstatus, hwraps⟩
  obtain rfl : parsed = demoMembers 1 := by
    simp only [demoJson, if_true] at hparsed
    exact (Option.some.inj hparsed).symm
  obtain rfl : 1 = schemaVersion := Option.some.inj hmembers.schemaVersion
  obtain rfl : 302 = httpStatus := Option.some.inj hmembers.httpStatus
  exact hwraps.elim (fun h => h rfl) fun h => h hstatus

theorem formats_agree_demo :
    ∃ payload, serializeAccessEvent demoJson demoEvent = .ok payload ∧
      parseAccessEventDetailed demoJson payload = .ok demoEvent := by
  have hback : DumpsBack demoJson (accessEventPayload demoEvent).items := by
    constructor
    · rw [payload_strings (by decide)]
      exact ⟨fun _ => by decide, fun _ => ⟨demoPayload (ascii "1"), rfl⟩⟩
    · rintro text h
      obtain rfl : demoPayload (ascii "1") = text := Except.ok.inj h
      simp only [demoJson, if_true]
      rfl
  obtain ⟨hround, hdumps⟩ := formats_agree demoJson demoEvent (by decide) fun _ => hback
  obtain ⟨payload, hpayload⟩ := hdumps (by decide) (by decide)
  exact ⟨payload, hpayload, (hround payload hpayload).1⟩

end Demo

end EventFormats
