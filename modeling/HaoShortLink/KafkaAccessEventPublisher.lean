import HaoShortLink.AccessEvents
import HaoShortLink.Deliveries
import HaoShortLink.ShortLinkCounters

/-! KafkaAccessEventPublisher.cpp: calls of publish beside the poll thread, the destructor and the
threads of librdkafka. A step is one call of librdkafka, one operation on an atomic or one line
of the log. -/
namespace KafkaAccessEventPublisher

open Cpp AccessEvents Deliveries Histories ShortLinkCounters
open JsonValues (JsonLibrary)

/-- What rd_kafka_producev is given for the topic. -/
structure Message where
  key : Bytes
  value : Bytes
  timestamp : ℤ
  deriving DecidableEq, Repr

inductive Stage where
  | enqueue
  | delivery
  | client
  deriving DecidableEq, Repr

structure LogLine where
  stage : Stage
  count : UInt64
  reason : Bytes
  deriving DecidableEq, Repr

def shouldLog (count : UInt64) : Bool := count ≤ 5 || count % 1000 == 0

/-- RD_KAFKA_RESP_ERR__QUEUE_FULL. -/
def kQueueFull : ℤ := -184

/-- Texts of errors, and the code with which a purge fails a message. -/
structure Librdkafka where
  err2str : ℤ → Bytes
  purgeError : ℕ → ℤ

/-- What catch blocks log of an exception. -/
def reasonOf : Exception → Bytes
  | .invalidArgument what | .outOfRange what | .runtimeError what => what
  | .foreign => ascii "unknown_error"

inductive Call where
  /-- publish, before rd_kafka_producev. -/
  | publish (event : AccessEvent)
  | enqueued (result : AccessEventEnqueueResult) (failure : Option Bytes) (sized : Bool)
  | delivered (result : AccessEventDeliveryResult) (failure : Option Bytes)
  /-- logEnqueueFailure, logDeliveryFailure or logClientError, before its fetch_add. -/
  | fail (stage : Stage) (reason : Bytes) (sized : Bool)
  | log (line : LogLine) (sized : Bool)
  /-- recordQueueSize. -/
  | size
  | gauge (size : ℕ)
  deriving DecidableEq, Repr

inductive Phase where
  /-- The condition of the loop. -/
  | test
  | polling
  | lastPoll
  /-- The destructor after it has joined the poll thread. -/
  | flushing
  | purged
  | closing
  | destroyed
  deriving DecidableEq, Repr

def Phase.serves : Phase → Bool
  | .polling | .lastPoll | .flushing | .purged => true
  | _ => false

structure State where
  client : Client Message ℤ
  metrics : ShortLinkMetrics
  /-- enqueueFailureCount, deliveryFailureCount and clientErrorCount. -/
  failures : Stage → UInt64
  stopping : Bool
  phase : Phase
  /-- What the poll thread, and the destructor after it, is in the middle of. -/
  serving : Option Call
  /-- The calls of publish that have not returned. -/
  calls : Multiset Call
  logs : List LogLine

def initial : State :=
  ⟨.empty, .initial, fun _ => 0, false, .test, none, 0, []⟩

section Calls

variable (json : JsonLibrary) (lib : Librdkafka)

/-- How publish goes on when rd_kafka_producev has returned this code, or was not reached. -/
def enqueue (event : AccessEvent) (code : ℤ) : Call :=
  match serializeAccessEvent json event with
  | .error e => .enqueued .error (some (reasonOf e)) false
  | .ok _ =>
    if code = 0 then .enqueued .accepted none true
    else if code = kQueueFull then .enqueued .queueFull (some (ascii "queue_full")) true
    else .enqueued .error (some (lib.err2str code)) true

def produced (event : AccessEvent) (code : ℤ) : Option Message :=
  match serializeAccessEvent json event with
  | .error _ => none
  | .ok payload => if code = 0 then some ⟨event.code, payload, event.occurredAtMs⟩ else none

def deliveryCallback : Outcome ℤ → Call
  | .stored => .delivered .success none
  | .failed error => .delivered .failure (some (lib.err2str error))

def errorCallback (error : ℤ) (reason : Option Bytes) : Call :=
  .fail .client (reason.getD (lib.err2str error)) false

def afterRecord (stage : Stage) (failure : Option Bytes) (sized : Bool) : Option Call :=
  match failure with
  | some reason => some (.fail stage reason sized)
  | none => if sized then some .size else none

/-- One step of a thread, and where it is then. The reply is the code of rd_kafka_producev, or what
rd_kafka_outq_len counts beside the messages. -/
def perform (s : State) (reply : ℤ) : Call → State × Option Call
  | .publish event =>
    let client := match produced json event reply with
      | some m => s.client.take m
      | none => s.client
    ({ s with client := client }, some (enqueue json lib event reply))
  | .enqueued result failure sized =>
    ({ s with metrics := s.metrics.record (.accessEventEnqueue result) },
      afterRecord .enqueue failure sized)
  | .delivered result failure =>
    ({ s with metrics := s.metrics.record (.accessEventDelivery result) },
      afterRecord .delivery failure true)
  | .fail stage reason sized =>
    let count := s.failures stage + 1
    ({ s with failures := Function.update s.failures stage count },
      some (.log ⟨stage, count, reason⟩ sized))
  | .log line sized =>
    ({ s with logs := if shouldLog line.count then s.logs ++ [line] else s.logs },
      if sized then some .size else none)
  | .size => (s, some (.gauge (s.client.outstanding + reply.toNat)))
  | .gauge size =>
    ({ s with metrics := s.metrics.setAccessEventQueueSize (UInt64.ofNat size) }, none)

inductive Event where
  | publish (event : AccessEvent)
  | run (c : Call) (reply : ℤ)
  | serve (reply : ℤ)
  /-- The delivery callback for a message. -/
  | report (i : ℕ) (o : Outcome ℤ)
  | clientError (error : ℤ) (reason : Option Bytes)
  | test
  | pollReturns
  | stop
  | flushReturns (result : ℤ)
  | destroy
  | store (partition i : ℕ)
  | settle (i : ℕ) (o : Outcome ℤ)
  deriving DecidableEq, Repr

/-- rd_kafka_flush succeeds only when nothing is outstanding. -/
def flushed (s : State) (result : ℤ) : Option State :=
  match s.phase with
  | .flushing =>
    if result ≠ 0 then some { s with client := s.client.purge lib.purgeError, phase := .purged }
    else if s.client.outstanding = 0 then some { s with phase := .closing, serving := some .size }
    else none
  | .purged =>
    if result ≠ 0 ∨ s.client.outstanding = 0 then
      some { s with phase := .closing, serving := some .size }
    else none
  | _ => none

/-- What the poll thread or the destructor does next while it is in no callback. -/
def proceed (s : State) : Event → Option State
  | .report i o =>
    if s.phase.serves then
      (s.client.tell i).bind fun (o', client) =>
        if o' = o then some { s with client := client, serving := some (deliveryCallback lib o) }
        else none
    else none
  | .clientError error reason =>
    if s.phase.serves then some { s with serving := some (errorCallback lib error reason) }
    else none
  | .test =>
    if s.phase = .test then
      some { s with phase := if s.stopping then .lastPoll else .polling }
    else none
  | .pollReturns =>
    match s.phase with
    | .polling => some { s with phase := .test, serving := some .size }
    | .lastPoll => some { s with phase := .flushing }
    | _ => none
  | .flushReturns result => flushed lib s result
  | .destroy => if s.phase = .closing then some { s with phase := .destroyed } else none
  | _ => none

def next (s : State) (e : Event) : Option State :=
  match e with
  -- the server, whose threads publish, is destroyed before the publisher
  | .publish event =>
    if s.stopping then none else some { s with calls := .publish event ::ₘ s.calls }
  | .stop => if s.calls = 0 ∧ s.stopping = false then some { s with stopping := true } else none
  | .run c reply =>
    advance s.calls c fun rest =>
      let (s', c') := perform json lib s reply c
      some { s' with calls := ↑c'.toList + rest }
  | .serve reply =>
    s.serving.map fun c =>
      let (s', c') := perform json lib s reply c
      { s' with serving := c' }
  | .store partition i => (s.client.store partition i).map fun client => { s with client := client }
  | .settle i o => (s.client.settle i o).map fun client => { s with client := client }
  | e => if s.serving = none then proceed lib s e else none

abbrev Step (s : State) (e : Event) (s' : State) : Prop := next json lib s e = some s'

end Calls

end KafkaAccessEventPublisher
