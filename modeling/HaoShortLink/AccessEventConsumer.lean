import HaoShortLink.AccessStatisticsWriter
import HaoShortLink.DeadLetters

/-! KafkaAccessEventConsumer (main.cpp of the consumer) with its dead-letter publisher.
Logging, metrics and lag queries are left out: nothing the consumer decides reads them. -/
namespace AccessEventConsumer

open Cpp Program Transaction StatisticsSchema AccessStatisticsWriter AccessEvents DeadLetters
open JsonValues (JsonLibrary)

structure ConsumerConfig where
  topic : Bytes
  retryInitialMs : ℤ
  retryMaxMs : ℤ
  processingMaxAttempts : ℕ
  offsetCommitMaxAttempts : ℕ
  deriving Repr

/-- A polled message without error; an absent key or payload reads as the empty string. -/
structure KafkaMessage where
  partition : ℕ
  offset : ℕ
  key : Bytes
  payload : Bytes
  deriving DecidableEq, Repr

/-- What the producer is asked to deliver to the dead-letter topic. -/
structure DlqMessage where
  key : Bytes
  value : Bytes
  deriving DecidableEq, Repr

inductive Poll where
  | nothing
  | failure (endOfPartition : Bool)
  | message (m : KafkaMessage)
  deriving DecidableEq, Repr

inductive ConsumerOp where
  | sql (op : SqlOp Stmt)
  | reconnect
  | poll
  | now
  | sleepFor (milliseconds : ℤ)
  | produce (m : DlqMessage)
  | flush
  | commitMessage (partition offset : ℕ)

/-- Error codes are rd_kafka_resp_err_t, 0 is NO_ERROR. A flush answers with its result and
the codes it passed to the delivery callback, in order. -/
def ConsumerOp.Answer : ConsumerOp → Type
  | .sql op => Except WriterException (op.Reply Stmt.Reply)
  | .reconnect => Except WriterException Unit
  | .poll => Poll
  | .now => ℤ
  | .sleepFor _ => Unit
  | .produce _ => ℤ
  | .flush => ℤ × List ℤ
  | .commitMessage _ _ => ℤ

abbrev Consumer := ExceptT WriterException (Prog ConsumerOp ConsumerOp.Answer)

def writing {α : Type} (x : Writer α) : Consumer α :=
  ExceptT.mk (x.run.lift ConsumerOp.sql fun _ r => r)
def reconnect : Consumer Unit := ExceptT.mk (.ask .reconnect .ret)
def poll : Consumer Poll := perform ConsumerOp.poll
def now : Consumer ℤ := perform ConsumerOp.now
def sleepFor (milliseconds : ℤ) : Consumer Unit := perform (ConsumerOp.sleepFor milliseconds)
def produce (m : DlqMessage) : Consumer ℤ := perform (ConsumerOp.produce m)
def flush : Consumer (ℤ × List ℤ) := perform ConsumerOp.flush
def commitMessage (m : KafkaMessage) : Consumer ℤ :=
  perform (ConsumerOp.commitMessage m.partition m.offset)

def runtimeError {α : Type} (what : String) : Consumer α :=
  throw (.std (.runtimeError (ascii what)))

/-- What catch (const std::exception&) sees. -/
def isStdException : WriterException → Bool
  | .std .foreign => false
  | _ => true

def nextRetryDelayMs (delayMs maximumMs : ℤ) : ℤ :=
  if delayMs ≥ maximumMs - delayMs then maximumMs else delayMs * 2

structure Delivery where
  observed : Bool
  error : ℤ

def deliveryCallback (_ : Delivery) (err : ℤ) : Delivery := ⟨true, err⟩

def publish (json : JsonLibrary) (record : DeadLetterRecord) : Consumer Bool := do
  let failedAtMs ← now
  match serializeDeadLetterRecord json record failedAtMs with
  | .error _ => pure false
  | .ok payload =>
    let result ← produce ⟨record.key, payload⟩
    if result ≠ 0 then
      pure false
    else
      let (result, reports) ← flush
      let delivery := reports.foldl deliveryCallback ⟨false, 0⟩
      pure (result == 0 && delivery.observed && delivery.error == 0)

section Retries

variable (json : JsonLibrary) (config : ConsumerConfig)

def persistAttempts (event : AccessEvent) (source : AccessEventSourcePosition) :
    ℕ → ℤ → Consumer AccessStatisticsWriteResult
  | 0, _ => runtimeError "unreachable access statistics retry state"
  | remaining + 1, delayMs =>
    tryCatch (writing (process event source)) fun error => do
      match error with
      | .orphanShortLinkEvent _ => throw error
      | _ =>
        if !isStdException error || remaining = 0 then
          throw error
        else
          sleepFor delayMs
          tryCatch reconnect fun reconnectError => do
            if isStdException reconnectError then pure () else throw reconnectError
          persistAttempts event source remaining (nextRetryDelayMs delayMs config.retryMaxMs)

def persistWithRetry (event : AccessEvent) (message : KafkaMessage) :
    Consumer AccessStatisticsWriteResult :=
  persistAttempts config event ⟨config.topic, message.partition, message.offset⟩
    config.processingMaxAttempts config.retryInitialMs

def publishAttempts (record : DeadLetterRecord) : ℕ → ℤ → Consumer Unit
  | 0, _ => runtimeError "failed to publish access event to DLQ"
  | remaining + 1, delayMs => do
    if ← publish json record then
      pure ()
    else if remaining = 0 then
      publishAttempts record remaining delayMs
    else
      sleepFor delayMs
      publishAttempts record remaining (nextRetryDelayMs delayMs config.retryMaxMs)

def publishToDeadLetter (message : KafkaMessage) (reason : DeadLetterReason) : Consumer Unit :=
  publishAttempts json config
    ⟨config.topic, message.partition, message.offset, message.key, message.payload, reason⟩
    config.processingMaxAttempts config.retryInitialMs

def commitAttempts (message : KafkaMessage) (attempt : ℕ) : ℕ → Consumer Unit
  | 0 => runtimeError "failed to commit access event offset after configured attempts"
  | remaining + 1 => do
    let result ← commitMessage message
    if result = 0 then
      pure ()
    else if remaining = 0 then
      commitAttempts message (attempt + 1) remaining
    else
      sleepFor (100 * attempt)
      commitAttempts message (attempt + 1) remaining

def commitWithRetry (message : KafkaMessage) : Consumer Unit :=
  commitAttempts message 1 config.offsetCommitMaxAttempts

def deadLetterReason : AccessEventParseError → DeadLetterReason
  | .invalidJson => .invalidJson
  | .unsupportedSchema => .unsupportedSchema
  | .unsupportedEventType => .unsupportedEventType
  | .invalidContract => .invalidContract

def handleMessage (message : KafkaMessage) : Consumer Unit := do
  match parseAccessEventDetailed json message.payload with
  | .error error =>
    publishToDeadLetter json config message (deadLetterReason error)
    commitWithRetry config message
  | .ok event =>
    if message.key ≠ event.code then
      publishToDeadLetter json config message .keyCodeMismatch
      commitWithRetry config message
    else
      let persisted ← tryCatch (some <$> persistWithRetry config event message) fun error => do
        match error with
        | .orphanShortLinkEvent _ =>
          publishToDeadLetter json config message .orphanShortLink
          commitWithRetry config message
          pure none
        | _ => throw error
      match persisted with
      | none => pure ()
      | some _ => commitWithRetry config message

def runOnce : Consumer Unit := do
  match ← poll with
  | .nothing => pure ()
  | .failure endOfPartition => if endOfPartition then pure () else sleepFor 250
  | .message message => handleMessage json config message

end Retries

end AccessEventConsumer
