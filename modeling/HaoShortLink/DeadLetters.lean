import HaoShortLink.JsonValues

/-! The dead-letter record and its envelope (KafkaDeadLetterPublisher.cpp). -/
namespace DeadLetters

open Cpp JsonValues

inductive DeadLetterReason where
  | invalidJson
  | unsupportedSchema
  | unsupportedEventType
  | invalidContract
  | keyCodeMismatch
  | orphanShortLink
  deriving DecidableEq, Repr

def deadLetterReasonToString : DeadLetterReason → Bytes
  | .invalidJson => ascii "invalid_json"
  | .unsupportedSchema => ascii "unsupported_schema"
  | .unsupportedEventType => ascii "unsupported_event_type"
  | .invalidContract => ascii "invalid_contract"
  | .keyCodeMismatch => ascii "key_code_mismatch"
  | .orphanShortLink => ascii "orphan_short_link"

structure DeadLetterRecord where
  sourceTopic : Bytes
  sourcePartition : ℤ
  sourceOffset : ℤ
  key : Bytes
  payload : Bytes
  reason : DeadLetterReason
  deriving DecidableEq, Repr

def kMaxEncodedSourceBytes : ℕ := 64 * 1024

def kAlphabet : Bytes :=
  ascii "ABCDEFGHIJKLMNOPQRSTUVWXYZabcdefghijklmnopqrstuvwxyz0123456789+/"

/-- The character for six bits of a 24-bit group, counted from its low end. -/
def base64Digit (value shift : ℕ) : UInt8 := kAlphabet.getD (value / 2 ^ shift % 64) 0

def base64Encode : Bytes → Bytes
  | [] => []
  | [a] =>
    let value := a.toNat * 2 ^ 16
    [base64Digit value 18, base64Digit value 12, 61, 61]
  | [a, b] =>
    let value := a.toNat * 2 ^ 16 + b.toNat * 2 ^ 8
    [base64Digit value 18, base64Digit value 12, base64Digit value 6, 61]
  | a :: b :: c :: rest =>
    let value := a.toNat * 2 ^ 16 + b.toNat * 2 ^ 8 + c.toNat
    base64Digit value 18 :: base64Digit value 12 :: base64Digit value 6 ::
      base64Digit value 0 :: base64Encode rest

def base64EncodePrefix (input : Bytes) (maxBytes : ℕ) : Bytes := base64Encode (input.take maxBytes)

def deadLetterEnvelope (record : DeadLetterRecord) (failedAtMs : ℤ) : Json :=
  .object [
    (ascii "schema_version", .integer 1),
    (ascii "event_type", .string (ascii "short_link_access_dead_letter")),
    (ascii "failed_at_ms", .integer failedAtMs),
    (ascii "reason", .string (deadLetterReasonToString record.reason)),
    (ascii "source_topic", .string record.sourceTopic),
    (ascii "source_partition", .integer record.sourcePartition),
    (ascii "source_offset", .integer record.sourceOffset),
    (ascii "original_key_base64", .string (base64EncodePrefix record.key kMaxEncodedSourceBytes)),
    (ascii "original_key_size", .integer record.key.length),
    (ascii "original_key_truncated", .boolean (kMaxEncodedSourceBytes < record.key.length)),
    (ascii "original_payload_base64",
      .string (base64EncodePrefix record.payload kMaxEncodedSourceBytes)),
    (ascii "original_payload_size", .integer record.payload.length),
    (ascii "original_payload_truncated",
      .boolean (kMaxEncodedSourceBytes < record.payload.length))]

def serializeDeadLetterRecord (json : JsonLibrary) (record : DeadLetterRecord) (failedAtMs : ℤ) :
    Except Exception Bytes :=
  if record.sourceTopic.isEmpty || record.sourcePartition < 0 || record.sourceOffset < 0 ||
      failedAtMs ≤ 0 then
    .error (.invalidArgument (ascii "invalid dead-letter source record"))
  else json.dump (deadLetterEnvelope record failedAtMs)

end DeadLetters
