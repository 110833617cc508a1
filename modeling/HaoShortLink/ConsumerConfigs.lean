import HaoShortLink.AccessEventConsumer
import HaoShortLink.Configs

/-! ConsumerConfig.cpp: the settings of the consumer, all of them checked before it starts. -/
namespace ConsumerConfigs

open Cpp Configs

structure ConsumerConfig where
  bootstrapServers : Bytes := ascii "127.0.0.1:19092"
  topic : Bytes := ascii "hao-shortlink.access-events.v1"
  groupId : Bytes := ascii "hao-shortlink-access-statistics-v1"
  clientId : Bytes := ascii "hao-shortlink-access-statistics-consumer"
  autoOffsetReset : Bytes := ascii "earliest"
  pollTimeoutMs : ℤ := 500
  sessionTimeoutMs : ℤ := 10000
  dlqTopic : Bytes := ascii "hao-shortlink.access-events.dlq.v1"
  dlqClientId : Bytes := ascii "hao-shortlink-access-statistics-dlq"
  dlqMessageTimeoutMs : ℤ := 10000
  dlqDeliveryTimeoutMs : ℤ := 12000
  mysqlHost : Bytes := ascii "tcp://127.0.0.1:3306"
  mysqlUser : Bytes := ascii "root"
  mysqlPassword : Bytes := []
  mysqlDatabase : Bytes := ascii "hao_shortlink"
  processingMaxAttempts : ℤ := 5
  retryInitialMs : ℤ := 100
  retryMaxMs : ℤ := 5000
  offsetCommitMaxAttempts : ℤ := 3
  observabilityEnabled : Bool := true
  observabilityListenAddress : Bytes := ascii "127.0.0.1"
  observabilityPort : ℤ := 9091
  lagRefreshMs : ℤ := 5000
  kafkaQueryTimeoutMs : ℤ := 1000
  deriving DecidableEq, Repr

def readConsumerConfig (values : Values) : ConsumerConfig :=
  let default : ConsumerConfig := {}
  let string (key : String) := getString values (ascii key)
  let int (key : String) := getInt values (ascii key)
  let bool (key : String) := getBool values (ascii key)
  { bootstrapServers := string "consumer.bootstrap_servers" default.bootstrapServers
    topic := string "consumer.topic" default.topic
    groupId := string "consumer.group_id" default.groupId
    clientId := string "consumer.client_id" default.clientId
    autoOffsetReset := string "consumer.auto_offset_reset" default.autoOffsetReset
    pollTimeoutMs := int "consumer.poll_timeout_ms" default.pollTimeoutMs
    sessionTimeoutMs := int "consumer.session_timeout_ms" default.sessionTimeoutMs
    dlqTopic := string "consumer.dlq_topic" default.dlqTopic
    dlqClientId := string "consumer.dlq_client_id" default.dlqClientId
    dlqMessageTimeoutMs := int "consumer.dlq_message_timeout_ms" default.dlqMessageTimeoutMs
    dlqDeliveryTimeoutMs := int "consumer.dlq_delivery_timeout_ms" default.dlqDeliveryTimeoutMs
    mysqlHost := string "mysql.host" default.mysqlHost
    mysqlUser := string "mysql.user" default.mysqlUser
    mysqlPassword := string "mysql.password" default.mysqlPassword
    mysqlDatabase := string "mysql.database" default.mysqlDatabase
    processingMaxAttempts := int "consumer.processing_max_attempts" default.processingMaxAttempts
    retryInitialMs := int "consumer.retry_initial_ms" default.retryInitialMs
    retryMaxMs := int "consumer.retry_max_ms" default.retryMaxMs
    offsetCommitMaxAttempts :=
      int "consumer.offset_commit_max_attempts" default.offsetCommitMaxAttempts
    observabilityEnabled := bool "consumer.observability_enabled" default.observabilityEnabled
    observabilityListenAddress :=
      string "consumer.observability_listen_address" default.observabilityListenAddress
    observabilityPort := int "consumer.observability_port" default.observabilityPort
    lagRefreshMs := int "consumer.lag_refresh_ms" default.lagRefreshMs
    kafkaQueryTimeoutMs := int "consumer.kafka_query_timeout_ms" default.kafkaQueryTimeoutMs }

def isInvalid (c : ConsumerConfig) : Bool :=
  c.bootstrapServers = [] || c.topic = [] || c.groupId = [] || c.clientId = [] ||
    c.dlqTopic = [] || c.dlqClientId = [] || c.mysqlHost = [] || c.mysqlUser = [] ||
    c.mysqlDatabase = [] ||
    (c.autoOffsetReset ≠ ascii "earliest" && c.autoOffsetReset ≠ ascii "latest") ||
    c.pollTimeoutMs ≤ 0 || c.sessionTimeoutMs ≤ 0 || c.dlqMessageTimeoutMs ≤ 0 ||
    c.dlqDeliveryTimeoutMs ≤ 0 || c.processingMaxAttempts ≤ 0 || c.retryInitialMs ≤ 0 ||
    c.retryMaxMs < c.retryInitialMs || c.offsetCommitMaxAttempts ≤ 0 ||
    c.observabilityListenAddress = [] || c.observabilityPort ≤ 0 || 65535 < c.observabilityPort ||
    c.lagRefreshMs ≤ 0 || c.kafkaQueryTimeoutMs ≤ 0

/-- There is no content when the file cannot be opened. -/
def loadConsumerConfig (path : Bytes) (content : Option Bytes) :
    Except Exception ConsumerConfig :=
  match loadFromFile (fun _ => none) content with
  | (false, _) => .error (.runtimeError (ascii "failed to load consumer config: " ++ path))
  | (true, file) =>
    let config := readConsumerConfig file
    if isInvalid config then
      .error (.invalidArgument (ascii "invalid access event consumer config"))
    else .ok config

def ConsumerConfig.handling (c : ConsumerConfig) : AccessEventConsumer.ConsumerConfig where
  topic := c.topic
  retryInitialMs := c.retryInitialMs
  retryMaxMs := c.retryMaxMs
  processingMaxAttempts := c.processingMaxAttempts.toNat
  offsetCommitMaxAttempts := c.offsetCommitMaxAttempts.toNat

def IsInt32 (n : ℤ) : Prop := -2 ^ 31 ≤ n ∧ n ≤ 2 ^ 31 - 1

instance (n : ℤ) : Decidable (IsInt32 n) := inferInstanceAs (Decidable (_ ∧ _))

theorem stoi_isInt32 {text : Bytes} {n : ℤ} (h : stoi text = .ok n) : IsInt32 n := by
  have hchecked : ∀ (digits : Bytes) (value : ℤ),
      (if digits.isEmpty then .error (.invalidArgument (ascii "stoi"))
        else if -2 ^ 31 ≤ value && value < 2 ^ 31 then .ok value
        else .error (.outOfRange (ascii "stoi")) : Except Exception ℤ) = .ok n → IsInt32 n := by
    intro digits value hvalue
    split at hvalue
    · cases hvalue
    · split at hvalue
      · next hrange =>
        obtain rfl := Except.ok.inj hvalue
        simp only [Bool.and_eq_true, decide_eq_true_eq] at hrange
        exact ⟨hrange.1, Int.le_sub_one_of_lt hrange.2⟩
      · cases hvalue
  exact hchecked _ _ h

theorem getInt_isInt32 (values : Values) (key : Bytes) {defaultValue : ℤ}
    (hdefault : IsInt32 defaultValue) : IsInt32 (getInt values key defaultValue) := by
  rw [getInt]
  split
  · exact hdefault
  · split
    · exact hdefault
    · next hstoi =>
      split
      · exact hdefault
      · exact stoi_isInt32 hstoi

theorem loadConsumerConfig_ok {path : Bytes} {content : Option Bytes} {config : ConsumerConfig}
    (h : loadConsumerConfig path content = .ok config) :
    ∃ file, config = readConsumerConfig file ∧ isInvalid config = false := by
  rw [loadConsumerConfig] at h
  split at h
  · cases h
  · next file _ =>
    by_cases hinvalid : isInvalid (readConsumerConfig file) = true
    · simp only [hinvalid, if_true] at h
      cases h
    · simp only [hinvalid] at h
      obtain rfl := Except.ok.inj h
      exact ⟨file, rfl, Bool.eq_false_of_not_eq_true hinvalid⟩

structure RetryBounds (c : ConsumerConfig) : Prop where
  attempts : 1 ≤ c.processingMaxAttempts
  initial : 1 ≤ c.retryInitialMs
  ordered : c.retryInitialMs ≤ c.retryMaxMs
  maximum : c.retryMaxMs ≤ 2 ^ 31 - 1

theorem retryBounds {path : Bytes} {content : Option Bytes} {config : ConsumerConfig}
    (h : loadConsumerConfig path content = .ok config) : RetryBounds config := by
  obtain ⟨file, hconfig, hvalid⟩ := loadConsumerConfig_ok h
  have hmaximum : IsInt32 config.retryMaxMs := by
    rw [hconfig]
    exact getInt_isInt32 _ _ (by decide)
  simp only [isInvalid, Bool.or_eq_false_iff, decide_eq_false_iff_not, not_le, not_lt] at hvalid
  exact ⟨by omega, by omega, by omega, hmaximum.2⟩

end ConsumerConfigs
