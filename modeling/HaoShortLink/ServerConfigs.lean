import HaoShortLink.Configs

/-! ServerConfig.cpp: the settings of the server, with the values that are not accepted. -/
namespace ServerConfigs

open Cpp Configs

structure ServerConfig where
  name : Bytes := ascii "HaoShortLink"
  port : ℤ := 8080
  threadNum : ℤ := 4
  metricsEnabled : Bool := true
  storageType : Bytes := ascii "memory"
  statisticsEnabled : Bool := false
  mysqlHost : Bytes := ascii "tcp://127.0.0.1:3306"
  mysqlUser : Bytes := ascii "root"
  mysqlPassword : Bytes := []
  mysqlDatabase : Bytes := ascii "hao_shortlink"
  mysqlPoolSize : ℤ := 4
  redisEnabled : Bool := false
  redisHost : Bytes := ascii "127.0.0.1"
  redisPort : ℤ := 6379
  redisDatabase : ℤ := 0
  redisTtlSeconds : ℤ := 3600
  redisKeyPrefix : Bytes := ascii "shortlink:"
  rateLimitEnabled : Bool := false
  rateLimitRequests : ℤ := 100
  rateLimitWindowSeconds : ℤ := 60
  rateLimitKeyPrefix : Bytes := ascii "rate-limit:create:"
  kafkaEnabled : Bool := false
  kafkaBootstrapServers : Bytes := ascii "127.0.0.1:9092"
  kafkaTopic : Bytes := ascii "hao-shortlink.access-events.v1"
  kafkaClientId : Bytes := ascii "hao-shortlink-server"
  kafkaQueueMaxMessages : ℤ := 10000
  kafkaMessageTimeoutMs : ℤ := 10000
  kafkaLingerMs : ℤ := 5
  kafkaShutdownTimeoutMs : ℤ := 3000
  registrationEnabled : Bool := true
  authCookieSecure : Bool := false
  sessionTtlSeconds : ℤ := 604800
  deriving DecidableEq, Repr

def readServerConfig (values : Values) : ServerConfig :=
  let default : ServerConfig := {}
  let string (key : String) := getString values (ascii key)
  let int (key : String) := getInt values (ascii key)
  let bool (key : String) := getBool values (ascii key)
  { name := string "server.name" default.name
    port := int "server.port" default.port
    threadNum := int "server.thread_num" default.threadNum
    metricsEnabled := bool "metrics.enabled" default.metricsEnabled
    storageType := string "storage.type" default.storageType
    statisticsEnabled := bool "statistics.enabled" default.statisticsEnabled
    mysqlHost := string "mysql.host" default.mysqlHost
    mysqlUser := string "mysql.user" default.mysqlUser
    mysqlPassword := string "mysql.password" default.mysqlPassword
    mysqlDatabase := string "mysql.database" default.mysqlDatabase
    mysqlPoolSize := int "mysql.pool_size" default.mysqlPoolSize
    redisEnabled := bool "redis.enabled" default.redisEnabled
    redisHost := string "redis.host" default.redisHost
    redisPort := int "redis.port" default.redisPort
    redisDatabase := int "redis.database" default.redisDatabase
    redisTtlSeconds := int "redis.ttl_seconds" default.redisTtlSeconds
    redisKeyPrefix := string "redis.key_prefix" default.redisKeyPrefix
    rateLimitEnabled := bool "rate_limit.enabled" default.rateLimitEnabled
    rateLimitRequests := int "rate_limit.requests" default.rateLimitRequests
    rateLimitWindowSeconds := int "rate_limit.window_seconds" default.rateLimitWindowSeconds
    rateLimitKeyPrefix := string "rate_limit.key_prefix" default.rateLimitKeyPrefix
    kafkaEnabled := bool "kafka.enabled" default.kafkaEnabled
    kafkaBootstrapServers := string "kafka.bootstrap_servers" default.kafkaBootstrapServers
    kafkaTopic := string "kafka.topic" default.kafkaTopic
    kafkaClientId := string "kafka.client_id" default.kafkaClientId
    kafkaQueueMaxMessages := int "kafka.queue_max_messages" default.kafkaQueueMaxMessages
    kafkaMessageTimeoutMs := int "kafka.message_timeout_ms" default.kafkaMessageTimeoutMs
    kafkaLingerMs := int "kafka.linger_ms" default.kafkaLingerMs
    kafkaShutdownTimeoutMs := int "kafka.shutdown_timeout_ms" default.kafkaShutdownTimeoutMs
    registrationEnabled := bool "auth.registration_enabled" default.registrationEnabled
    authCookieSecure := bool "auth.cookie_secure" default.authCookieSecure
    sessionTtlSeconds := int "auth.session_ttl_seconds" default.sessionTtlSeconds }

/-- A check of the settings, with the warning and the repair when it fails. -/
structure Check where
  fails : ServerConfig → Bool
  warns : ServerConfig → Bool := fun _ => true
  message : String
  repair : ServerConfig → ServerConfig

def checkPort : Check where
  fails c := c.port ≤ 0 || 65535 < c.port
  message := "Invalid server.port. Using default port 8080."
  repair c := { c with port := 8080 }

def checkThreadNum : Check where
  fails c := c.threadNum ≤ 0
  message := "Invalid server.thread_num. Using default thread_num 4."
  repair c := { c with threadNum := 4 }

def checkStorageType : Check where
  fails c := c.storageType ≠ ascii "memory" && c.storageType ≠ ascii "mysql"
  message := "Invalid storage.type. Using memory storage."
  repair c := { c with storageType := ascii "memory" }

def checkMysqlPoolSize : Check where
  fails c := c.mysqlPoolSize ≤ 0
  message := "Invalid mysql.pool_size. Using default pool_size 4."
  repair c := { c with mysqlPoolSize := 4 }

def checkStatistics : Check where
  fails c := c.statisticsEnabled && c.storageType ≠ ascii "mysql"
  message := "statistics.enabled requires storage.type=mysql. Disabling statistics API."
  repair c := { c with statisticsEnabled := false }

def checkRedisPort : Check where
  fails c := c.redisPort ≤ 0 || 65535 < c.redisPort
  message := "Invalid redis.port. Using default port 6379."
  repair c := { c with redisPort := 6379 }

def checkRedisDatabase : Check where
  fails c := c.redisDatabase < 0
  message := "Invalid redis.database. Using default database 0."
  repair c := { c with redisDatabase := 0 }

def checkRedisTtl : Check where
  fails c := c.redisTtlSeconds ≤ 0 || 86400 < c.redisTtlSeconds
  message := "redis.ttl_seconds must be between 1 and 86400. Using 3600."
  repair c := { c with redisTtlSeconds := 3600 }

def checkRateLimit : Check where
  fails c := c.rateLimitRequests ≤ 0 || c.rateLimitWindowSeconds ≤ 0 ||
    c.rateLimitKeyPrefix = [] || c.rateLimitKeyPrefix = c.redisKeyPrefix
  warns c := c.rateLimitEnabled
  message := "Invalid rate limit configuration. Disabling rate limiting."
  repair c := { c with rateLimitEnabled := false }

def checkKafka : Check where
  fails c := c.kafkaBootstrapServers = [] || c.kafkaTopic = [] || c.kafkaClientId = [] ||
    c.kafkaQueueMaxMessages ≤ 0 || c.kafkaMessageTimeoutMs ≤ 0 || c.kafkaLingerMs < 0 ||
    c.kafkaShutdownTimeoutMs < 0
  warns c := c.kafkaEnabled
  message := "Invalid Kafka configuration. Disabling Kafka access events."
  repair c := { c with kafkaEnabled := false }

def checkSessionTtl : Check where
  fails c := c.sessionTtlSeconds < 300 || 2592000 < c.sessionTtlSeconds
  message := "auth.session_ttl_seconds must be between 300 and 2592000. Using 604800."
  repair c := { c with sessionTtlSeconds := 604800 }

def checks : List Check :=
  [checkPort, checkThreadNum, checkStorageType, checkMysqlPoolSize, checkStatistics,
    checkRedisPort, checkRedisDatabase, checkRedisTtl, checkRateLimit, checkKafka,
    checkSessionTtl]

/-- The settings, and the lines on std::cerr. -/
structure Loaded where
  config : ServerConfig
  errors : List Bytes
  deriving DecidableEq, Repr

def Check.apply (loaded : Loaded) (check : Check) : Loaded :=
  if check.fails loaded.config then
    ⟨check.repair loaded.config,
      if check.warns loaded.config then loaded.errors ++ [ascii check.message]
      else loaded.errors⟩
  else loaded

/-- The path is empty, or names a file that may be missing. -/
inductive ConfigPath where
  | empty
  | file (path : Bytes) (content : Option Bytes)
  deriving DecidableEq, Repr

def loadServerConfig : ConfigPath → Loaded
  | .empty => checks.foldl Check.apply ⟨{}, []⟩
  | .file path content =>
    match loadFromFile (fun _ => none) content with
    | (false, _) =>
      ⟨{}, [ascii "Failed to load config file: " ++ path ++
        ascii ". Using default server config."]⟩
    | (true, values) => checks.foldl Check.apply ⟨readServerConfig values, []⟩

/-- Every default is accepted by its own check. -/
theorem defaults_accepted : ∀ check ∈ checks, check.fails {} = false := by decide

theorem loadServerConfig_empty : loadServerConfig .empty = ⟨{}, []⟩ := by
  have haccepted : ∀ l : List Check, (∀ check ∈ l, check.fails {} = false) →
      l.foldl Check.apply ⟨{}, []⟩ = ⟨{}, []⟩ := by
    intro l hl
    induction l with
    | nil => rfl
    | cons check l ih =>
      rw [List.foldl_cons, Check.apply, if_neg (by simp [hl check List.mem_cons_self])]
      exact ih fun check' h => hl check' (List.mem_cons_of_mem _ h)
  exact haccepted checks defaults_accepted

theorem foldl_checks {α : Type} (field : ServerConfig → α) (l : List Check)
    (h : ∀ check ∈ l, ∀ config, field (check.repair config) = field config) (loaded : Loaded) :
    field (l.foldl Check.apply loaded).config = field loaded.config := by
  induction l generalizing loaded with
  | nil => rfl
  | cons check l ih =>
    rw [List.foldl_cons, ih fun check' h' => h check' (List.mem_cons_of_mem _ h'), Check.apply]
    split
    · exact h check List.mem_cons_self _
    · rfl

def keyPrefixes (config : ServerConfig) : Bytes × Bytes :=
  (config.redisKeyPrefix, config.rateLimitKeyPrefix)

theorem keyPrefixes_checks (loaded : Loaded) :
    keyPrefixes (checks.foldl Check.apply loaded).config = keyPrefixes loaded.config := by
  refine foldl_checks keyPrefixes checks ?_ loaded
  intro check hcheck config
  simp only [checks, List.mem_cons, List.not_mem_nil, or_false] at hcheck
  rcases hcheck with rfl | rfl | rfl | rfl | rfl | rfl | rfl | rfl | rfl | rfl | rfl <;> rfl

end ServerConfigs
