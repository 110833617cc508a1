import HaoShortLink.Expositions
import HaoShortLink.Histories
import HaoShortLink.ServerStates

/-! ShortLinkMetrics.cpp: the counters of the application, and renders beside calls that record. -/
namespace ShortLinkCounters

open Cpp Histories ShortLinks ServerStates
open Expositions (Line Series)

inductive CacheOperation where
  | get
  | set
  | delete
  deriving DecidableEq, Repr

inductive CacheResult where
  | hit
  | miss
  | success
  | error
  deriving DecidableEq, Repr

inductive Backend where
  | mysql
  | redis
  deriving DecidableEq, Repr

inductive BackendOperation where
  | create
  | find
  | list
  | update
  | statistics
  | get
  | set
  | delete
  | rateLimit
  deriving DecidableEq, Repr

inductive AccessEventEnqueueResult where
  | accepted
  | queueFull
  | error
  deriving DecidableEq, Repr

inductive AccessEventDeliveryResult where
  | success
  | failure
  deriving DecidableEq, Repr

/-- One of the atomic counters of an array. -/
inductive Cell where
  | createCounters (index : ℕ)
  | redirectCounters (index : ℕ)
  | cacheCounters (index : ℕ)
  | backendErrorCounters (index : ℕ)
  | rateLimitCounters (index : ℕ)
  | accessEventEnqueueCounters (index : ℕ)
  | accessEventDeliveryCounters (index : ℕ)
  deriving DecidableEq, Repr

def kCreateResultCount : ℕ := 3
def kRedirectResultCount : ℕ := 5
def kCacheResultCount : ℕ := 4
def kBackendOperationCount : ℕ := 9

def Cell.InBounds : Cell → Prop
  | .createCounters index => index < 2 * kCreateResultCount
  | .redirectCounters index => index < 3 * kRedirectResultCount
  | .cacheCounters index => index < 3 * kCacheResultCount
  | .backendErrorCounters index => index < 2 * kBackendOperationCount
  | .rateLimitCounters index | .accessEventEnqueueCounters index => index < 3
  | .accessEventDeliveryCounters index => index < 2

instance : DecidablePred Cell.InBounds := fun x => by
  cases x <;> rw [Cell.InBounds] <;> infer_instance

def storageIndex : Storage → ℕ
  | .memory => 0
  | .mysql => 1

def createResultIndex : CreateResult → ℕ
  | .success => 0
  | .invalid => 1
  | .error => 2

def redirectSourceIndex : LookupSource → ℕ
  | .memory => 0
  | .mysql => 1
  | .redis => 2

def redirectResultIndex : RedirectResult → ℕ
  | .success => 0
  | .notFound => 1
  | .disabled => 2
  | .expired => 3
  | .error => 4

def cacheOperationIndex : CacheOperation → ℕ
  | .get => 0
  | .set => 1
  | .delete => 2

def cacheResultIndex : CacheResult → ℕ
  | .hit => 0
  | .miss => 1
  | .success => 2
  | .error => 3

def backendIndex : Backend → ℕ
  | .mysql => 0
  | .redis => 1

def backendOperationIndex : BackendOperation → ℕ
  | .create => 0
  | .find => 1
  | .list => 2
  | .update => 3
  | .statistics => 4
  | .get => 5
  | .set => 6
  | .delete => 7
  | .rateLimit => 8

def rateLimitResultIndex : RateLimitStatus → ℕ
  | .allowed => 0
  | .limited => 1
  | .error => 2

def accessEventEnqueueResultIndex : AccessEventEnqueueResult → ℕ
  | .accepted => 0
  | .queueFull => 1
  | .error => 2

def accessEventDeliveryResultIndex : AccessEventDeliveryResult → ℕ
  | .success => 0
  | .failure => 1

/-- A call of one of the record functions. -/
inductive Record where
  | create (result : CreateResult) (storage : Storage)
  | redirect (result : RedirectResult) (source : LookupSource)
  | cache (operation : CacheOperation) (result : CacheResult)
  | backendError (backend : Backend) (operation : BackendOperation)
  | rateLimit (result : RateLimitStatus)
  | accessEventEnqueue (result : AccessEventEnqueueResult)
  | accessEventDelivery (result : AccessEventDeliveryResult)
  deriving DecidableEq, Repr

def Record.cell : Record → Cell
  | .create result storage =>
    .createCounters (storageIndex storage * kCreateResultCount + createResultIndex result)
  | .redirect result source => .redirectCounters
      (redirectSourceIndex source * kRedirectResultCount + redirectResultIndex result)
  | .cache operation result => .cacheCounters
      (cacheOperationIndex operation * kCacheResultCount + cacheResultIndex result)
  | .backendError backend operation => .backendErrorCounters
      (backendIndex backend * kBackendOperationCount + backendOperationIndex operation)
  | .rateLimit result => .rateLimitCounters (rateLimitResultIndex result)
  | .accessEventEnqueue result =>
    .accessEventEnqueueCounters (accessEventEnqueueResultIndex result)
  | .accessEventDelivery result =>
    .accessEventDeliveryCounters (accessEventDeliveryResultIndex result)

structure ShortLinkMetrics where
  counters : Cell → UInt64
  accessEventQueueSize : UInt64

namespace ShortLinkMetrics

def initial : ShortLinkMetrics := ⟨fun _ => 0, 0⟩

/-- fetch_add. -/
def record (m : ShortLinkMetrics) (r : Record) : ShortLinkMetrics :=
  { m with counters := Function.update m.counters r.cell (m.counters r.cell + 1) }

def setAccessEventQueueSize (m : ShortLinkMetrics) (size : UInt64) : ShortLinkMetrics :=
  { m with accessEventQueueSize := size }

end ShortLinkMetrics

def kStorageLabels : List Bytes := [ascii "memory", ascii "mysql"]
def kCreateResultLabels : List Bytes := [ascii "success", ascii "invalid", ascii "error"]
def kRedirectSourceLabels : List Bytes := [ascii "memory", ascii "mysql", ascii "redis"]
def kRedirectResultLabels : List Bytes :=
  [ascii "success", ascii "not_found", ascii "disabled", ascii "expired", ascii "error"]
def kCacheOperationLabels : List Bytes := [ascii "get", ascii "set", ascii "delete"]
def kCacheResultLabels : List Bytes :=
  [ascii "hit", ascii "miss", ascii "success", ascii "error"]
def kBackendLabels : List Bytes := [ascii "mysql", ascii "redis"]
def kBackendOperationLabels : List Bytes :=
  [ascii "create", ascii "find", ascii "list", ascii "update", ascii "statistics", ascii "get",
    ascii "set", ascii "delete", ascii "rate_limit"]
def kRateLimitResultLabels : List Bytes := [ascii "allowed", ascii "limited", ascii "error"]
def kAccessEventEnqueueResultLabels : List Bytes :=
  [ascii "accepted", ascii "queue_full", ascii "error"]
def kAccessEventDeliveryResultLabels : List Bytes := [ascii "success", ascii "failure"]

/-- A line of the text: its series as it is printed, and the counter it loads. -/
structure Row where
  series : Series
  cell : Cell
  deriving DecidableEq, Repr

/-- Two loops, the inner one over the results. -/
def table (name : String) (outer inner : List Bytes) (valid : ℕ → ℕ → Bool)
    (labels : Bytes → Bytes → List (Bytes × Bytes)) (cell : ℕ → ℕ → Cell) : List Row :=
  (List.range outer.length).flatMap fun i =>
    ((List.range inner.length).filter (valid i)).map fun j =>
      ⟨⟨ascii name, labels (outer.getD i []) (inner.getD j [])⟩, cell i j⟩

def createRows : List Row :=
  table "haohttp_shortlink_create_total" kStorageLabels kCreateResultLabels (fun _ _ => true)
    (fun storage result => [(ascii "result", result), (ascii "storage", storage)])
    fun storage result => .createCounters (storage * kCreateResultCount + result)

def redirectRows : List Row :=
  table "haohttp_shortlink_redirect_total" kRedirectSourceLabels kRedirectResultLabels
    (fun _ _ => true)
    (fun source result => [(ascii "result", result), (ascii "source", source)])
    fun source result => .redirectCounters (source * kRedirectResultCount + result)

def validCache (operation result : ℕ) : Bool :=
  (operation == cacheOperationIndex .get && result != cacheResultIndex .success) ||
    ((operation == cacheOperationIndex .set || operation == cacheOperationIndex .delete) &&
      (result == cacheResultIndex .success || result == cacheResultIndex .error))

def cacheRows : List Row :=
  table "haohttp_shortlink_cache_operations_total" kCacheOperationLabels kCacheResultLabels
    validCache (fun operation result => [(ascii "operation", operation), (ascii "result", result)])
    fun operation result => .cacheCounters (operation * kCacheResultCount + result)

def validBackend (backend operation : ℕ) : Bool :=
  (backend == backendIndex .mysql && operation ≤ backendOperationIndex .statistics) ||
    (backend == backendIndex .redis && backendOperationIndex .get ≤ operation)

def backendErrorRows : List Row :=
  table "haohttp_shortlink_backend_errors_total" kBackendLabels kBackendOperationLabels
    validBackend
    (fun backend operation => [(ascii "backend", backend), (ascii "operation", operation)])
    fun backend operation => .backendErrorCounters (backend * kBackendOperationCount + operation)

/-- One loop over the results. -/
def column (name : String) (labels : List Bytes) (cell : ℕ → Cell) : List Row :=
  (List.range labels.length).map fun i =>
    ⟨⟨ascii name, [(ascii "result", labels.getD i [])]⟩, cell i⟩

def rateLimitRows : List Row :=
  column "haohttp_shortlink_rate_limit_checks_total" kRateLimitResultLabels .rateLimitCounters

def enqueueRows : List Row :=
  column "haohttp_shortlink_access_event_enqueue_total" kAccessEventEnqueueResultLabels
    .accessEventEnqueueCounters

def deliveryRows : List Row :=
  column "haohttp_shortlink_access_event_delivery_total" kAccessEventDeliveryResultLabels
    .accessEventDeliveryCounters

/-- The lines of a metric with its help text. -/
structure Family where
  name : String
  help : String
  rows : List Row

/-- The counters in the order in which they are printed. -/
def families : List Family :=
  [⟨"haohttp_shortlink_create_total", "Short link creation results.", createRows⟩,
    ⟨"haohttp_shortlink_redirect_total", "Short link redirect lookup results.", redirectRows⟩,
    ⟨"haohttp_shortlink_cache_operations_total", "Redis cache operation results.", cacheRows⟩,
    ⟨"haohttp_shortlink_backend_errors_total", "Short link backend operation errors.",
      backendErrorRows⟩,
    ⟨"haohttp_shortlink_rate_limit_checks_total", "Short link create rate limit check results.",
      rateLimitRows⟩,
    ⟨"haohttp_shortlink_access_event_enqueue_total", "Kafka access event enqueue results.",
      enqueueRows⟩,
    ⟨"haohttp_shortlink_access_event_delivery_total", "Kafka access event delivery results.",
      deliveryRows⟩]

def rows : List Row := families.flatMap Family.rows

/-- The label values are printed as they are. -/
def printLabels (labels : List (Bytes × Bytes)) : Bytes :=
  ((labels.map fun l => l.1 ++ ascii "=\"" ++ l.2 ++ ascii "\"").intersperse (ascii ",")).flatten

def printRow (row : Row) (value : UInt64) : Bytes :=
  row.series.name ++ ascii "\x7b" ++ printLabels row.series.labels ++ ascii "\x7d " ++
    toDecimal value.toNat ++ ascii "\n"

def header (name help kind : String) : Bytes :=
  ascii "# HELP " ++ ascii name ++ ascii " " ++ ascii help ++ ascii "\n# TYPE " ++ ascii name ++
    ascii " " ++ ascii kind ++ ascii "\n"

def printFamily (load : Cell → UInt64) (f : Family) : Bytes :=
  header f.name f.help "counter" ++ f.rows.flatMap fun row => printRow row (load row.cell)

def renderPrometheus (load : Cell → UInt64) (accessEventQueueSize : UInt64) : Bytes :=
  families.flatMap (printFamily load) ++
    header "haohttp_shortlink_access_event_queue_size" "Kafka access events awaiting delivery."
      "gauge" ++
    ascii "haohttp_shortlink_access_event_queue_size " ++ toDecimal accessEventQueueSize.toNat ++
    ascii "\n"

/-- A render that has loaded the counters of some rows. How many events came before it is not
printed. -/
structure Render where
  loaded : List UInt64
  began : ℕ
  deriving DecidableEq, Repr

structure Scrape where
  loaded : List UInt64
  accessEventQueueSize : UInt64
  began : ℕ
  deriving DecidableEq, Repr

structure State where
  metrics : ShortLinkMetrics
  renders : Multiset Render
  rendered : List Scrape
  /-- The number of events so far. -/
  happened : ℕ

def initial : State := ⟨.initial, 0, [], 0⟩

inductive Event where
  | record (r : Record)
  | setAccessEventQueueSize (size : UInt64)
  | render
  /-- The next load of a render. -/
  | step (r : Render)
  deriving DecidableEq, Repr

def load (s : State) (rest : Multiset Render) (r : Render) : State :=
  match rows[r.loaded.length]? with
  | some row =>
    let r := { r with loaded := r.loaded ++ [s.metrics.counters row.cell] }
    { s with renders := r ::ₘ rest }
  | none =>
    { s with
      renders := rest
      rendered := s.rendered ++ [⟨r.loaded, s.metrics.accessEventQueueSize, r.began⟩] }

def next (s : State) (e : Event) : Option State :=
  let s' := { s with happened := s.happened + 1 }
  match e with
  | .record r => some { s' with metrics := s.metrics.record r }
  | .setAccessEventQueueSize size =>
    some { s' with metrics := s.metrics.setAccessEventQueueSize size }
  | .render => some { s' with renders := ⟨[], s.happened⟩ ::ₘ s.renders }
  | .step r => advance s.renders r fun rest => some (load s' rest r)

abbrev Step (s : State) (e : Event) (s' : State) : Prop := next s e = some s'

namespace Scrape

/-- The number that was loaded for the row of the counter. -/
def load (out : Scrape) (x : Cell) : UInt64 :=
  out.loaded.getD (rows.findIdx fun row => row.cell = x) 0

def text (out : Scrape) : Bytes := renderPrometheus out.load out.accessEventQueueSize

end Scrape

end ShortLinkCounters
