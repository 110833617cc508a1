import HaoShortLink.Histories
import HaoShortLink.HttpRequests
import Mathlib.Algebra.Order.Ring.Unbundled.Rat

/-! HttpMetrics.cpp: calls of record, registerRoute and renderPrometheus side by side. A step is the
part of a call under a lock or one operation on one of the atomic counters. -/
namespace HttpMetrics

open Cpp HttpRequests Histories
open OrderedMaps (OrderedMap)

/-- A double as far as comparisons go. -/
inductive Double where
  | nan
  | negInfinity
  | finite (value : ℚ)
  | infinity
  deriving DecidableEq, Repr

def Double.lt : Double → Double → Bool
  | .nan, _ => false
  | _, .nan => false
  | .finite x, .finite y => x < y
  | .negInfinity, y => y ≠ .negInfinity
  | x, .infinity => x ≠ .infinity
  | _, _ => false

/-- The doubles next to the numbers that the labels name. -/
def kDurationBuckets : List ℚ :=
  [1152921504606847 / 2 ^ 61, 1152921504606847 / 2 ^ 60, 5764607523034235 / 2 ^ 61,
    5764607523034235 / 2 ^ 60, 5764607523034235 / 2 ^ 59, 3602879701896397 / 2 ^ 57,
    3602879701896397 / 2 ^ 56, 3602879701896397 / 2 ^ 55, 1 / 4, 1 / 2, 1, 5 / 2, 5]

def kDurationBucketLabels : List Bytes :=
  [ascii "0.0005", ascii "0.001", ascii "0.0025", ascii "0.005", ascii "0.01", ascii "0.025",
    ascii "0.05", ascii "0.1", ascii "0.25", ascii "0.5", ascii "1", ascii "2.5", ascii "5"]

def kStatusClassLabels : List Bytes :=
  [ascii "2xx", ascii "3xx", ascii "4xx", ascii "5xx", ascii "other"]

/-- std::max(0.0, durationSeconds), which keeps 0 unless the other is greater. -/
def safeDuration (durationSeconds : Double) : Double :=
  if (Double.finite 0).lt durationSeconds then durationSeconds else .finite 0

/-- std::lower_bound; nothing for its end. -/
def bucketIndex (durationSeconds : Double) : Option ℕ :=
  kDurationBuckets.findIdx? fun bound => !(Double.finite bound).lt (safeDuration durationSeconds)

def methodToString : Method → Bytes
  | .get => ascii "GET"
  | .post => ascii "POST"
  | .head => ascii "HEAD"
  | .put => ascii "PUT"
  | .delete => ascii "DELETE"
  | .options => ascii "OPTIONS"
  | .invalid => ascii "INVALID"

def makeKey (method : Method) (route : Bytes) : Bytes := methodToString method ++ 10 :: route

def statusClassIndex (status : ℕ) : ℕ :=
  if 200 ≤ status ∧ status < 300 then 0
  else if 300 ≤ status ∧ status < 400 then 1
  else if 400 ≤ status ∧ status < 500 then 2
  else if 500 ≤ status ∧ status < 600 then 3
  else 4

/-- One object for each route that was ever registered; its counters are cells. -/
structure RouteMetrics where
  method : Bytes
  route : Bytes
  deriving DecidableEq, Repr

inductive Cell where
  | statusCounts (m : RouteMetrics) (i : ℕ)
  | bucketCounts (m : RouteMetrics) (i : ℕ)
  | requestCount (m : RouteMetrics)
  | durationNanoseconds (m : RouteMetrics)
  deriving DecidableEq, Repr

structure Observation where
  statusCode : ℕ
  durationSeconds : Double
  deriving DecidableEq, Repr

/-- What findOrRegister is called with; registerRoute observes nothing. -/
structure Lookup where
  method : Method
  route : Bytes
  observation : Option Observation
  deriving DecidableEq, Repr

/-- A bucket and the number of its updates so far: what its fetch_add tells, and record drops. -/
abbrev Rank := (_ : ℕ) × ℕ

/-- What a render prints of the histogram of a route. How many record calls had made an update of a
bucket that was counted, but not yet that of requestCount when this was loaded, is not printed. -/
structure Histogram where
  metrics : RouteMetrics
  loaded : List UInt64
  requestCount : UInt64
  durationNanoseconds : UInt64
  behind : ℕ
  deriving DecidableEq, Repr

structure Scrape where
  statuses : List (RouteMetrics × List UInt64)
  histograms : List Histogram
  deriving DecidableEq, Repr

/-- Where a call is: what it does next. -/
inductive Call where
  /-- findOrRegister, under the shared lock. -/
  | find (l : Lookup)
  /-- findOrRegister, under the unique lock. -/
  | register (l : Lookup)
  | status (m : RouteMetrics) (o : Observation)
  | bucket (m : RouteMetrics) (o : Observation)
  | duration (m : RouteMetrics) (o : Observation) (rank : Option Rank)
  | count (m : RouteMetrics) (rank : Option Rank)
  | snapshot
  | loadStatus (m : RouteMetrics) (todo : List RouteMetrics) (loaded : List UInt64) (out : Scrape)
  | loadBucket (m : RouteMetrics) (todo : List RouteMetrics) (loaded : List UInt64) (out : Scrape)
  | loadCount (m : RouteMetrics) (todo : List RouteMetrics) (loaded : List UInt64) (out : Scrape)
  | loadDuration (m : RouteMetrics) (todo : List RouteMetrics) (loaded : List UInt64)
      (requestCount : UInt64) (behind : ℕ) (out : Scrape)
  deriving DecidableEq, Repr

structure State where
  routes : OrderedMap Bytes RouteMetrics
  cells : Cell → UInt64
  calls : Multiset Call
  /-- What the renders have returned. -/
  rendered : List Scrape
  /-- The record calls that have begun. -/
  records : ℕ

def initial : State := ⟨.empty, fun _ => 0, 0, [], 0⟩

namespace State

/-- fetch_add. -/
def add (s : State) (x : Cell) (n : UInt64) : Cell → UInt64 :=
  Function.update s.cells x (s.cells x + n)

def found (l : Lookup) (m : RouteMetrics) : Multiset Call :=
  match l.observation with
  | some o => {.status m o}
  | none => 0

/-- The loop over the next route of the histograms, or the end of the render. -/
def nextHistogram (s : State) (rest : Multiset Call) (out : Scrape) : List RouteMetrics → State
  | m :: todo => { s with calls := .loadBucket m todo [] out ::ₘ rest }
  | [] => { s with calls := rest, rendered := s.rendered ++ [out] }

def nextStatuses (s : State) (rest : Multiset Call) (out : Scrape) : List RouteMetrics → State
  | m :: todo => { s with calls := .loadStatus m todo [] out ::ₘ rest }
  | [] => s.nextHistogram rest out (out.statuses.map Prod.fst)

end State

/-- The bucket update of the call has been counted, that of requestCount is still to come. -/
def counted (m : RouteMetrics) (loaded : List UInt64) : Call → Bool
  | .duration m' _ (some rank) | .count m' (some rank) =>
    m' = m ∧ rank.2 ≤ (loaded.getD rank.1 0).toNat
  | _ => false

variable (toNanoseconds : Double → UInt64)

/-- One step of a call beside the others. The conversion of a duration is a parameter. -/
def perform (s : State) (rest : Multiset Call) : Call → State
  | .find l =>
    match s.routes.find? (makeKey l.method l.route) with
    | some m => { s with calls := State.found l m + rest }
    | none => { s with calls := .register l ::ₘ rest }
  | .register l =>
    match s.routes.find? (makeKey l.method l.route) with
    | some m => { s with calls := State.found l m + rest }
    | none =>
      let m : RouteMetrics := ⟨methodToString l.method, l.route⟩
      { s with
        routes := s.routes.insert (makeKey l.method l.route) m
        calls := State.found l m + rest }
  | .status m o =>
    { s with
      cells := s.add (.statusCounts m (statusClassIndex o.statusCode)) 1
      calls := .bucket m o ::ₘ rest }
  | .bucket m o =>
    match bucketIndex o.durationSeconds with
    | some i =>
      { s with
        cells := s.add (.bucketCounts m i) 1
        calls := .duration m o (some ⟨i, (s.cells (.bucketCounts m i) + 1).toNat⟩) ::ₘ rest }
    | none => { s with calls := .duration m o none ::ₘ rest }
  | .duration m o rank =>
    { s with
      cells := s.add (.durationNanoseconds m) (toNanoseconds o.durationSeconds)
      calls := .count m rank ::ₘ rest }
  | .count m _ => { s with cells := s.add (.requestCount m) 1, calls := rest }
  | .snapshot => s.nextStatuses rest ⟨[], []⟩ (s.routes.entries.map Prod.snd)
  | .loadStatus m todo loaded out =>
    let loaded := loaded ++ [s.cells (.statusCounts m loaded.length)]
    if loaded.length < 5 then { s with calls := .loadStatus m todo loaded out ::ₘ rest }
    else s.nextStatuses rest { out with statuses := out.statuses ++ [(m, loaded)] } todo
  | .loadBucket m todo loaded out =>
    let loaded := loaded ++ [s.cells (.bucketCounts m loaded.length)]
    if loaded.length < 13 then { s with calls := .loadBucket m todo loaded out ::ₘ rest }
    else { s with calls := .loadCount m todo loaded out ::ₘ rest }
  | .loadCount m todo loaded out =>
    let behind := rest.countP fun c => counted m loaded c
    { s with calls := .loadDuration m todo loaded (s.cells (.requestCount m)) behind out ::ₘ rest }
  | .loadDuration m todo loaded requestCount behind out =>
    let histogram := ⟨m, loaded, requestCount, s.cells (.durationNanoseconds m), behind⟩
    s.nextHistogram rest { out with histograms := out.histograms ++ [histogram] } todo

inductive Event where
  | record (method : Method) (route : Bytes) (o : Observation)
  | registerRoute (method : Method) (route : Bytes)
  | render
  | step (c : Call)
  deriving DecidableEq, Repr

def next (s : State) : Event → Option State
  | .record method route o =>
    some { s with calls := .find ⟨method, route, some o⟩ ::ₘ s.calls, records := s.records + 1 }
  | .registerRoute method route => some { s with calls := .find ⟨method, route, none⟩ ::ₘ s.calls }
  | .render => some { s with calls := .snapshot ::ₘ s.calls }
  | .step c => advance s.calls c fun rest => some (perform toNanoseconds s rest c)

abbrev Step (s : State) (e : Event) (s' : State) : Prop := next toNanoseconds s e = some s'

def escapeLabelValue (value : Bytes) : Bytes :=
  value.flatMap fun c =>
    if c = 92 then [92, 92]
    else if c = 34 then [92, 34]
    else if c = 10 then [92, 110]
    else [c]

/-- cumulativeCount after each bucket. -/
def cumulativeCounts (cumulativeCount : UInt64) : List UInt64 → List UInt64
  | [] => []
  | count :: counts =>
    (cumulativeCount + count) :: cumulativeCounts (cumulativeCount + count) counts

namespace Histogram

def buckets (h : Histogram) : List UInt64 := cumulativeCounts 0 h.loaded

def lastBucket (h : Histogram) : UInt64 := (h.buckets.getLast?).getD 0

end Histogram

def labelled (name : String) (m : RouteMetrics) : Bytes :=
  ascii name ++ ascii "\x7bmethod=\"" ++ escapeLabelValue m.method ++ ascii "\",route=\"" ++
    escapeLabelValue m.route ++ ascii "\""

def sample (series value : Bytes) : Bytes := series ++ ascii "\x7d " ++ value ++ [10]

def statusLines (entry : RouteMetrics × List UInt64) : Bytes :=
  (kStatusClassLabels.zip entry.2).flatMap fun (label, count) =>
    sample (labelled "haohttp_http_requests_total" entry.1 ++ ascii ",status_class=\"" ++ label ++
      ascii "\"") (toDecimal count.toNat)

def bucketLine (m : RouteMetrics) (label : Bytes) (count : UInt64) : Bytes :=
  sample (labelled "haohttp_http_request_duration_seconds_bucket" m ++ ascii ",le=\"" ++ label ++
    ascii "\"") (toDecimal count.toNat)

/-- How the sum is printed in seconds is a parameter. -/
def histogramLines (formatSeconds : UInt64 → Bytes) (h : Histogram) : Bytes :=
  ((kDurationBucketLabels.zip h.buckets).flatMap fun (label, count) =>
      bucketLine h.metrics label count) ++
    bucketLine h.metrics (ascii "+Inf") h.requestCount ++
    sample (labelled "haohttp_http_request_duration_seconds_sum" h.metrics)
      (formatSeconds h.durationNanoseconds) ++
    sample (labelled "haohttp_http_request_duration_seconds_count" h.metrics)
      (toDecimal h.requestCount.toNat)

def renderPrometheus (formatSeconds : UInt64 → Bytes) (scrape : Scrape) : Bytes :=
  ascii "# HELP haohttp_http_requests_total Total completed HTTP requests.\n" ++
    ascii "# TYPE haohttp_http_requests_total counter\n" ++ scrape.statuses.flatMap statusLines ++
    ascii "# HELP haohttp_http_request_duration_seconds HTTP request duration in seconds.\n" ++
    ascii "# TYPE haohttp_http_request_duration_seconds histogram\n" ++
    scrape.histograms.flatMap (histogramLines formatSeconds)

end HttpMetrics
