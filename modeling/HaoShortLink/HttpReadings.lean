import HaoShortLink.HttpExpositions
import Mathlib.Data.List.Sort

/-! What a scrape reads of the HTTP metrics: of any render well-formed samples, each series once;
of a render beside which no request is recorded what the requests so far come to. -/
namespace HttpReadings

open Cpp Histories HttpMetrics HttpHistograms HttpScrapes HttpAccounts HttpRenders HttpExpositions
open Ledgers
open Expositions (Line Series valuesOf seriesOf)
open HttpRequests (Method)
open scoped UInt64.CommRing

def observations (events : List Event) (m : RouteMetrics) : List Observation :=
  events.filterMap fun
    | .record method route o => if metricsOf method route = m then some o else none
    | _ => none

/-- The duration is at most the bound of the bucket. -/
def Within (i : ℕ) (o : Observation) : Prop :=
  ∃ bound, kDurationBuckets[i]? = some bound ∧
    (Double.finite bound).lt (safeDuration o.durationSeconds) = false

instance (i : ℕ) (o : Observation) : Decidable (Within i o) :=
  match h : kDurationBuckets[i]? with
  | some bound =>
    decidable_of_iff ((Double.finite bound).lt (safeDuration o.durationSeconds) = false)
      ⟨fun hlt => ⟨bound, h, hlt⟩, fun ⟨bound', hbound', hlt⟩ => by
        obtain rfl := Option.some.inj (h.symm.trans hbound')
        exact hlt⟩
  | none => isFalse fun ⟨bound, hbound, _⟩ => by
      rw [h] at hbound
      cases hbound

theorem finite_lt_mono {x y : ℚ} {d : Double} (hxy : x ≤ y)
    (h : (Double.finite x).lt d = false) : (Double.finite y).lt d = false := by
  cases d with
  | finite v =>
    simp only [Double.lt, decide_eq_false_iff_not, not_lt] at h ⊢
    exact h.trans hxy
  | infinity => cases h
  | _ => rfl

theorem kDurationBuckets_sorted : kDurationBuckets.Pairwise (· ≤ ·) := by decide +kernel

theorem within_iff {i : ℕ} (hi : i < 13) (o : Observation) :
    Within i o ↔ ∃ j ≤ i, bucketIndex o.durationSeconds = some j := by
  have hlength : kDurationBuckets.length = 13 := rfl
  simp only [bucketIndex, List.findIdx?_eq_some_iff_getElem, Bool.not_eq_true']
  constructor
  · rintro ⟨bound, hbound, hlt⟩
    obtain ⟨hlt', rfl⟩ := List.getElem?_eq_some_iff.mp hbound
    have hex : ∃ j, ∃ h : j < kDurationBuckets.length,
        (Double.finite kDurationBuckets[j]).lt (safeDuration o.durationSeconds) = false :=
      ⟨i, hlt', hlt⟩
    classical
    obtain ⟨hj, hfirst⟩ := Nat.find_spec hex
    refine ⟨Nat.find hex, Nat.find_min' hex ⟨hlt', hlt⟩, hj, hfirst, ?_⟩
    intro k hk
    have hnot := Nat.find_min hex hk
    exact fun h => hnot ⟨by omega, by simpa using h⟩
  · rintro ⟨j, hji, hj, hlt, -⟩
    have hi' : i < kDurationBuckets.length := by omega
    refine ⟨kDurationBuckets[i], List.getElem?_eq_getElem hi', ?_⟩
    apply finite_lt_mono _ hlt
    rcases Nat.eq_or_lt_of_le hji with rfl | hji
    · exact le_refl _
    · exact List.pairwise_iff_getElem.mp kDurationBuckets_sorted j i hj (by omega) hji

variable {toNanoseconds : Double → UInt64} {formatSeconds : UInt64 → Bytes}

variable (toNanoseconds) in
def contribution (o : Observation) : Cell → UInt64
  | .statusCounts _ i => if statusClassIndex o.statusCode = i then 1 else 0
  | .bucketCounts _ i => if bucketIndex o.durationSeconds = some i then 1 else 0
  | .requestCount _ => 1
  | .durationNanoseconds _ => toNanoseconds o.durationSeconds

def routeOf : Cell → RouteMetrics
  | .statusCounts m _ | .bucketCounts m _ | .requestCount m | .durationNanoseconds m => m

theorem amount_statusPosts (m : RouteMetrics) (o : Observation) (x : Cell) :
    amount (statusPosts toNanoseconds m o) x =
      if m = routeOf x then contribution toNanoseconds o x else 0 := by
  rw [statusPosts, bucketPosts, durationPosts, countPosts]
  cases x with
  | statusCounts m' i | requestCount m' | durationNanoseconds m' =>
    by_cases hm : m = m' <;> cases bucketIndex o.durationSeconds <;>
      simp [routeOf, contribution, hm]
  | bucketCounts m' i =>
    by_cases hm : m = m' <;> cases hi : bucketIndex o.durationSeconds <;>
      simp [routeOf, contribution, hm, hi]

theorem amount_events (events : List Event) (x : Cell) :
    amount (events.flatMap (entry toNanoseconds)) x =
      ((observations events (routeOf x)).map (contribution toNanoseconds · x)).sum := by
  induction events with
  | nil => rfl
  | cons e events ih =>
    rw [List.flatMap_cons, amount_append, ih]
    cases e with
    | record method route o =>
      rw [entry, amount_statusPosts]
      by_cases hm : metricsOf method route = routeOf x
      · simp [observations, hm]
      · simp [observations, hm]
    | _ => exact zero_add _

theorem sum_indicator (p : Observation → Prop) [DecidablePred p] (l : List Observation) :
    (l.map fun o => if p o then (1 : UInt64) else 0).sum = UInt64.ofNat (l.countP p) := by
  induction l with
  | nil => rfl
  | cons o l ih =>
    rw [List.map_cons, List.sum_cons, ih]
    by_cases ho : p o
    · rw [if_pos ho, List.countP_cons_of_pos (by simpa using ho), UInt64.ofNat_add]
      exact add_comm _ _
    · rw [if_neg ho, List.countP_cons_of_neg (by simpa using ho)]
      exact zero_add _

theorem sum_ones (l : List Observation) :
    (l.map fun _ => (1 : UInt64)).sum = UInt64.ofNat l.length := by
  have hall := sum_indicator (fun _ => True) l
  simpa using hall

def named : Event → Option (Method × Bytes)
  | .record method route _ | .registerRoute method route => some (method, route)
  | _ => none

def looksUp : Call → Option (Method × Bytes)
  | .find l | .register l => some (l.method, l.route)
  | _ => none

/-- The route is registered, or a call is about to find or register it. -/
def Filed (s : State) (p : Method × Bytes) : Prop :=
  (s.routes.find? (makeKey p.1 p.2)).isSome ∨ ∃ c ∈ s.calls, looksUp c = some p

variable {s s' : State} {rest : Multiset Call} {c : Call} {p : Method × Bytes}

theorem Filed.mono (h : Filed s p)
    (hroutes : ∀ k, (s.routes.find? k).isSome → (s'.routes.find? k).isSome)
    (hcalls : ∀ c ∈ s.calls, c ∈ s'.calls) : Filed s' p := by
  rcases h with h | ⟨c, hc, hp⟩
  · exact .inl (hroutes _ h)
  · exact .inr ⟨c, hcalls c hc, hp⟩

theorem nextHistogram_frame (s : State) (rest : Multiset Call) (out : Scrape)
    (todo : List RouteMetrics) :
    (s.nextHistogram rest out todo).routes = s.routes ∧
      ∀ c ∈ rest, c ∈ (s.nextHistogram rest out todo).calls := by
  cases todo with
  | nil => exact ⟨rfl, fun c hc => hc⟩
  | cons m todo => exact ⟨rfl, fun c hc => Multiset.mem_cons_of_mem hc⟩

theorem nextStatuses_frame (s : State) (rest : Multiset Call) (out : Scrape)
    (todo : List RouteMetrics) :
    (s.nextStatuses rest out todo).routes = s.routes ∧
      ∀ c ∈ rest, c ∈ (s.nextStatuses rest out todo).calls := by
  cases todo with
  | nil => exact nextHistogram_frame _ _ _ _
  | cons m todo => exact ⟨rfl, fun c hc => Multiset.mem_cons_of_mem hc⟩

theorem perform_frame (toNanoseconds : Double → UInt64) (s : State) (rest : Multiset Call)
    (c : Call) :
    (∀ k, (s.routes.find? k).isSome →
      ((perform toNanoseconds s rest c).routes.find? k).isSome) ∧
    ∀ c' ∈ rest, c' ∈ (perform toNanoseconds s rest c).calls := by
  have hcons : ∀ c' : Call, ∀ c'' ∈ rest, c'' ∈ c' ::ₘ rest := fun _ _ =>
    Multiset.mem_cons_of_mem
  have hfound : ∀ l m, ∀ c' ∈ rest, c' ∈ State.found l m + rest := fun _ _ c' hc' =>
    Multiset.mem_add.mpr (.inr hc')
  cases c with
  | find l =>
    simp only [perform]
    cases s.routes.find? (makeKey l.method l.route) with
    | some m => exact ⟨fun k hk => hk, hfound l m⟩
    | none => exact ⟨fun k hk => hk, hcons _⟩
  | register l =>
    simp only [perform]
    cases s.routes.find? (makeKey l.method l.route) with
    | some m => exact ⟨fun k hk => hk, hfound l m⟩
    | none =>
      refine ⟨?_, hfound l _⟩
      intro k hk
      rw [OrderedMaps.OrderedMap.find?_insert]
      split_ifs
      · rfl
      · exact hk
  | status m o => exact ⟨fun k hk => hk, hcons _⟩
  | bucket m o =>
    simp only [perform]
    cases bucketIndex o.durationSeconds <;> exact ⟨fun k hk => hk, hcons _⟩
  | duration m o rank => exact ⟨fun k hk => hk, hcons _⟩
  | count m rank => exact ⟨fun k hk => hk, fun c' hc' => hc'⟩
  | snapshot =>
    obtain ⟨hroutes, hcalls⟩ := nextStatuses_frame s rest ⟨[], []⟩ (s.routes.entries.map Prod.snd)
    exact ⟨fun k hk => by rw [perform, hroutes]; exact hk, hcalls⟩
  | loadStatus m todo loaded out =>
    simp only [perform]
    split_ifs
    · exact ⟨fun k hk => hk, hcons _⟩
    · obtain ⟨hroutes, hcalls⟩ := nextStatuses_frame s rest
        { out with statuses := out.statuses ++
          [(m, loaded ++ [s.cells (.statusCounts m loaded.length)])] } todo
      exact ⟨fun k hk => by rw [hroutes]; exact hk, hcalls⟩
  | loadBucket m todo loaded out =>
    simp only [perform]
    split_ifs <;> exact ⟨fun k hk => hk, hcons _⟩
  | loadCount m todo loaded out => exact ⟨fun k hk => hk, hcons _⟩
  | loadDuration m todo loaded requestCount behind out =>
    obtain ⟨hroutes, hcalls⟩ := nextHistogram_frame s rest
      { out with histograms := out.histograms ++
        [⟨m, loaded, requestCount, s.cells (.durationNanoseconds m), behind⟩] } todo
    exact ⟨fun k hk => by rw [perform, hroutes]; exact hk, hcalls⟩

theorem perform_looksUp (h : looksUp c = some p) : Filed (perform toNanoseconds s rest c) p := by
  cases c with
  | find l =>
    obtain rfl := Option.some.inj h
    simp only [perform]
    cases hfind : s.routes.find? (makeKey l.method l.route) with
    | some m => exact .inl (by simp [hfind])
    | none => exact .inr ⟨.register l, Multiset.mem_cons_self _ _, rfl⟩
  | register l =>
    obtain rfl := Option.some.inj h
    simp only [perform]
    cases hfind : s.routes.find? (makeKey l.method l.route) with
    | some m => exact .inl (by simp [hfind])
    | none => exact .inl (by simp [OrderedMaps.OrderedMap.find?_insert])
  | _ => cases h

theorem Filed.step {e : Event} (h : Step toNanoseconds s e s')
    (hs : named e = some p ∨ Filed s p) : Filed s' p := by
  cases e with
  | record method route o =>
    obtain rfl := Option.some.inj h
    rcases hs with hs | hs
    · exact .inr ⟨_, Multiset.mem_cons_self _ _, hs⟩
    · exact hs.mono (fun k hk => hk) fun c hc => Multiset.mem_cons_of_mem hc
  | registerRoute method route =>
    obtain rfl := Option.some.inj h
    rcases hs with hs | hs
    · exact .inr ⟨_, Multiset.mem_cons_self _ _, hs⟩
    · exact hs.mono (fun k hk => hk) fun c hc => Multiset.mem_cons_of_mem hc
  | render =>
    obtain rfl := Option.some.inj h
    rcases hs with hs | hs
    · cases hs
    · exact hs.mono (fun k hk => hk) fun c hc => Multiset.mem_cons_of_mem hc
  | step c =>
    obtain ⟨rest, hcalls, rfl⟩ := step_call_iff.mp h
    obtain ⟨hroutes, hrest⟩ := perform_frame toNanoseconds s rest c
    rcases hs with hs | hs | ⟨c', hc', hp⟩
    · cases hs
    · exact .inl (hroutes _ hs)
    · rw [hcalls] at hc'
      rcases Multiset.mem_cons.mp hc' with rfl | hc'
      · exact perform_looksUp hp
      · exact .inr ⟨c', hrest c' hc', hp⟩

theorem Filed.run {events : List Event} (h : Run (Step toNanoseconds) initial events s) :
    ∀ e ∈ events, ∀ p, named e = some p → Filed s p := by
  induction h with
  | start => simp
  | snoc _ hlast ih =>
    intro e he p hp
    rcases List.mem_append.mp he with he | he
    · exact .step hlast (.inr (ih e he p hp))
    · obtain rfl := List.mem_singleton.mp he
      exact .step hlast (.inl hp)

variable {events : List Event} {m : RouteMetrics}

theorem settled_cells (h : Run (Step toNanoseconds) initial events s) (hcalls : s.calls = 0)
    (x : Cell) : s.cells x =
      ((observations events (routeOf x)).map (contribution toNanoseconds · x)).sum := by
  rw [← amount_events]
  exact (Accounted.run h).balanced.settled (by simp [hcalls])

theorem settled_statusCounts (h : Run (Step toNanoseconds) initial events s) (hcalls : s.calls = 0)
    (m : RouteMetrics) (i : ℕ) : s.cells (.statusCounts m i) =
      UInt64.ofNat ((observations events m).countP fun o => statusClassIndex o.statusCode = i) :=
  (settled_cells h hcalls _).trans (sum_indicator _ _)

theorem settled_requestCount (h : Run (Step toNanoseconds) initial events s) (hcalls : s.calls = 0)
    (m : RouteMetrics) :
    s.cells (.requestCount m) = UInt64.ofNat (observations events m).length :=
  (settled_cells h hcalls _).trans (sum_ones _)

theorem countP_or {A : Type} {p q : A → Prop} [DecidablePred p] [DecidablePred q]
    (h : ∀ a, ¬(p a ∧ q a)) (l : List A) :
    l.countP (fun a => p a ∨ q a) = l.countP (fun a => p a) + l.countP fun a => q a := by
  induction l with
  | nil => rfl
  | cons a l ih =>
    have ha := h a
    simp only [List.countP_cons, ih, decide_eq_true_eq]
    by_cases hp : p a <;> by_cases hq : q a
    · exact absurd ⟨hp, hq⟩ ha
    all_goals simp only [hp, hq, or_true, or_false, if_true, if_false]; omega

theorem countP_upTo (l : List Observation) (n : ℕ) :
    ((List.range n).map fun j =>
        UInt64.ofNat (l.countP fun o => bucketIndex o.durationSeconds = some j)).sum =
      UInt64.ofNat (l.countP fun o => ∃ j < n, bucketIndex o.durationSeconds = some j) := by
  induction n with
  | zero => simp
  | succ n ih =>
    have hapart : ∀ o : Observation, ¬((∃ j < n, bucketIndex o.durationSeconds = some j) ∧
        bucketIndex o.durationSeconds = some n) := by
      rintro o ⟨⟨j, hj, heq⟩, heq'⟩
      obtain rfl := Option.some.inj (heq.symm.trans heq')
      omega
    rw [List.range_succ, List.map_append, List.sum_append, ih, List.map_singleton,
      List.sum_singleton, ← UInt64.ofNat_add, ← countP_or hapart]
    congr 1
    apply List.countP_congr
    intro o _
    simp only [decide_eq_true_eq, Nat.lt_succ_iff_lt_or_eq, or_and_right, exists_or,
      exists_eq_left]

theorem cumulativeCounts_getElem {counts : List UInt64} {a v : UInt64} {i : ℕ}
    (h : (cumulativeCounts a counts)[i]? = some v) : v = a + (counts.take (i + 1)).sum := by
  induction counts generalizing a i with
  | nil => cases h
  | cons n counts ih =>
    cases i with
    | zero => simpa [cumulativeCounts] using h.symm
    | succ i =>
      rw [cumulativeCounts, List.getElem?_cons_succ] at h
      rw [ih h, List.take_succ_cons, List.sum_cons, add_assoc]

theorem settled_buckets (h : Run (Step toNanoseconds) initial events s) (hcalls : s.calls = 0)
    {x : Histogram} (hlength : x.loaded.length = 13)
    (hloaded : Agrees (fun x v => v = s.cells x) (.bucketCounts x.metrics) x.loaded)
    {i : ℕ} {v : UInt64} (hv : x.buckets[i]? = some v) :
    v = UInt64.ofNat ((observations events x.metrics).countP (Within i)) := by
  have hi : i < 13 := by
    have hlt := (List.getElem?_eq_some_iff.mp hv).1
    rwa [buckets_length, hlength] at hlt
  have hloaded' : x.loaded = (List.range 13).map fun j => s.cells (.bucketCounts x.metrics j) := by
    apply List.ext_getElem?
    intro j
    cases hj : x.loaded[j]? with
    | none =>
      have hle := List.getElem?_eq_none_iff.mp hj
      rw [List.getElem?_eq_none (by simpa [hlength] using hle)]
    | some w =>
      have hlt := (List.getElem?_eq_some_iff.mp hj).1
      rw [hloaded j w hj, List.getElem?_map, List.getElem?_range (by omega)]
      rfl
  rw [cumulativeCounts_getElem hv, zero_add, hloaded', ← List.map_take, List.take_range,
    Nat.min_eq_left (by omega)]
  have hcell : ∀ j, s.cells (.bucketCounts x.metrics j) = UInt64.ofNat
      ((observations events x.metrics).countP fun o => bucketIndex o.durationSeconds = some j) :=
    fun j => (settled_cells h hcalls _).trans (sum_indicator _ _)
  simp only [hcell, countP_upTo]
  congr 1
  apply List.countP_congr
  intro o _
  simp only [decide_eq_true_eq, within_iff hi, Nat.lt_succ_iff]

variable (formatSeconds toNanoseconds) in
/-- The lines give these requests of the route. -/
structure ReadsAs (lines : List Line) (m : RouteMetrics) (requests : List Observation) : Prop where
  statuses : ∀ i label, kStatusClassLabels[i]? = some label →
    valuesOf (statusSeries m label) lines =
      [toDecimal (requests.countP (fun o => statusClassIndex o.statusCode = i) % 2 ^ 64)]
  buckets : ∀ i label, kDurationBucketLabels[i]? = some label →
    valuesOf (bucketSeries m label) lines = [toDecimal (requests.countP (Within i) % 2 ^ 64)]
  unbounded : valuesOf (bucketSeries m (ascii "+Inf")) lines =
    [toDecimal (requests.length % 2 ^ 64)]
  sum : valuesOf (sumSeries m) lines =
    [formatSeconds (requests.map fun o => toNanoseconds o.durationSeconds).sum]
  count : valuesOf (countSeries m) lines = [toDecimal (requests.length % 2 ^ 64)]

theorem mem_zip_of_getElem? {labels : List Bytes} {i : ℕ} {label : Bytes} (numbers : List UInt64)
    (hlabel : labels[i]? = some label) (hlength : labels.length = numbers.length) :
    ∃ n, numbers[i]? = some n ∧ (label, n) ∈ labels.zip numbers := by
  obtain ⟨hi, hget⟩ := List.getElem?_eq_some_iff.mp hlabel
  have hi' : i < numbers.length := by omega
  refine ⟨numbers[i], List.getElem?_eq_getElem hi', ?_⟩
  rw [List.mem_iff_getElem]
  exact ⟨i, by simp [hi, hi'], by simp [hget]⟩

theorem count_ofNat (n : ℕ) : count (UInt64.ofNat n) = toDecimal (n % 2 ^ 64) := by
  rw [count, UInt64.toNat_ofNat']

theorem reads_settled {out : Scrape} (h : Run (Step toNanoseconds) initial events s)
    (hcalls : s.calls = 0) (hout : Partway s (fun x v => v = s.cells x) out [])
    (hm : m ∈ out.statuses.map Prod.fst) :
    ReadsAs toNanoseconds formatSeconds (linesOf formatSeconds out) m (observations events m) := by
  have hvalue : ∀ series value, .sample series value ∈ linesOf formatSeconds out →
      valuesOf series (linesOf formatSeconds out) = [value] := fun series value =>
    Expositions.valuesOf_eq_singleton (seriesOf_nodup hout)
  have hhistograms : m ∈ out.histograms.map Histogram.metrics := by
    have hroutes := hout.routes
    rw [List.append_nil] at hroutes
    rwa [hroutes]
  obtain ⟨entry, hentry, rfl⟩ := List.mem_map.mp hm
  obtain ⟨x, hx, hmetrics⟩ := List.mem_map.mp hhistograms
  obtain ⟨hlength, hstatuses⟩ := hout.printed.statuses entry hentry
  obtain ⟨hloaded, hbuckets, hcount, hduration⟩ := hout.printed.histograms x hx
  have hstatusLines : ∀ line ∈ statusSamples entry, line ∈ linesOf formatSeconds out := by
    intro line hline
    simp only [linesOf, List.mem_append, List.mem_flatMap]
    exact .inl (.inl (.inr ⟨entry, hentry, hline⟩))
  have hlines : ∀ line ∈ histogramSamples formatSeconds x, line ∈ linesOf formatSeconds out := by
    intro line hline
    simp only [linesOf, List.mem_append, List.mem_flatMap]
    exact .inr ⟨x, hx, hline⟩
  rw [← hmetrics] at hstatuses ⊢
  have hrequests : count x.requestCount =
      toDecimal ((observations events x.metrics).length % 2 ^ 64) := by
    rw [hcount, settled_requestCount h hcalls, count_ofNat]
  constructor
  · intro i label hlabel
    obtain ⟨n, hn, hmem⟩ := mem_zip_of_getElem? entry.2 hlabel (by rw [hlength]; rfl)
    rw [← count_ofNat, ← settled_statusCounts h hcalls, ← hstatuses i n hn]
    apply hvalue
    apply hstatusLines
    rw [hmetrics]
    exact List.mem_map_of_mem (f := fun p : Bytes × UInt64 =>
      Line.sample (statusSeries entry.1 p.1) (count p.2)) hmem
  · intro i label hlabel
    obtain ⟨n, hn, hmem⟩ := mem_zip_of_getElem? x.buckets hlabel
      (by rw [buckets_length, hloaded]; rfl)
    rw [← count_ofNat, ← settled_buckets h hcalls hloaded hbuckets hn]
    apply hvalue
    apply hlines
    exact List.mem_append_left _ (List.mem_map_of_mem (f := fun p : Bytes × UInt64 =>
      Line.sample (bucketSeries x.metrics p.1) (count p.2)) hmem)
  · rw [← hrequests]
    exact hvalue _ _ (hlines _ (List.mem_append_right _ (by simp)))
  · have htotal : x.durationNanoseconds =
        ((observations events x.metrics).map fun o => toNanoseconds o.durationSeconds).sum := by
      rw [hduration]
      exact settled_cells h hcalls _
    rw [← htotal]
    exact hvalue _ _ (hlines _ (List.mem_append_right _ (by simp)))
  · rw [← hrequests]
    exact hvalue _ _ (hlines _ (List.mem_append_right _ (by simp)))

/-- Whatever the routes are called, a scrape reads each text that was rendered as the numbers that
the render loaded, and no series twice. -/
theorem renders_read_back (hformat : ∀ n, Printable (formatSeconds n)) {out : Scrape}
    (h : Run (Step toNanoseconds) initial events s) (hout : out ∈ s.rendered) :
    Expositions.read (renderPrometheus formatSeconds out) = some (linesOf formatSeconds out) ∧
      (seriesOf (linesOf formatSeconds out)).Nodup ∧
      out.histograms.map Histogram.metrics = out.statuses.map Prod.fst ∧
      (∀ entry ∈ out.statuses, entry.2.length = 5) ∧
      ∀ x ∈ out.histograms, x.loaded.length = 13 := by
  have hpartway := rendered_partway h hout
  have hroutes := hpartway.routes
  rw [List.append_nil] at hroutes
  refine ⟨?_, seriesOf_nodup hpartway, hroutes, ?_, ?_⟩
  · rw [renderPrometheus_eq]
    exact Expositions.read_write (lines_wellFormed hformat out)
  · exact fun entry hentry => (hpartway.printed.statuses entry hentry).1
  · exact fun x hx => (hpartway.printed.histograms x hx).1

/-- How a duration of 0 is printed. -/
def demoSeconds (_ : UInt64) : Bytes := ascii "0.000000000"

theorem demoSeconds_printable (n : UInt64) : Printable (demoSeconds n) := by
  rw [demoSeconds, Printable]
  decide

theorem renders_read_back_demo :
    Expositions.read (renderPrometheus demoSeconds (demoScrape 0 1)) =
      some (linesOf demoSeconds (demoScrape 0 1)) ∧
    (seriesOf (linesOf demoSeconds (demoScrape 0 1))).Nodup := by
  obtain ⟨s, -, hrun, hrendered⟩ := demo_run demoBehind State.rendered [demoScrape 0 1]
    (by decide +kernel)
  have hout : demoScrape 0 1 ∈ s.rendered := by
    rw [hrendered]
    exact List.mem_singleton_self _
  obtain ⟨hread, hnodup, -⟩ := renders_read_back demoSeconds_printable hrun hout
  exact ⟨hread, hnodup⟩

/-- After any traffic, a render beside which nothing is recorded is read as the number of requests
of each route in each status class and within each bound, and their total duration. -/
theorem settled_renders_exact (hformat : ∀ n, Printable (formatSeconds n)) {events' : List Event}
    (h : Run (Step toNanoseconds) initial events s) (hcalls : s.calls = 0)
    (h' : Run (Step toNanoseconds) s events' s') (hevents' : events'.countP isRecord = 0) :
    ∃ scrapes, s'.rendered = s.rendered ++ scrapes ∧ ∀ out ∈ scrapes, ∃ lines,
      Expositions.read (renderPrometheus formatSeconds out) = some lines ∧
      ∀ e ∈ events, ∀ method route, named e = some (method, route) →
        ReadsAs toNanoseconds formatSeconds lines (metricsOf method route)
          (observations events (metricsOf method route)) := by
  have hregistered := (Accounted.run h).registered
  obtain ⟨scrapes, hrendered, hscrapes⟩ := settled_partway h' hregistered hcalls hevents'
  refine ⟨scrapes, hrendered, ?_⟩
  intro out hout
  refine ⟨linesOf formatSeconds out, ?_, ?_⟩
  · rw [renderPrometheus_eq]
    exact Expositions.read_write (lines_wellFormed hformat out)
  · intro e he method route hnamed
    apply reads_settled h hcalls (hscrapes out hout)
    rcases Filed.run h e he _ hnamed with hfind | ⟨c, hc, -⟩
    · obtain ⟨m, hfind⟩ := Option.isSome_iff_exists.mp hfind
      rw [← hregistered.found hfind]
      exact (hscrapes out hout).covers.all _ m hfind
    · rw [hcalls] at hc
      cases Multiset.notMem_zero _ hc

theorem settled_renders_exact_demo : ∃ lines,
    Expositions.read (renderPrometheus demoSeconds (demoScrape 1 0)) = some lines ∧
    ReadsAs (fun _ => 0) demoSeconds lines demoMetrics [demoObservation] := by
  obtain ⟨s, hs, hrun, hview⟩ := demo_run (demoBehind ++ demoFinish)
    (fun s => (s.calls, s.rendered)) (0, [demoScrape 0 1]) (by decide +kernel)
  obtain ⟨s', hs', -, hrendered'⟩ := demo_run
    (demoBehind ++ demoFinish ++ demoRender 1 0) State.rendered [demoScrape 0 1, demoScrape 1 0]
    (by decide +kernel)
  obtain ⟨hcalls, hrendered⟩ := Prod.mk.inj hview
  rw [List.foldlM_append, hs, Option.bind_eq_bind, Option.bind_some] at hs'
  obtain ⟨scrapes, happend, hscrapes⟩ := settled_renders_exact demoSeconds_printable hrun hcalls
    (Run.of_foldlM hs') (by decide)
  rw [hrendered, hrendered'] at happend
  have hscrape : demoScrape 1 0 ∈ scrapes := by
    rw [← List.append_right_inj [demoScrape 0 1] |>.mp happend]
    exact List.mem_singleton_self _
  obtain ⟨lines, hread, hall⟩ := hscrapes _ hscrape
  refine ⟨lines, hread, ?_⟩
  have hrecord : Event.record .get demoRoute demoObservation ∈ demoBehind ++ demoFinish := by decide
  have hrequests : observations (demoBehind ++ demoFinish) demoMetrics = [demoObservation] := by
    decide
  rw [← hrequests]
  exact hall _ hrecord .get demoRoute rfl

end HttpReadings
