import HaoShortLink.HttpHistograms

/-! What the scrapes of the HTTP metrics show at any time, and after the records. -/
namespace HttpScrapes

open Cpp Histories HttpMetrics HttpHistograms
open OrderedMaps (OrderedMap)

variable {toNanoseconds : Double → UInt64} {s s' s'' : State} {rest : Multiset Call}

variable (toNanoseconds) in
def Reaches (s s' : State) : Prop := ∃ events, Run (Step toNanoseconds) s events s'

theorem Reaches.trans (h : Reaches toNanoseconds s s') (h' : Reaches toNanoseconds s' s'') :
    Reaches toNanoseconds s s'' := by
  obtain ⟨events, hrun⟩ := h
  obtain ⟨events', hrun'⟩ := h'
  exact ⟨_, hrun.trans hrun'⟩

theorem reaches_step {e : Event} (h : Step toNanoseconds s e s') : Reaches toNanoseconds s s' :=
  ⟨_, .snoc .start h⟩

theorem nextHistogram_calls (calls : Multiset Call) (out : Scrape) (todo : List RouteMetrics) :
    State.nextHistogram { s with calls } rest out todo = s.nextHistogram rest out todo := by
  cases todo <;> rfl

theorem nextStatuses_calls (calls : Multiset Call) (out : Scrape) (todo : List RouteMetrics) :
    State.nextStatuses { s with calls } rest out todo = s.nextStatuses rest out todo := by
  cases todo with
  | nil => exact nextHistogram_calls _ _ _
  | cons m todo => rfl

variable (toNanoseconds s rest) in
theorem reaches_perform (c : Call) : Reaches toNanoseconds { s with calls := c ::ₘ rest }
    (perform toNanoseconds s rest c) := by
  apply reaches_step (e := .step c)
  rw [step_call_iff]
  refine ⟨rest, rfl, ?_⟩
  cases c with
  | find | register | bucket | loadBucket => simp only [perform, State.add]
  | snapshot => exact nextStatuses_calls _ _ _
  | loadStatus m todo loaded out =>
    simp only [perform]
    split_ifs
    · rfl
    · exact nextStatuses_calls _ _ _
  | loadDuration m todo loaded requestCount behind out => exact nextHistogram_calls _ _ _
  | _ => rfl

variable (toNanoseconds) in
theorem record_alone {method : HttpRequests.Method} {route : Bytes} {o : Observation}
    {m : RouteMetrics} {i : ℕ} (hroute : s.routes.find? (makeKey method route) = some m)
    (hi : bucketIndex o.durationSeconds = some i) :
    ∃ s', Reaches toNanoseconds s s' ∧ s'.calls = s.calls ∧ s'.routes = s.routes ∧
      s'.rendered = s.rendered ∧ s'.records = s.records + 1 ∧
      ∀ j, s'.cells (.bucketCounts m j) =
        s.cells (.bucketCounts m j) + if j = i then 1 else 0 := by
  let s₀ : State := { s with records := s.records + 1 }
  let s₁ : State := { s₀ with cells := s₀.add (.statusCounts m (statusClassIndex o.statusCode)) 1 }
  let s₂ : State := { s₁ with cells := s₁.add (.bucketCounts m i) 1 }
  let s₃ : State :=
    { s₂ with cells := s₂.add (.durationNanoseconds m) (toNanoseconds o.durationSeconds) }
  let rank : Rank := ⟨i, (s₁.cells (.bucketCounts m i) + 1).toNat⟩
  have hfind : Reaches toNanoseconds
      { s₀ with calls := .find ⟨method, route, some o⟩ ::ₘ s.calls }
      { s₀ with calls := .status m o ::ₘ s.calls } := by
    have hstep := reaches_perform toNanoseconds s₀ s.calls (.find ⟨method, route, some o⟩)
    simp only [perform, s₀, hroute] at hstep
    exact hstep
  have hbucket : Reaches toNanoseconds { s₁ with calls := .bucket m o ::ₘ s.calls }
      { s₂ with calls := .duration m o (some rank) ::ₘ s.calls } := by
    have hstep := reaches_perform toNanoseconds s₁ s.calls (.bucket m o)
    simp only [perform, hi] at hstep
    exact hstep
  refine ⟨{ s₃ with cells := s₃.add (.requestCount m) 1 }, ?_, rfl, rfl, rfl, rfl, ?_⟩
  · exact (reaches_step (e := .record method route o) rfl).trans <| hfind.trans <|
      (reaches_perform _ s₀ _ _).trans <| hbucket.trans <|
      (reaches_perform _ s₂ _ _).trans <| reaches_perform _ s₃ _ _
  · intro j
    by_cases hj : j = i
    · subst hj
      simp [State.add, s₃, s₂, s₁, s₀]
    · simp [State.add, s₃, s₂, s₁, s₀, hj]

variable (toNanoseconds) in
theorem records_alone {method : HttpRequests.Method} {route : Bytes} {o : Observation}
    {m : RouteMetrics} {i : ℕ} (hroute : s.routes.find? (makeKey method route) = some m)
    (hi : bucketIndex o.durationSeconds = some i) (n : ℕ) :
    ∃ s', Reaches toNanoseconds s s' ∧ s'.calls = s.calls ∧ s'.routes = s.routes ∧
      s'.rendered = s.rendered ∧ s'.records = s.records + n ∧
      ∀ j, s'.cells (.bucketCounts m j) =
        s.cells (.bucketCounts m j) + if j = i then UInt64.ofNat n else 0 := by
  induction n with
  | zero => exact ⟨s, ⟨[], .start⟩, rfl, rfl, rfl, rfl, by simp⟩
  | succ n ih =>
    obtain ⟨s', hreaches, hcalls, hroutes, hrendered, hrecords, hcells⟩ := ih
    rw [← hroutes] at hroute
    obtain ⟨s'', hreaches', hcalls', hroutes', hrendered', hrecords', hcells'⟩ :=
      record_alone toNanoseconds hroute hi
    refine ⟨s'', hreaches.trans hreaches', hcalls'.trans hcalls, hroutes'.trans hroutes,
      hrendered'.trans hrendered, by omega, ?_⟩
    intro j
    rw [hcells', hcells]
    by_cases hj : j = i
    · simp only [if_pos hj, UInt64.ofNat_add]
      exact UInt64.add_assoc _ _ _
    · simp [hj]

def statusesOf (s : State) (m : RouteMetrics) : RouteMetrics × List UInt64 :=
  (m, (List.range 5).map fun i => s.cells (.statusCounts m i))

def histogramOf (s : State) (m : RouteMetrics) : Histogram :=
  let loaded := (List.range 13).map fun i => s.cells (.bucketCounts m i)
  ⟨m, loaded, s.cells (.requestCount m), s.cells (.durationNanoseconds m),
    s.calls.countP fun c => counted m loaded c⟩

theorem map_range_snoc (f : ℕ → UInt64) (k : ℕ) :
    (List.range k).map f ++ [f k] = (List.range (k + 1)).map f := by
  rw [List.range_succ, List.map_append]
  rfl

theorem loadStatus_alone {m : RouteMetrics} {todo : List RouteMetrics} {out : Scrape} {n k : ℕ}
    (hk : k + n = 4) :
    let loaded := (List.range k).map fun i => s.cells (.statusCounts m i)
    Reaches toNanoseconds { s with calls := .loadStatus m todo loaded out ::ₘ s.calls }
      (s.nextStatuses s.calls { out with statuses := out.statuses ++ [statusesOf s m] } todo) := by
  have hstep : ∀ k, Reaches toNanoseconds _ _ := fun k =>
    reaches_perform toNanoseconds s s.calls
      (.loadStatus m todo ((List.range k).map fun i => s.cells (.statusCounts m i)) out)
  simp only [perform, map_range_snoc fun i => s.cells (.statusCounts m i), List.length_map,
    List.length_range] at hstep
  induction n generalizing k with
  | zero =>
    obtain rfl : k = 4 := hk
    exact hstep 4
  | succ n ih =>
    have hk' := hstep k
    rw [if_pos (by omega)] at hk'
    exact hk'.trans (ih (by omega))

theorem loadBucket_alone {m : RouteMetrics} {todo : List RouteMetrics} {out : Scrape} {n k : ℕ}
    (hk : k + n = 12) :
    let loaded := (List.range k).map fun i => s.cells (.bucketCounts m i)
    Reaches toNanoseconds { s with calls := .loadBucket m todo loaded out ::ₘ s.calls }
      { s with calls := .loadCount m todo (histogramOf s m).loaded out ::ₘ s.calls } := by
  have hstep : ∀ k, Reaches toNanoseconds _ _ := fun k =>
    reaches_perform toNanoseconds s s.calls
      (.loadBucket m todo ((List.range k).map fun i => s.cells (.bucketCounts m i)) out)
  simp only [perform, map_range_snoc fun i => s.cells (.bucketCounts m i), List.length_map,
    List.length_range] at hstep
  induction n generalizing k with
  | zero =>
    obtain rfl : k = 12 := hk
    exact hstep 12
  | succ n ih =>
    have hk' := hstep k
    rw [if_pos (by omega)] at hk'
    exact hk'.trans (ih (by omega))

variable (toNanoseconds s) in
theorem histograms_alone (todo : List RouteMetrics) (out : Scrape) :
    Reaches toNanoseconds (s.nextHistogram s.calls out todo) { s with
      rendered := s.rendered ++
        [{ out with histograms := out.histograms ++ todo.map (histogramOf s) }] } := by
  induction todo generalizing out with
  | nil =>
    rw [List.map_nil, List.append_nil]
    exact ⟨[], .start⟩
  | cons m todo ih =>
    rw [List.map_cons, List.append_cons out.histograms]
    apply (loadBucket_alone (n := 12) (k := 0) rfl).trans
    exact (reaches_perform _ s _ _).trans ((reaches_perform _ s _ _).trans
      (ih { out with histograms := out.histograms ++ [histogramOf s m] }))

variable (toNanoseconds s) in
theorem statuses_alone (todo : List RouteMetrics) (out : Scrape) :
    ∃ statuses, statuses = out.statuses ++ todo.map (statusesOf s) ∧
      Reaches toNanoseconds (s.nextStatuses s.calls out todo)
        (s.nextHistogram s.calls { out with statuses } (statuses.map Prod.fst)) := by
  refine ⟨_, rfl, ?_⟩
  induction todo generalizing out with
  | nil =>
    rw [List.map_nil, List.append_nil]
    exact ⟨[], .start⟩
  | cons m todo ih =>
    rw [List.map_cons, List.append_cons out.statuses]
    apply (loadStatus_alone (n := 4) (k := 0) rfl).trans
    exact ih { out with statuses := out.statuses ++ [statusesOf s m] }

variable (s) in
/-- A render that nothing comes between prints the counters as they are. -/
theorem render_alone :
    let routes := s.routes.entries.map Prod.snd
    Reaches toNanoseconds s { s with
      rendered := s.rendered ++ [⟨routes.map (statusesOf s), routes.map (histogramOf s)⟩] } := by
  intro routes
  obtain ⟨statuses, hstatuses, hreaches⟩ :=
    statuses_alone toNanoseconds s routes ⟨[], []⟩
  have hroutes : statuses.map Prod.fst = routes := by
    rw [hstatuses]
    simp [statusesOf, Function.comp_def]
  apply (reaches_step (e := .render) rfl).trans
  apply (reaches_perform _ s _ _).trans
  apply hreaches.trans
  rw [hroutes]
  have hhistograms := histograms_alone toNanoseconds s routes ⟨statuses, []⟩
  rw [hstatuses] at hhistograms
  rw [hstatuses]
  exact hhistograms

/-- What a render printed is what the counters are. -/
structure Current (cells : Cell → UInt64) (out : Scrape) : Prop where
  statuses : ∀ entry ∈ out.statuses,
    entry.2 = (List.range 5).map fun i => cells (.statusCounts entry.1 i)
  histograms : ∀ h ∈ out.histograms, h.requestCount = cells (.requestCount h.metrics) ∧ h.behind = 0

def UpToDate (cells : Cell → UInt64) : Call → Prop
  | .loadStatus m _ loaded out => loaded.length < 5 ∧ Current cells out ∧
    loaded = (List.range loaded.length).map fun i => cells (.statusCounts m i)
  | .loadBucket _ _ _ out | .loadCount _ _ _ out => Current cells out
  | .loadDuration m _ _ requestCount behind out =>
    requestCount = cells (.requestCount m) ∧ behind = 0 ∧ Current cells out
  | _ => True

/-- Since a state without calls no record has begun. -/
structure Settled (s₀ s : State) : Prop where
  cells : s.cells = s₀.cells
  calls : ∀ c ∈ s.calls, stage c = none ∧ UpToDate s₀.cells c
  rendered : ∃ scrapes, s.rendered = s₀.rendered ++ scrapes ∧
    ∀ scrape ∈ scrapes, Current s₀.cells scrape

theorem not_counted {m : RouteMetrics} {loaded : List UInt64} {c : Call} (h : stage c = none) :
    counted m loaded c = false := by
  cases c with
  | duration | count => cases h
  | _ => rfl

namespace Settled

variable {s₀ s : State} {c : Call}

theorem cons (h : Settled s₀ { s with calls := rest }) (hc : stage c = none)
    (hread : UpToDate s₀.cells c) : Settled s₀ { s with calls := c ::ₘ rest } where
  cells := h.cells
  calls := Multiset.forall_mem_cons.mpr ⟨⟨hc, hread⟩, h.calls⟩
  rendered := h.rendered

theorem others (h : Settled s₀ { s with calls := c ::ₘ rest }) :
    Settled s₀ { s with calls := rest } where
  cells := h.cells
  calls := (Multiset.forall_mem_cons.mp h.calls).2
  rendered := h.rendered

theorem nextHistogram {out : Scrape} {todo : List RouteMetrics}
    (h : Settled s₀ { s with calls := rest }) (hout : Current s₀.cells out) :
    Settled s₀ (s.nextHistogram rest out todo) := by
  cases todo with
  | nil =>
    obtain ⟨scrapes, hrendered, hscrapes⟩ := h.rendered
    refine ⟨h.cells, h.calls, scrapes ++ [out], ?_, ?_⟩
    · rw [← List.append_assoc, ← hrendered]
      rfl
    · intro scrape hscrape
      rcases List.mem_append.mp hscrape with hscrape | hscrape
      · exact hscrapes scrape hscrape
      · obtain rfl := List.mem_singleton.mp hscrape
        exact hout
  | cons m todo => exact h.cons rfl hout

theorem nextStatuses {out : Scrape} {todo : List RouteMetrics}
    (h : Settled s₀ { s with calls := rest }) (hout : Current s₀.cells out) :
    Settled s₀ (s.nextStatuses rest out todo) := by
  cases todo with
  | nil => exact h.nextHistogram hout
  | cons m todo => exact h.cons rfl ⟨by decide, hout, rfl⟩

theorem found {l : Lookup} {m : RouteMetrics} (h : Settled s₀ { s with calls := c ::ₘ rest })
    (hl : l.observation.map (fun _ => 0) = (none : Option ℕ)) :
    Settled s₀ { s with calls := State.found l m + rest } := by
  rw [State.found, Option.map_eq_none_iff.mp hl, Multiset.zero_add]
  exact h.others

theorem perform {toNanoseconds : Double → UInt64} (h : Settled s₀ { s with calls := c ::ₘ rest }) :
    Settled s₀ (perform toNanoseconds s rest c) := by
  obtain ⟨hstage, hread⟩ := h.calls c (Multiset.mem_cons_self c rest)
  have hcells : s.cells = s₀.cells := h.cells
  cases c with
  | find l =>
    simp only [HttpMetrics.perform]
    cases s.routes.find? (makeKey l.method l.route) with
    | some m => exact h.found hstage
    | none => exact h.others.cons hstage trivial
  | register l =>
    simp only [HttpMetrics.perform]
    cases s.routes.find? (makeKey l.method l.route) with
    | some m => exact h.found hstage
    | none =>
      obtain ⟨hcells, hcalls, hrendered⟩ := h.found (m := ⟨methodToString l.method, l.route⟩) hstage
      exact ⟨hcells, hcalls, hrendered⟩
  | snapshot => exact h.others.nextStatuses ⟨by simp, by simp⟩
  | loadStatus m todo loaded out =>
    obtain ⟨hlength, hout, hloaded⟩ := hread
    have hloaded' : loaded ++ [s.cells (.statusCounts m loaded.length)] =
        (List.range (loaded.length + 1)).map fun i => s₀.cells (.statusCounts m i) := by
      rw [List.range_succ, List.map_append, ← hloaded, hcells]
      rfl
    simp only [HttpMetrics.perform]
    rw [hloaded', List.length_map, List.length_range]
    split_ifs with hlt
    · exact h.others.cons rfl ⟨by simpa using hlt, hout, by simp⟩
    · apply h.others.nextStatuses
      refine ⟨?_, hout.histograms⟩
      intro entry hentry
      rcases List.mem_append.mp hentry with hentry | hentry
      · exact hout.statuses entry hentry
      · obtain rfl := List.mem_singleton.mp hentry
        rw [show loaded.length + 1 = 5 by omega]
  | loadBucket m todo loaded out =>
    simp only [HttpMetrics.perform]
    split_ifs <;> exact h.others.cons rfl hread
  | loadCount m todo loaded out =>
    refine h.others.cons rfl ⟨by rw [hcells], ?_, hread⟩
    rw [Multiset.countP_eq_zero]
    intro c hc
    simp [not_counted (h.others.calls c hc).1]
  | loadDuration m todo loaded requestCount behind out =>
    obtain ⟨hcount, hbehind, hout⟩ := hread
    apply h.others.nextHistogram
    refine ⟨hout.statuses, ?_⟩
    intro h' hh'
    rcases List.mem_append.mp hh' with hh' | hh'
    · exact hout.histograms h' hh'
    · obtain rfl := List.mem_singleton.mp hh'
      exact ⟨hcount, hbehind⟩
  | _ => cases hstage

theorem step {toNanoseconds : Double → UInt64} {s s' : State} {e : Event}
    (h : Step toNanoseconds s e s') (hsettled : Settled s₀ s) (he : isRecord e = false) :
    Settled s₀ s' := by
  cases e with
  | record => cases he
  | registerRoute | render =>
    obtain rfl := Option.some.inj h
    exact Settled.cons (s := s) hsettled rfl trivial
  | step c =>
    obtain ⟨rest, hcalls, rfl⟩ := step_call_iff.mp h
    apply Settled.perform
    rw [← hcalls]
    exact hsettled

theorem run {toNanoseconds : Double → UInt64} {events : List Event}
    (h : Run (Step toNanoseconds) s₀ events s) (hcalls : s₀.calls = 0)
    (hevents : events.countP isRecord = 0) : Settled s₀ s := by
  induction h with
  | start => exact ⟨rfl, by simp [hcalls], [], by simp, by simp⟩
  | snoc _ hlast ih =>
    rw [List.countP_append, List.countP_singleton, Nat.add_eq_zero_iff] at hevents
    exact step hlast (ih hevents.1) (by simpa using hevents.2)

end Settled

/-- After fewer than 2 ^ 64 record calls every scrape has well-formed histograms, and once all
record calls have finished, the status counters add up to the number of requests: the counters
themselves, and what the renders from then on print, where the last bucket is no more than that
number either. -/
theorem scrapes_wellFormed {events : List Event} (h : Run (Step toNanoseconds) initial events s)
    (hrecords : events.countP isRecord < 2 ^ 64) :
    (∀ scrape ∈ s.rendered,
      scrape.histograms.map Histogram.metrics = scrape.statuses.map Prod.fst ∧
      ∀ histogram ∈ scrape.histograms, WellFormed histogram) ∧
    ((∀ c ∈ s.calls, stage c = none) → ∀ m,
      ∑ i ∈ Finset.range 5, (s.cells (.statusCounts m i)).toNat =
        (s.cells (.requestCount m)).toNat) ∧
    (s.calls = 0 → ∀ events' s', Run (Step toNanoseconds) s events' s' →
      events'.countP isRecord = 0 → ∃ scrapes, s'.rendered = s.rendered ++ scrapes ∧
        ∀ scrape ∈ scrapes, ∀ histogram ∈ scrape.histograms,
          histogram.lastBucket ≤ histogram.requestCount ∧
          ∀ entry ∈ scrape.statuses, entry.1 = histogram.metrics →
            entry.2.length = 5 ∧ total entry.2 = histogram.requestCount.toNat) := by
  have hbound : s.records < 2 ^ 64 := by
    rw [run_records h, initial, Nat.zero_add]
    exact hrecords
  have hinv := inv_initial.run h hbound
  have hstatuses : (∀ c ∈ s.calls, stage c = none) → ∀ m,
      ∑ i ∈ Finset.range 5, (s.cells (.statusCounts m i)).toNat =
        (s.cells (.requestCount m)).toNat := by
    intro hcalls m
    rw [hinv.tallied.statuses, Multiset.countP_eq_zero.mpr, Nat.add_zero]
    intro c hc
    simp [not_underWay (hcalls c hc)]
  refine ⟨?_, hstatuses, ?_⟩
  · intro scrape hscrape
    obtain ⟨hconsistent, hroutes⟩ := hinv.rendered scrape hscrape
    rw [List.append_nil] at hroutes
    exact ⟨hroutes, fun histogram hh => (hconsistent histogram hh).wellFormed⟩
  · intro hcalls events' s' hrun hevents'
    have hsettled := Settled.run hrun hcalls hevents'
    have hbound' : s'.records < 2 ^ 64 := by
      rw [run_records hrun, hevents', Nat.add_zero]
      exact hbound
    obtain ⟨scrapes, hrendered, hscrapes⟩ := hsettled.rendered
    refine ⟨scrapes, hrendered, ?_⟩
    intro scrape hscrape histogram hh
    have hcurrent := hscrapes scrape hscrape
    obtain ⟨hcount, hbehind⟩ := hcurrent.histograms histogram hh
    have hconsistent := ((hinv.run hrun hbound').rendered scrape
      (hrendered ▸ List.mem_append_right _ hscrape)).consistent histogram hh
    constructor
    · have hlast := hconsistent.wellFormed.last
      rw [hbehind, Nat.add_zero] at hlast
      exact UInt64.le_iff_toNat_le.mpr hlast
    · intro entry hentry hmetrics
      rw [hcurrent.statuses entry hentry, hcount, ← hmetrics, ← hstatuses (by simp [hcalls]),
        total_eq_sum, List.length_map, List.length_range]
      refine ⟨rfl, Finset.sum_congr rfl ?_⟩
      intro i hi
      simp [Finset.mem_range.mp hi]

def demoRoute : Bytes := ascii "/a"

def demoMetrics : RouteMetrics := ⟨ascii "GET", demoRoute⟩

def demoObservation : Observation := ⟨200, .finite 0⟩

def demoLookup : Lookup := ⟨.get, demoRoute, some demoObservation⟩

def demoStatuses : List UInt64 := [1, 0, 0, 0, 0]

def demoBuckets : List UInt64 := [1, 0, 0, 0, 0, 0, 0, 0, 0, 0, 0, 0, 0]

def demoOut : Scrape := ⟨[(demoMetrics, demoStatuses)], []⟩

def demoRender (requestCount : UInt64) (behind : ℕ) : List Event :=
  [.render, .step .snapshot] ++
  (List.range 5).map (fun i => .step (.loadStatus demoMetrics [] (demoStatuses.take i) ⟨[], []⟩)) ++
  (List.range 13).map (fun i => .step (.loadBucket demoMetrics [] (demoBuckets.take i) demoOut)) ++
  [.step (.loadCount demoMetrics [] demoBuckets demoOut),
    .step (.loadDuration demoMetrics [] demoBuckets requestCount behind demoOut)]

def demoHistogram (requestCount : UInt64) (behind : ℕ) : Histogram :=
  ⟨demoMetrics, demoBuckets, requestCount, 0, behind⟩

def demoScrape (requestCount : UInt64) (behind : ℕ) : Scrape :=
  { demoOut with histograms := [demoHistogram requestCount behind] }

/-- A render when the only record call has updated a bucket, but not yet requestCount. -/
def demoBehind : List Event :=
  [.record .get demoRoute demoObservation, .step (.find demoLookup), .step (.register demoLookup),
    .step (.status demoMetrics demoObservation), .step (.bucket demoMetrics demoObservation)] ++
  demoRender 0 1

def demoFinish : List Event :=
  [.step (.duration demoMetrics demoObservation (some ⟨0, 1⟩)),
    .step (.count demoMetrics (some ⟨0, 1⟩))]

theorem demo_run {T : Type} (events : List Event) (view : State → T) (v : T)
    (h : (events.foldlM (next fun _ => 0) initial).map view = some v) :
    ∃ s, events.foldlM (next fun _ => 0) initial = some s ∧
      Run (Step fun _ => 0) initial events s ∧ view s = v := by
  obtain ⟨s, hs, hview⟩ := Option.map_eq_some_iff.mp h
  exact ⟨s, hs, Run.of_foldlM hs, hview⟩

theorem scrapes_wellFormed_demo : ∃ s,
    Run (Step fun _ => 0) initial (demoBehind ++ demoFinish) s ∧
    WellFormed (demoHistogram 0 1) ∧
    ∑ i ∈ Finset.range 5, (s.cells (.statusCounts demoMetrics i)).toNat =
      (s.cells (.requestCount demoMetrics)).toNat ∧
    (demoHistogram 1 0).lastBucket ≤ 1 ∧ total demoStatuses = 1 := by
  obtain ⟨s, hs, hrun, hview⟩ := demo_run (demoBehind ++ demoFinish)
    (fun s => (s.calls, s.rendered)) (0, [demoScrape 0 1]) (by decide +kernel)
  obtain ⟨s', hs', -, hrendered'⟩ := demo_run
    (demoBehind ++ demoFinish ++ demoRender 1 0) State.rendered [demoScrape 0 1, demoScrape 1 0]
    (by decide +kernel)
  obtain ⟨hcalls, hrendered⟩ := Prod.mk.inj hview
  rw [List.foldlM_append, hs, Option.bind_eq_bind, Option.bind_some] at hs'
  obtain ⟨hformed, hstatuses, hafter⟩ := scrapes_wellFormed hrun (by decide +kernel)
  obtain ⟨scrapes, happend, hscrapes⟩ := hafter hcalls _ s' (Run.of_foldlM hs') (by decide)
  rw [hrendered, hrendered'] at happend
  have hscrape : demoScrape 1 0 ∈ scrapes := by
    rw [← List.append_right_inj [demoScrape 0 1] |>.mp happend]
    exact List.mem_singleton_self _
  have hscrape' : demoScrape 0 1 ∈ s.rendered := by
    rw [hrendered]
    exact List.mem_singleton_self _
  obtain ⟨hlast, hentries⟩ := hscrapes _ hscrape (demoHistogram 1 0) (List.mem_singleton_self _)
  refine ⟨s, hrun, ?_, ?_, ?_, ?_⟩
  · exact (hformed _ hscrape').2 (demoHistogram 0 1) (List.mem_singleton_self _)
  · exact hstatuses (by simp [hcalls]) _
  · exact hlast
  · exact (hentries (demoMetrics, demoStatuses) (List.mem_singleton_self _) rfl).2

def demoSlower : Observation := ⟨200, .finite (3 / 4096)⟩

def demoRegistered : State :=
  { initial with routes := initial.routes.insert (makeKey .get demoRoute) demoMetrics }

theorem demoRegistered_reached : Reaches (fun _ => 0) initial demoRegistered :=
    (reaches_step (e := .registerRoute .get demoRoute) rfl).trans <|
      (reaches_perform _ initial _ _).trans (reaches_perform _ initial _ _)

theorem demo_loaded (n : ℕ) : ∃ s, Reaches (fun _ => 0) initial s ∧ s.records = n + 1 ∧
    ∃ scrape ∈ s.rendered, ∃ histogram ∈ scrape.histograms,
      histogram.loaded = UInt64.ofNat n :: 1 :: List.replicate 11 0 := by
  have hroute : demoRegistered.routes.find? (makeKey .get demoRoute) = some demoMetrics := by
    decide
  have hfirst : bucketIndex demoObservation.durationSeconds = some 0 := by decide +kernel
  have hsecond : bucketIndex demoSlower.durationSeconds = some 1 := by decide +kernel
  obtain ⟨s₁, hreaches₁, -, hroutes₁, -, hrecords₁, hcells₁⟩ :=
    records_alone (fun _ => 0) hroute hfirst n
  rw [← hroutes₁] at hroute
  obtain ⟨s₂, hreaches₂, -, hroutes₂, -, hrecords₂, hcells₂⟩ :=
    record_alone (fun _ => 0) hroute hsecond
  have hrecords : s₂.records = n + 1 := by
    rw [hrecords₂, hrecords₁]
    simp [demoRegistered, initial]
  have hentries : s₂.routes.entries.map Prod.snd = [demoMetrics] := by
    rw [hroutes₂, hroutes₁]
    decide
  have hcells : ∀ j, s₂.cells (.bucketCounts demoMetrics j) =
      (if j = 0 then UInt64.ofNat n else 0) + if j = 1 then 1 else 0 := by
    intro j
    rw [hcells₂, hcells₁]
    simp [demoRegistered, initial]
  refine ⟨_, ((demoRegistered_reached.trans hreaches₁).trans hreaches₂).trans
    (render_alone s₂), hrecords, _, List.mem_append_right _ (List.mem_singleton_self _),
    histogramOf s₂ demoMetrics, ?_, ?_⟩
  · rw [hentries]
    exact List.mem_singleton_self _
  · simp [histogramOf, hcells, List.range_succ]

/-- A scrape whose last bucket exceeds the number of requests, and one after 2 ^ 64 record calls
whose buckets go down, because their sum wraps. -/
theorem scrapes_not_wellFormed :
    (∃ events s, Run (Step fun _ => 0) initial events s ∧
      ∃ scrape ∈ s.rendered, ∃ histogram ∈ scrape.histograms,
        ¬histogram.lastBucket ≤ histogram.requestCount) ∧
    ∃ events s, Run (Step fun _ => 0) initial events s ∧ events.countP isRecord = 2 ^ 64 ∧
      ∃ scrape ∈ s.rendered, ∃ histogram ∈ scrape.histograms,
        ¬histogram.buckets.Pairwise (· ≤ ·) := by
  constructor
  · obtain ⟨s, -, hrun, hrendered⟩ := demo_run demoBehind State.rendered [demoScrape 0 1]
      (by decide +kernel)
    refine ⟨demoBehind, s, hrun, demoScrape 0 1, ?_, demoHistogram 0 1,
      List.mem_singleton_self _, by decide⟩
    rw [hrendered]
    exact List.mem_singleton_self _
  · obtain ⟨n, hn⟩ : ∃ n, n + 1 = 2 ^ 64 := ⟨_, Nat.sub_add_cancel Nat.one_le_two_pow⟩
    obtain ⟨s, ⟨events, hrun⟩, hrecords, scrape, hscrape, histogram, hhistogram, hloaded⟩ :=
      demo_loaded n
    rw [run_records hrun, initial, Nat.zero_add, hn] at hrecords
    refine ⟨events, s, hrun, hrecords, scrape, hscrape, histogram, hhistogram, ?_⟩
    intro hpairwise
    rw [Histogram.buckets, hloaded, cumulativeCounts, cumulativeCounts] at hpairwise
    have hle := (List.pairwise_cons.mp hpairwise).1 _ List.mem_cons_self
    rw [UInt64.le_iff_toNat_le, UInt64.zero_add, UInt64.toNat_add, UInt64.toNat_ofNat',
      UInt64.toNat_one, Nat.mod_eq_of_lt (by omega), hn, Nat.mod_self] at hle
    omega

end HttpScrapes
