import HaoShortLink.HttpAccounts

/-! What a render of the HTTP metrics has loaded: all of each route, and each route once. -/
namespace HttpRenders

open Cpp Histories HttpMetrics HttpHistograms HttpScrapes HttpAccounts

variable (s₀ : State) (P : Cell → UInt64 → Prop)

/-- Each route once, and all routes that there were before the render. -/
structure Covers (routes : List RouteMetrics) : Prop where
  nodup : routes.Nodup
  all : ∀ k m, s₀.routes.find? k = some m → m ∈ routes

/-- The numbers loaded from these cells are as P says. -/
def Agrees (cells : ℕ → Cell) (loaded : List UInt64) : Prop :=
  ∀ i v, loaded[i]? = some v → P (cells i) v

structure Printed (out : Scrape) : Prop where
  statuses : ∀ entry ∈ out.statuses,
    entry.2.length = 5 ∧ Agrees P (.statusCounts entry.1) entry.2
  histograms : ∀ h ∈ out.histograms, h.loaded.length = 13 ∧
    Agrees P (.bucketCounts h.metrics) h.loaded ∧ P (.requestCount h.metrics) h.requestCount ∧
    P (.durationNanoseconds h.metrics) h.durationNanoseconds

/-- The routes of the statuses and those that still have no histogram. -/
structure Partway (out : Scrape) (todo : List RouteMetrics) : Prop where
  printed : Printed P out
  covers : Covers s₀ (out.statuses.map Prod.fst)
  routes : out.histograms.map Histogram.metrics ++ todo = out.statuses.map Prod.fst

def Rendering : Call → Prop
  | .loadStatus m todo loaded out => loaded.length < 5 ∧ Agrees P (.statusCounts m) loaded ∧
    Printed P out ∧ out.histograms = [] ∧ Covers s₀ (out.statuses.map Prod.fst ++ m :: todo)
  | .loadBucket m todo loaded out => loaded.length < 13 ∧ Agrees P (.bucketCounts m) loaded ∧
    Partway s₀ P out (m :: todo)
  | .loadCount m todo loaded out => loaded.length = 13 ∧ Agrees P (.bucketCounts m) loaded ∧
    Partway s₀ P out (m :: todo)
  | .loadDuration m todo loaded requestCount _ out => loaded.length = 13 ∧
    Agrees P (.bucketCounts m) loaded ∧ P (.requestCount m) requestCount ∧
    Partway s₀ P out (m :: todo)
  | _ => True

structure Orderly (s : State) : Prop where
  registered : Registered s
  kept : ∀ k m, s₀.routes.find? k = some m → s.routes.find? k = some m
  calls : ∀ c ∈ s.calls, Rendering s₀ P c
  rendered : ∃ scrapes, s.rendered = s₀.rendered ++ scrapes ∧
    ∀ out ∈ scrapes, Partway s₀ P out []

variable {s₀ P} {s s' : State} {rest : Multiset Call} {c : Call}

theorem Agrees.nil {cells : ℕ → Cell} : Agrees P cells [] := by
  intro i v h
  cases h

theorem Agrees.snoc {cells : ℕ → Cell} {loaded : List UInt64} {v : UInt64}
    (h : Agrees P cells loaded) (hv : P (cells loaded.length) v) :
    Agrees P cells (loaded ++ [v]) := by
  intro i w hi
  rcases lt_trichotomy i loaded.length with hlt | rfl | hgt
  · rw [List.getElem?_append_left hlt] at hi
    exact h i w hi
  · rw [List.getElem?_concat_length] at hi
    obtain rfl := Option.some.inj hi
    exact hv
  · rw [List.getElem?_eq_none (by simp; omega)] at hi
    cases hi

theorem key_of_find {k : Bytes} {m : RouteMetrics} (h : Registered s)
    (hfind : s.routes.find? k = some m) : k = m.method ++ 10 :: m.route := by
  obtain ⟨method, route, rfl, rfl⟩ := h k m hfind
  rfl

theorem snapshot_covers (h : Registered s)
    (hkept : ∀ k m, s₀.routes.find? k = some m → s.routes.find? k = some m) :
    Covers s₀ (s.routes.entries.map Prod.snd) := by
  have hkey : ∀ entry ∈ s.routes.entries, entry.1 = entry.2.method ++ 10 :: entry.2.route := by
    rintro ⟨k, m⟩ hentry
    exact key_of_find h (OrderedMaps.OrderedMap.mem_entries.mp hentry)
  constructor
  · rw [List.Nodup, List.pairwise_map]
    apply s.routes.sorted.imp_of_mem
    intro a b ha hb hlt heq
    rw [hkey a ha, hkey b hb, heq] at hlt
    exact absurd hlt (Std.Irrefl.irrefl _)
  · intro k m hfind
    exact List.mem_map_of_mem (OrderedMaps.OrderedMap.mem_entries.mpr (hkept k m hfind))

namespace Orderly

theorem cons (h : Orderly s₀ P { s with calls := rest }) (hc : Rendering s₀ P c) :
    Orderly s₀ P { s with calls := c ::ₘ rest } :=
  ⟨h.registered, h.kept, Multiset.forall_mem_cons.mpr ⟨hc, h.calls⟩, h.rendered⟩

theorem others (h : Orderly s₀ P { s with calls := c ::ₘ rest }) :
    Orderly s₀ P { s with calls := rest } :=
  ⟨h.registered, h.kept, (Multiset.forall_mem_cons.mp h.calls).2, h.rendered⟩

theorem found (h : Orderly s₀ P { s with calls := c ::ₘ rest }) (l : Lookup) (m : RouteMetrics) :
    Orderly s₀ P { s with calls := State.found l m + rest } := by
  cases hobservation : l.observation with
  | none =>
    have hfound : State.found l m = 0 := by rw [State.found, hobservation]
    rw [hfound, Multiset.zero_add]
    exact h.others
  | some o =>
    have hfound : State.found l m = {.status m o} := by rw [State.found, hobservation]
    rw [hfound, Multiset.singleton_add]
    exact h.others.cons trivial

theorem raise {cells : Cell → UInt64} (h : Orderly s₀ P { s with calls := c ::ₘ rest }) (c' : Call)
    (hc' : Rendering s₀ P c') : Orderly s₀ P { s with cells := cells, calls := c' ::ₘ rest } :=
  ⟨h.registered, h.kept, Multiset.forall_mem_cons.mpr ⟨hc', h.others.calls⟩, h.rendered⟩

theorem insert (h : Orderly s₀ P s) {method : HttpRequests.Method} {route : Bytes}
    (hnone : s.routes.find? (makeKey method route) = none) : Orderly s₀ P { s with
      routes := s.routes.insert (makeKey method route) (metricsOf method route) } := by
  refine ⟨h.registered.insert method route, ?_, h.calls, h.rendered⟩
  intro k m hfind
  have hk : k ≠ makeKey method route := by
    rintro rfl
    rw [h.kept _ m hfind] at hnone
    cases hnone
  rw [OrderedMaps.OrderedMap.find?_insert, if_neg hk]
  exact h.kept k m hfind

theorem nextHistogram {out : Scrape} {todo : List RouteMetrics}
    (h : Orderly s₀ P { s with calls := rest }) (hout : Partway s₀ P out todo) :
    Orderly s₀ P (s.nextHistogram rest out todo) := by
  cases todo with
  | nil =>
    obtain ⟨scrapes, hrendered, hscrapes⟩ := h.rendered
    refine ⟨h.registered, h.kept, h.calls, scrapes ++ [out], ?_, ?_⟩
    · rw [← List.append_assoc, ← hrendered]
      rfl
    · intro scrape hscrape
      rcases List.mem_append.mp hscrape with hscrape | hscrape
      · exact hscrapes scrape hscrape
      · obtain rfl := List.mem_singleton.mp hscrape
        exact hout
  | cons m todo => exact h.cons ⟨by decide, .nil, hout⟩

theorem nextStatuses {out : Scrape} {todo : List RouteMetrics}
    (h : Orderly s₀ P { s with calls := rest }) (hout : Printed P out)
    (hhistograms : out.histograms = [])
    (hcovers : Covers s₀ (out.statuses.map Prod.fst ++ todo)) :
    Orderly s₀ P (s.nextStatuses rest out todo) := by
  cases todo with
  | nil =>
    rw [List.append_nil] at hcovers
    exact h.nextHistogram ⟨hout, hcovers, by rw [hhistograms]; rfl⟩
  | cons m todo => exact h.cons ⟨by decide, .nil, hout, hhistograms, hcovers⟩

theorem perform (toNanoseconds : Double → UInt64) (h : Orderly s₀ P { s with calls := c ::ₘ rest })
    (hP : ∀ x, P x (s.cells x)) : Orderly s₀ P (perform toNanoseconds s rest c) := by
  have hc := h.calls c (Multiset.mem_cons_self c rest)
  cases c with
  | find l =>
    simp only [HttpMetrics.perform]
    cases s.routes.find? (makeKey l.method l.route) with
    | some m => exact h.found l m
    | none => exact h.others.cons trivial
  | register l =>
    simp only [HttpMetrics.perform]
    cases hfind : s.routes.find? (makeKey l.method l.route) with
    | some m => exact h.found l m
    | none => exact (h.found l (metricsOf l.method l.route)).insert hfind
  | status m o => exact h.raise _ trivial
  | duration m o rank => exact h.raise _ trivial
  | count m rank => exact ⟨h.registered, h.kept, h.others.calls, h.rendered⟩
  | bucket m o =>
    simp only [HttpMetrics.perform]
    cases bucketIndex o.durationSeconds with
    | some i => exact h.raise _ trivial
    | none => exact h.others.cons trivial
  | snapshot =>
    apply h.others.nextStatuses ⟨by simp, by simp⟩ rfl
    exact snapshot_covers (s := s) h.registered h.kept
  | loadStatus m todo loaded out =>
    obtain ⟨hlength, hagrees, hout, hhistograms, hcovers⟩ := hc
    have hloaded := hagrees.snoc (hP _)
    simp only [HttpMetrics.perform]
    split_ifs with hlt
    · exact h.others.cons ⟨hlt, hloaded, hout, hhistograms, hcovers⟩
    · refine h.others.nextStatuses ⟨?_, hout.histograms⟩ hhistograms ?_
      · intro entry hentry
        rcases List.mem_append.mp hentry with hentry | hentry
        · exact hout.statuses entry hentry
        · obtain rfl := List.mem_singleton.mp hentry
          refine ⟨?_, hloaded⟩
          rw [List.length_append, List.length_singleton] at hlt ⊢
          omega
      · rwa [List.map_append, List.append_assoc]
  | loadBucket m todo loaded out =>
    obtain ⟨hlength, hagrees, hout⟩ := hc
    have hloaded := hagrees.snoc (hP _)
    simp only [HttpMetrics.perform]
    split_ifs with hlt
    · exact h.others.cons ⟨hlt, hloaded, hout⟩
    · refine h.others.cons ⟨?_, hloaded, hout⟩
      rw [List.length_append, List.length_singleton] at hlt ⊢
      omega
  | loadCount m todo loaded out =>
    obtain ⟨hlength, hagrees, hout⟩ := hc
    exact h.others.cons ⟨hlength, hagrees, hP _, hout⟩
  | loadDuration m todo loaded requestCount behind out =>
    obtain ⟨hlength, hagrees, hcount, hout⟩ := hc
    refine h.others.nextHistogram ⟨⟨hout.printed.statuses, ?_⟩, hout.covers, ?_⟩
    · intro h' hh'
      rcases List.mem_append.mp hh' with hh' | hh'
      · exact hout.printed.histograms h' hh'
      · obtain rfl := List.mem_singleton.mp hh'
        exact ⟨hlength, hagrees, hcount, hP _⟩
    · rw [List.map_append, List.append_assoc]
      exact hout.routes

theorem step {toNanoseconds : Double → UInt64} {e : Event} (h : Step toNanoseconds s e s')
    (hs : Orderly s₀ P s) (hP : ∀ x, P x (s.cells x)) : Orderly s₀ P s' := by
  cases e with
  | record | registerRoute | render =>
    obtain rfl := Option.some.inj h
    exact ⟨hs.registered, hs.kept, Multiset.forall_mem_cons.mpr ⟨trivial, hs.calls⟩, hs.rendered⟩
  | step c =>
    obtain ⟨rest, hcalls, rfl⟩ := step_call_iff.mp h
    apply Orderly.perform toNanoseconds _ hP
    rw [← hcalls]
    exact hs

theorem start (h : Registered s₀) (hcalls : s₀.calls = 0) : Orderly s₀ P s₀ :=
  ⟨h, fun _ _ hfind => hfind, by simp [hcalls], [], by simp, by simp⟩

end Orderly

theorem rendered_partway {toNanoseconds : Double → UInt64} {events : List Event} {out : Scrape}
    (h : Run (Step toNanoseconds) initial events s) (hout : out ∈ s.rendered) :
    Partway initial (fun _ _ => True) out [] := by
  have horderly : Orderly initial (fun _ _ => True) s := by
    apply h.invariant
    · apply Orderly.start _ rfl
      intro k m hfind
      cases hfind
    · intro t e t' hstep ht
      exact ht.step hstep fun _ => trivial
  obtain ⟨scrapes, hrendered, hscrapes⟩ := horderly.rendered
  rw [hrendered] at hout
  exact hscrapes out hout

/-- The renders that begin and end while no record call is under way load what the counters are. -/
theorem settled_partway {toNanoseconds : Double → UInt64} {events : List Event}
    (h : Run (Step toNanoseconds) s₀ events s) (hregistered : Registered s₀) (hcalls : s₀.calls = 0)
    (hevents : events.countP isRecord = 0) : ∃ scrapes, s.rendered = s₀.rendered ++ scrapes ∧
      ∀ out ∈ scrapes, Partway s₀ (fun x v => v = s₀.cells x) out [] := by
  suffices horderly : Orderly s₀ (fun x v => v = s₀.cells x) s from horderly.rendered
  induction h with
  | start => exact .start hregistered hcalls
  | @snoc events s e s' hrun hlast ih =>
    rw [List.countP_append, Nat.add_eq_zero_iff] at hevents
    refine (ih hevents.1).step hlast ?_
    intro x
    rw [(Settled.run hrun hcalls hevents.1).cells]

end HttpRenders
