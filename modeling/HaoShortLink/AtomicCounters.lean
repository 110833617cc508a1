import HaoShortLink.Histories
import Mathlib.Data.Multiset.Range

/-! A 64-bit counter that calls raise by one with fetch_add, each call making something of the
number it draws. Any number of calls is in flight at any time. -/
namespace AtomicCounters

open Histories

variable {V : Type}

inductive Event where
  | fetchAdd
  /-- The call that drew this number returns. -/
  | finish (next : UInt64)
  deriving DecidableEq, Repr

structure State (V : Type) where
  sequence : UInt64
  /-- The numbers of the calls that have not returned. -/
  inFlight : Multiset UInt64
  /-- What the calls returned, in their order. -/
  results : List V

def initial : State V := ⟨0, 0, []⟩

inductive Step (format : UInt64 → V) : State V → Event → State V → Prop where
  | fetchAdd (s : State V) : Step format s .fetchAdd
      { s with sequence := s.sequence + 1, inFlight := (s.sequence + 1) ::ₘ s.inFlight }
  | finish (s : State V) (next : UInt64) (h : next ∈ s.inFlight) : Step format s (.finish next)
      { s with inFlight := s.inFlight.erase next, results := s.results ++ [format next] }

def calls (events : List Event) : ℕ := events.count .fetchAdd

def drawn (n : ℕ) : Multiset UInt64 := (Multiset.range n).map fun i => UInt64.ofNat (i + 1)

/-- Every number drawn so far is that of one call, in flight or finished. -/
structure Accounted (format : UInt64 → V) (n : ℕ) (s : State V) (finished : List UInt64) :
    Prop where
  sequence : s.sequence = UInt64.ofNat n
  results : s.results = finished.map format
  drawn : s.inFlight + ↑finished = drawn n

variable {format : UInt64 → V} {events : List Event} {s s' : State V} {n : ℕ}

theorem drawn_succ (n : ℕ) : drawn (n + 1) = UInt64.ofNat (n + 1) ::ₘ drawn n := by
  rw [drawn, drawn, Multiset.range_succ, Multiset.map_cons]

theorem Accounted.fetchAdd {finished : List UInt64} (h : Accounted format n s finished) :
    Accounted format (n + 1) { s with
      sequence := s.sequence + 1, inFlight := (s.sequence + 1) ::ₘ s.inFlight } finished := by
  have hnext : s.sequence + 1 = UInt64.ofNat (n + 1) := by
    rw [h.sequence, UInt64.ofNat_add, UInt64.ofNat_one]
  refine ⟨hnext, h.results, ?_⟩
  rw [Multiset.cons_add, h.drawn, hnext, drawn_succ]

theorem Accounted.finish {finished : List UInt64} (h : Accounted format n s finished)
    {next : UInt64} (hnext : next ∈ s.inFlight) :
    Accounted format n { s with
      inFlight := s.inFlight.erase next, results := s.results ++ [format next] }
      (finished ++ [next]) := by
  refine ⟨h.sequence, ?_, ?_⟩
  · rw [h.results, List.map_append, List.map_singleton]
  · rw [← h.drawn, ← Multiset.coe_add, Multiset.coe_singleton, ← add_assoc, add_right_comm,
      Multiset.add_comm (s.inFlight.erase next), Multiset.singleton_add,
      Multiset.cons_erase hnext]

theorem Accounted.of_run (h : Run (Step format) initial events s) :
    ∃ finished, Accounted format (calls events) s finished := by
  induction h with
  | start => exact ⟨[], rfl, rfl, rfl⟩
  | @snoc events s e s' _ hlast ih =>
    obtain ⟨finished, hs⟩ := ih
    cases hlast with
    | fetchAdd =>
      have hcalls : calls (events ++ [.fetchAdd]) = calls events + 1 := by simp [calls]
      rw [hcalls]
      exact ⟨finished, hs.fetchAdd⟩
    | finish next hnext =>
      have hcalls : calls (events ++ [.finish next]) = calls events := by simp [calls]
      rw [hcalls]
      exact ⟨finished ++ [next], hs.finish hnext⟩

theorem drawn_nodup (h : n < 2 ^ 64) : (drawn n).Nodup := by
  refine Multiset.Nodup.map_on ?_ (Multiset.nodup_range n)
  intro i hi j hj hij
  rw [Multiset.mem_range] at hi hj
  have hvalue := congrArg UInt64.toNat hij
  rw [UInt64.toNat_ofNat_of_lt' (by rw [UInt64.size]; omega),
    UInt64.toNat_ofNat_of_lt' (by rw [UInt64.size]; omega)] at hvalue
  omega

theorem results_nodup (h : Run (Step format) initial events s) (hcalls : calls events < 2 ^ 64)
    (hformat : Function.Injective format) : s.results.Nodup := by
  obtain ⟨finished, hs⟩ := Accounted.of_run h
  have hnodup := drawn_nodup hcalls
  rw [← hs.drawn] at hnodup
  rw [hs.results]
  exact (Multiset.coe_nodup.mp (Multiset.nodup_add.mp hnodup).2.1).map hformat

theorem results_length (h : Run (Step format) initial events s) :
    s.results.length + s.inFlight.card = calls events := by
  obtain ⟨finished, hs⟩ := Accounted.of_run h
  have hcard := congrArg Multiset.card hs.drawn
  rw [Multiset.card_add, Multiset.coe_card, drawn, Multiset.card_map, Multiset.card_range] at hcard
  rw [hs.results, List.length_map]
  omega

theorem mem_results (h : Run (Step format) initial events s) {v : V} (hv : v ∈ s.results) :
    ∃ next, v = format next := by
  obtain ⟨finished, hs⟩ := Accounted.of_run h
  rw [hs.results] at hv
  obtain ⟨next, -, hnext⟩ := List.mem_map.mp hv
  exact ⟨next, hnext.symm⟩

end AtomicCounters
