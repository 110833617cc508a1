import HaoShortLink.HttpMetrics
import Mathlib.Algebra.BigOperators.Group.Finset.Piecewise
import Mathlib.Algebra.BigOperators.Group.Finset.Sigma
import Mathlib.Data.Finset.Sigma
import Mathlib.Order.Interval.Finset.Nat

/-! What a scrape of the HTTP metrics shows while requests are recorded. -/
namespace HttpHistograms

open Cpp Histories HttpMetrics

def total (counts : List UInt64) : ℕ := (counts.map UInt64.toNat).sum

/-- The buckets never go down, and the last one exceeds the number of requests at most by those
whose bucket update was counted and whose update of requestCount was still to come. -/
structure WellFormed (h : Histogram) : Prop where
  labels : h.buckets.length = 13
  monotone : h.buckets.Pairwise (· ≤ ·)
  last : h.lastBucket.toNat ≤ h.requestCount.toNat + h.behind

/-- What the loads of one route amount to. -/
structure Consistent (h : Histogram) : Prop where
  length : h.loaded.length = 13
  behind : total h.loaded ≤ h.requestCount.toNat + h.behind
  bounded : total h.loaded < 2 ^ 64

theorem cumulativeCounts_length (cumulativeCount : UInt64) (counts : List UInt64) :
    (cumulativeCounts cumulativeCount counts).length = counts.length := by
  induction counts generalizing cumulativeCount with
  | nil => rfl
  | cons count counts ih => simp [cumulativeCounts, ih]

theorem cumulativeCounts_spec (cumulativeCount : UInt64) (counts : List UInt64)
    (h : cumulativeCount.toNat + total counts < 2 ^ 64) :
    (∀ c ∈ cumulativeCounts cumulativeCount counts, cumulativeCount ≤ c ∧
      c.toNat ≤ cumulativeCount.toNat + total counts) ∧
    (cumulativeCounts cumulativeCount counts).Pairwise (· ≤ ·) := by
  induction counts generalizing cumulativeCount with
  | nil => simp [cumulativeCounts]
  | cons count counts ih =>
    have htotal : total (count :: counts) = count.toNat + total counts := by simp [total]
    rw [htotal] at h ⊢
    have hsum : (cumulativeCount + count).toNat = cumulativeCount.toNat + count.toNat := by
      rw [UInt64.toNat_add]
      omega
    obtain ⟨hbounds, hpairwise⟩ := ih (cumulativeCount + count) (by omega)
    have hstep : cumulativeCount ≤ cumulativeCount + count := by
      rw [UInt64.le_iff_toNat_le]
      omega
    rw [cumulativeCounts, List.forall_mem_cons, List.pairwise_cons]
    refine ⟨⟨⟨hstep, by omega⟩, ?_⟩, fun c hc => (hbounds c hc).1, hpairwise⟩
    intro c hc
    obtain ⟨hle, hbound⟩ := hbounds c hc
    exact ⟨UInt64.le_trans hstep hle, by omega⟩

theorem Consistent.wellFormed {h : Histogram} (hconsistent : Consistent h) : WellFormed h := by
  obtain ⟨hbounds, hpairwise⟩ := cumulativeCounts_spec 0 h.loaded (by
    simpa using hconsistent.bounded)
  have hlength : h.buckets.length = 13 :=
    (cumulativeCounts_length 0 h.loaded).trans hconsistent.length
  refine ⟨hlength, hpairwise, ?_⟩
  obtain ⟨c, hc⟩ : ∃ c, h.buckets.getLast? = some c :=
    Option.ne_none_iff_exists'.mp (by
      intro hnone
      rw [List.getLast?_eq_none_iff.mp hnone] at hlength
      cases hlength)
  have hbound := (hbounds c (List.mem_of_getLast? hc)).2
  have hbehind := hconsistent.behind
  rw [Histogram.lastBucket, hc, Option.getD_some]
  simp only [UInt64.toNat_zero, Nat.zero_add] at hbound
  omega

/-- The counters that a record raises by one, in its order. -/
def kind : Cell → Option ℕ
  | .statusCounts _ _ => some 0
  | .bucketCounts _ _ => some 1
  | .requestCount _ => some 2
  | .durationNanoseconds _ => none

/-- The first of them that the call still raises. -/
def stage : Call → Option ℕ
  | .find l | .register l => l.observation.map fun _ => 0
  | .status _ _ => some 0
  | .bucket _ _ => some 1
  | .duration _ _ _ | .count _ _ => some 2
  | _ => none

def pending (k : ℕ) (c : Call) : Bool := (stage c).any (· ≤ k)

def underWay (m : RouteMetrics) : Call → Bool
  | .bucket m' _ | .duration m' _ _ | .count m' _ => m' = m
  | _ => false

def rankOf (m : RouteMetrics) : Call → Option Rank
  | .duration m' _ rank | .count m' rank => if m' = m then rank else none
  | _ => none

/-- The bucket updates of the route whose calls have not raised requestCount. -/
def window (m : RouteMetrics) (calls : Multiset Call) : Multiset Rank :=
  calls.filterMap (rankOf m)

def numbered (f : ℕ → ℕ) : Finset Rank := (Finset.range 13).sigma fun i => Finset.Icc 1 (f i)

theorem mem_numbered {f : ℕ → ℕ} {rank : Rank} :
    rank ∈ numbered f ↔ rank.1 < 13 ∧ 1 ≤ rank.2 ∧ rank.2 ≤ f rank.1 := by
  rw [numbered, Finset.mem_sigma, Finset.mem_range, Finset.mem_Icc]

theorem card_numbered (f : ℕ → ℕ) : (numbered f).card = ∑ i ∈ Finset.range 13, f i := by
  rw [numbered, Finset.card_sigma]
  exact Finset.sum_congr rfl fun i _ => by rw [Nat.card_Icc, Nat.add_sub_cancel]

def bucketsOf (cells : Cell → UInt64) (m : RouteMetrics) (i : ℕ) : ℕ :=
  (cells (.bucketCounts m i)).toNat

/-- How the counters stand to the calls under way, when so many record calls have begun. -/
structure Tallied (cells : Cell → UInt64) (calls : Multiset Call) (records : ℕ) : Prop where
  bounded : ∀ x k, kind x = some k → (cells x).toNat + calls.countP (pending k ·) ≤ records
  statuses : ∀ m, ∑ i ∈ Finset.range 5, (cells (.statusCounts m i)).toNat =
    (cells (.requestCount m)).toNat + calls.countP (underWay m ·)
  nodup : ∀ m, (window m calls).Nodup
  ranked : ∀ m, ∀ rank ∈ window m calls, rank ∈ numbered (bucketsOf cells m)
  finished : ∀ m, (numbered (bucketsOf cells m)).card ≤
    (cells (.requestCount m)).toNat + (window m calls).card

variable {cells cells' : Cell → UInt64} {t u rest : Multiset Call} {records : ℕ}

theorem countP_singleton (p : Call → Prop) [DecidablePred p] (c : Call) :
    Multiset.countP p {c} = if p c then 1 else 0 := by
  rw [← Multiset.cons_zero, Multiset.countP_cons, Multiset.countP_zero, Nat.zero_add]

theorem window_add (m : RouteMetrics) (s t : Multiset Call) :
    window m (s + t) = window m s + window m t := Multiset.filterMap_add _ _ _

theorem Tallied.quiet (h : Tallied cells (t + rest) records)
    (hcells : ∀ x k, kind x = some k → cells' x = cells x)
    (hpending : ∀ k, u.countP (pending k ·) ≤ t.countP (pending k ·))
    (hunderWay : ∀ m, u.countP (underWay m ·) = t.countP (underWay m ·))
    (hwindow : ∀ m, window m u = window m t) : Tallied cells' (u + rest) records := by
  have hbuckets : ∀ m, bucketsOf cells' m = bucketsOf cells m := by
    intro m
    funext i
    rw [bucketsOf, bucketsOf, hcells _ _ rfl]
  have hcalls : ∀ m, window m (u + rest) = window m (t + rest) := by
    intro m
    rw [window_add, window_add, hwindow]
  constructor
  · intro x k hx
    have hbounded := h.bounded x k hx
    have hle := hpending k
    rw [Multiset.countP_add] at hbounded ⊢
    rw [hcells x k hx]
    omega
  · intro m
    have hstatuses := h.statuses m
    rw [Multiset.countP_add] at hstatuses ⊢
    rw [hcells _ _ rfl, hunderWay, ← hstatuses]
    exact Finset.sum_congr rfl fun i _ => by rw [hcells _ _ rfl]
  · intro m
    rw [hcalls]
    exact h.nodup m
  · intro m
    rw [hcalls, hbuckets]
    exact h.ranked m
  · intro m
    rw [hcalls, hbuckets, hcells _ _ rfl]
    exact h.finished m

theorem Tallied.begin {c : Call} (h : Tallied cells rest records)
    (hunderWay : ∀ m, underWay m c = false) (hrank : ∀ m, rankOf m c = none) :
    Tallied cells (c ::ₘ rest) (records + 1) := by
  have hcalls : ∀ m, window m (c ::ₘ rest) = window m rest := fun m =>
    Multiset.filterMap_cons_none c rest (hrank m)
  constructor
  · intro x k hx
    have hbounded := h.bounded x k hx
    rw [Multiset.countP_cons]
    split <;> omega
  · intro m
    rw [Multiset.countP_cons_of_neg _ (by simp [hunderWay]), h.statuses]
  · intro m
    rw [hcalls]
    exact h.nodup m
  · intro m
    rw [hcalls]
    exact h.ranked m
  · intro m
    rw [hcalls]
    exact h.finished m

theorem raise_toNat {x : Cell} (hx : (cells x).toNat + 1 < 2 ^ 64) (y : Cell) :
    (Function.update cells x (cells x + 1) y).toNat =
      (cells y).toNat + if y = x then 1 else 0 := by
  by_cases hy : y = x
  · subst hy
    rw [Function.update_self, if_pos rfl, UInt64.toNat_add]
    exact Nat.mod_eq_of_lt hx
  · rw [Function.update_of_ne hy, if_neg hy, Nat.add_zero]

theorem Tallied.room {c : Call} {x : Cell} {k : ℕ} (h : Tallied cells (c ::ₘ rest) records)
    (hrecords : records < 2 ^ 64) (hx : kind x = some k) (hc : pending k c) :
    (cells x).toNat + 1 < 2 ^ 64 := by
  have hbounded := h.bounded x k hx
  rw [Multiset.countP_cons, if_pos hc] at hbounded
  omega

theorem Tallied.bounded_raise {c : Call} {x : Cell} {k₀ : ℕ}
    (h : Tallied cells (c ::ₘ rest) records) (hrecords : records < 2 ^ 64) (hx : kind x = some k₀)
    (hc : pending k₀ c) (hpast : u.countP (pending k₀ ·) = 0)
    (hpending : ∀ k, u.countP (pending k ·) ≤ if pending k c then 1 else 0) (y : Cell) (k : ℕ)
    (hy : kind y = some k) : (Function.update cells x (cells x + 1) y).toNat +
      (u + rest).countP (pending k ·) ≤ records := by
  have hbounded := h.bounded y k hy
  have hle := hpending k
  rw [Multiset.countP_cons] at hbounded
  rw [raise_toNat (h.room hrecords hx hc), Multiset.countP_add]
  by_cases hyx : y = x
  · subst hyx
    obtain rfl := Option.some.inj (hx.symm.trans hy)
    rw [if_pos hc] at hbounded
    rw [if_pos rfl, hpast]
    omega
  · rw [if_neg hyx]
    omega

theorem sum_raise {n i : ℕ} (hi : i < n) (f : ℕ → ℕ) (p : Prop) [Decidable p] :
    ∑ j ∈ Finset.range n, (f j + if p ∧ j = i then 1 else 0) =
      ∑ j ∈ Finset.range n, f j + if p then 1 else 0 := by
  rw [Finset.sum_add_distrib]
  by_cases hp : p
  · simp only [hp, true_and, if_true]
    rw [Finset.sum_ite_eq', if_pos (Finset.mem_range.mpr hi)]
  · simp [hp]

theorem statusClassIndex_lt (status : ℕ) : statusClassIndex status < 5 := by
  rw [statusClassIndex]
  split_ifs <;> omega

theorem bucketIndex_lt {d : Double} {i : ℕ} (h : bucketIndex d = some i) : i < 13 :=
  (List.findIdx?_eq_some_iff_findIdx_eq.mp h).1

theorem Tallied.status {m₀ : RouteMetrics} {o : Observation}
    (h : Tallied cells (.status m₀ o ::ₘ rest) records) (hrecords : records < 2 ^ 64) :
    let x := Cell.statusCounts m₀ (statusClassIndex o.statusCode)
    Tallied (Function.update cells x (cells x + 1)) (.bucket m₀ o ::ₘ rest) records := by
  intro x
  have hraise := raise_toNat (h.room hrecords (x := x) rfl rfl)
  have hcalls : ∀ m, window m (.bucket m₀ o ::ₘ rest) = window m (.status m₀ o ::ₘ rest) := by
    intro m
    rw [window, window, Multiset.filterMap_cons_none _ _ rfl,
      Multiset.filterMap_cons_none _ _ rfl]
  have hbuckets : ∀ m, bucketsOf (Function.update cells x (cells x + 1)) m = bucketsOf cells m := by
    intro m
    funext i
    rw [bucketsOf, bucketsOf, hraise, if_neg (by simp [x]), Nat.add_zero]
  constructor
  · have hbounded := h.bounded_raise (u := {.bucket m₀ o}) (x := x) hrecords rfl rfl
    rw [Multiset.singleton_add] at hbounded
    apply hbounded
    · rw [countP_singleton, if_neg (by simp [pending, stage])]
    · intro k
      rw [countP_singleton]
      simp only [pending, stage, Option.any_some, decide_eq_true_eq]
      split_ifs <;> omega
  · intro m
    have hstatuses := h.statuses m
    have hsum := sum_raise (statusClassIndex_lt o.statusCode)
      (fun i => (cells (.statusCounts m i)).toNat) (m = m₀)
    rw [Multiset.countP_cons, if_neg (by simp [underWay])] at hstatuses
    rw [hraise, if_neg (by simp [x]), Multiset.countP_cons]
    simp only [hraise, x, Cell.statusCounts.injEq]
    rw [hsum, hstatuses]
    by_cases hm : m = m₀
    · simp [underWay, hm]
      omega
    · simp [underWay, hm, Ne.symm hm]
  · intro m
    rw [hcalls]
    exact h.nodup m
  · intro m
    rw [hcalls, hbuckets]
    exact h.ranked m
  · intro m
    rw [hcalls, hbuckets, hraise, if_neg (by simp [x]), Nat.add_zero]
    exact h.finished m

theorem window_cons_some {m : RouteMetrics} {c : Call} {rank : Rank} (h : rankOf m c = some rank) :
    window m (c ::ₘ rest) = rank ::ₘ window m rest := Multiset.filterMap_cons_some _ _ _ h

theorem window_cons_none {m : RouteMetrics} {c : Call} (h : rankOf m c = none) :
    window m (c ::ₘ rest) = window m rest := Multiset.filterMap_cons_none _ _ h

theorem Tallied.bucket {m₀ : RouteMetrics} {o : Observation} {i : ℕ}
    (h : Tallied cells (.bucket m₀ o ::ₘ rest) records) (hrecords : records < 2 ^ 64)
    (hi : i < 13) :
    let x := Cell.bucketCounts m₀ i
    Tallied (Function.update cells x (cells x + 1))
      (.duration m₀ o (some ⟨i, (cells x + 1).toNat⟩) ::ₘ rest) records := by
  intro x
  have hroom := h.room hrecords (x := x) rfl rfl
  have hraise := raise_toNat hroom
  have hx : (cells x + 1).toNat = (cells x).toNat + 1 := by
    have hself := hraise x
    rwa [Function.update_self, if_pos rfl] at hself
  rw [hx]
  have hbuckets : ∀ m j, bucketsOf (Function.update cells x (cells x + 1)) m j =
      bucketsOf cells m j + if m = m₀ ∧ j = i then 1 else 0 := by
    intro m j
    rw [bucketsOf, bucketsOf, hraise]
    simp only [x, Cell.bucketCounts.injEq]
  have hnumbered : ∀ m, ∀ rank ∈ numbered (bucketsOf cells m),
      rank ∈ numbered (bucketsOf (Function.update cells x (cells x + 1)) m) := by
    intro m rank hrank
    rw [mem_numbered] at hrank ⊢
    rw [hbuckets]
    omega
  have hfilter : ∀ m, window m (.bucket m₀ o ::ₘ rest) = window m rest := fun m =>
    window_cons_none rfl
  have hwindow : ∀ m, window m (.duration m₀ o (some ⟨i, (cells x).toNat + 1⟩) ::ₘ rest) =
      if m = m₀ then ⟨i, (cells x).toNat + 1⟩ ::ₘ window m rest else window m rest := by
    intro m
    by_cases hm : m = m₀
    · rw [if_pos hm, window_cons_some (by rw [rankOf, if_pos hm.symm])]
    · rw [if_neg hm, window_cons_none (by rw [rankOf, if_neg (Ne.symm hm)])]
  constructor
  · have hbounded := h.bounded_raise (x := x) hrecords rfl rfl
      (u := {.duration m₀ o (some ⟨i, (cells x).toNat + 1⟩)})
    rw [Multiset.singleton_add] at hbounded
    apply hbounded
    · rw [countP_singleton, if_neg (by simp [pending, stage])]
    · intro k
      rw [countP_singleton]
      simp only [pending, stage, Option.any_some, decide_eq_true_eq]
      split_ifs <;> omega
  · intro m
    have hstatuses := h.statuses m
    rw [Multiset.countP_cons] at hstatuses
    rw [hraise, if_neg (by simp [x]), Multiset.countP_cons]
    simp only [hraise, x, reduceCtorEq, if_false, Nat.add_zero]
    exact hstatuses
  · intro m
    have hnodup := h.nodup m
    rw [hfilter] at hnodup
    rw [hwindow]
    by_cases hm : m = m₀
    · rw [if_pos hm, Multiset.nodup_cons]
      refine ⟨?_, hnodup⟩
      intro hmem
      -- The updates so far have smaller numbers.
      have hrank := (mem_numbered.mp (h.ranked m _ (by rwa [hfilter]))).2.2
      rw [hm] at hrank
      simp only [bucketsOf, x] at hrank
      omega
    · rw [if_neg hm]
      exact hnodup
  · intro m rank hrank
    have hranked := h.ranked m rank
    rw [hfilter] at hranked
    rw [hwindow] at hrank
    by_cases hm : m = m₀
    · rw [if_pos hm, Multiset.mem_cons] at hrank
      rcases hrank with rfl | hrank
      · rw [mem_numbered, hbuckets, if_pos ⟨hm, rfl⟩, hm]
        exact ⟨hi, Nat.le_add_left _ _, Nat.le_refl _⟩
      · exact hnumbered m rank (hranked hrank)
    · rw [if_neg hm] at hrank
      exact hnumbered m rank (hranked hrank)
  · intro m
    have hfinished := h.finished m
    have hsum := sum_raise hi (bucketsOf cells m) (m = m₀)
    rw [hfilter, card_numbered] at hfinished
    rw [card_numbered, hwindow, hraise, if_neg (by simp [x])]
    simp only [hbuckets, hsum]
    by_cases hm : m = m₀
    · rw [if_pos hm, if_pos hm, Multiset.card_cons]
      omega
    · rw [if_neg hm, if_neg hm]
      omega

theorem Tallied.count {m₀ : RouteMetrics} {rank : Option Rank}
    (h : Tallied cells (.count m₀ rank ::ₘ rest) records) (hrecords : records < 2 ^ 64) :
    let x := Cell.requestCount m₀
    Tallied (Function.update cells x (cells x + 1)) rest records := by
  intro x
  have hraise := raise_toNat (h.room hrecords (x := x) rfl rfl)
  have hbuckets : ∀ m, bucketsOf (Function.update cells x (cells x + 1)) m = bucketsOf cells m := by
    intro m
    funext i
    rw [bucketsOf, bucketsOf, hraise, if_neg (by simp [x]), Nat.add_zero]
  have hle : ∀ m, window m rest ≤ window m (.count m₀ rank ::ₘ rest) := fun m =>
    Multiset.filterMap_le_filterMap _ (Multiset.le_cons_self _ _)
  constructor
  · have hbounded := h.bounded_raise (u := 0) (x := x) hrecords rfl rfl
    rw [Multiset.zero_add] at hbounded
    exact hbounded rfl fun k => Nat.zero_le _
  · intro m
    have hstatuses := h.statuses m
    rw [Multiset.countP_cons] at hstatuses
    rw [hraise]
    simp only [hraise, x, reduceCtorEq, if_false, Nat.add_zero, Cell.requestCount.injEq]
    rw [hstatuses]
    by_cases hm : m = m₀
    · simp [underWay, hm]
      omega
    · simp [underWay, hm, Ne.symm hm]
  · intro m
    exact Multiset.nodup_of_le (hle m) (h.nodup m)
  · intro m rank hrank
    rw [hbuckets]
    exact h.ranked m rank (Multiset.mem_of_le (hle m) hrank)
  · intro m
    have hfinished := h.finished m
    rw [hbuckets, hraise]
    by_cases hm : m = m₀
    · have hcard : (window m (.count m₀ rank ::ₘ rest)).card ≤ (window m rest).card + 1 := by
        cases hrank : rankOf m (.count m₀ rank) with
        | none => rw [window_cons_none hrank]; omega
        | some r => rw [window_cons_some hrank, Multiset.card_cons]
      rw [if_pos (by rw [hm])]
      omega
    · rw [window_cons_none (by rw [rankOf, if_neg (Ne.symm hm)])] at hfinished
      omega

theorem card_filter_window (m : RouteMetrics) {p : Rank → Prop} [DecidablePred p] {q : Call → Prop}
    [DecidablePred q] (hq : ∀ c rank, rankOf m c = some rank → p rank → q c)
    (calls : Multiset Call) : ((window m calls).filter p).card ≤ calls.countP q := by
  induction calls using Multiset.induction_on with
  | empty => exact Nat.zero_le _
  | cons c calls ih =>
    rw [Multiset.countP_cons]
    cases hrank : rankOf m c with
    | none =>
      rw [window_cons_none hrank]
      omega
    | some rank =>
      rw [window_cons_some hrank]
      by_cases hp : p rank
      · rw [Multiset.filter_cons_of_pos _ hp, Multiset.card_cons, if_pos (hq c rank hrank hp)]
        omega
      · rw [Multiset.filter_cons_of_neg _ hp]
        omega

theorem stage_of_rankOf {m : RouteMetrics} {c : Call} {rank : Rank} (h : rankOf m c = some rank) :
    stage c = some 2 := by
  cases c <;> first | rfl | cases h

theorem counted_of_rankOf {m : RouteMetrics} {loaded : List UInt64} {c : Call} {rank : Rank}
    (h : rankOf m c = some rank) (hrank : rank.2 ≤ (loaded.getD rank.1 0).toNat) :
    counted m loaded c := by
  cases c with
  | duration m' o r | count m' r =>
    rw [rankOf] at h
    split_ifs at h with hm
    subst h
    exact decide_eq_true ⟨hm, hrank⟩
  | _ => cases h

theorem total_eq_sum (loaded : List UInt64) :
    total loaded = ∑ i ∈ Finset.range loaded.length, (loaded.getD i 0).toNat := by
  induction loaded with
  | nil => rfl
  | cons n loaded ih =>
    rw [List.length_cons, Finset.sum_range_succ']
    simp only [List.getD_cons_succ, List.getD_cons_zero, ← ih]
    simp [total, Nat.add_comm]

def Loaded (cells : Cell → UInt64) (m : RouteMetrics) (loaded : List UInt64) : Prop :=
  ∀ i, (loaded.getD i 0).toNat ≤ bucketsOf cells m i

theorem Tallied.loaded {m : RouteMetrics} {loaded : List UInt64} (h : Tallied cells rest records)
    (hlength : loaded.length = 13) (hloaded : Loaded cells m loaded) :
    total loaded ≤ (cells (.requestCount m)).toNat + rest.countP (counted m loaded ·) ∧
      total loaded ≤ records := by
  let updates := numbered fun i => (loaded.getD i 0).toNat
  let underWay := (window m rest).toFinset
  have hcard : updates.card = total loaded := by
    rw [card_numbered, total_eq_sum, hlength]
  have hupdates : updates ⊆ numbered (bucketsOf cells m) := by
    intro rank hrank
    have hle := hloaded rank.1
    rw [mem_numbered] at hrank ⊢
    omega
  have hunderWay : underWay.card = (window m rest).card :=
    Multiset.toFinset_card_of_nodup (h.nodup m)
  have hfinished := h.finished m
  -- An update that was loaded belongs to a call that has finished, or is one of those under way.
  have hunion : (updates ∪ underWay).card ≤ (numbered (bucketsOf cells m)).card := by
    apply Finset.card_le_card
    apply Finset.union_subset hupdates
    intro rank hrank
    exact h.ranked m rank (Multiset.mem_toFinset.mp hrank)
  have hinter : (updates ∩ underWay).card ≤ rest.countP (counted m loaded ·) := by
    have hfilter : updates ∩ underWay = ((window m rest).filter (· ∈ updates)).toFinset := by
      ext rank
      simp [underWay, and_comm]
    rw [hfilter]
    apply (Multiset.toFinset_card_le _).trans
    apply card_filter_window
    intro c rank hrank hmem
    exact counted_of_rankOf hrank (mem_numbered.mp hmem).2.2
  have hpending : (window m rest).card ≤ rest.countP (pending 2 ·) := by
    have hle := card_filter_window m (p := fun _ => True) (q := (pending 2 ·))
      (fun c rank hrank _ => by simp [pending, stage_of_rankOf hrank]) rest
    rwa [Multiset.filter_true] at hle
  have hbounded := h.bounded (.requestCount m) 2 rfl
  have hsplit := Finset.card_union_add_card_inter updates underWay
  have hsubset := Finset.card_le_card hupdates
  omega

/-- The histograms that a render has, and the routes that it still goes through. -/
structure Partial (out : Scrape) (todo : List RouteMetrics) : Prop where
  consistent : ∀ h ∈ out.histograms, Consistent h
  routes : out.histograms.map Histogram.metrics ++ todo = out.statuses.map Prod.fst

def Readable (cells : Cell → UInt64) : Call → Prop
  | .loadStatus _ _ _ out => out.histograms = []
  | .loadBucket m todo loaded out =>
    loaded.length < 13 ∧ Loaded cells m loaded ∧ Partial out (m :: todo)
  | .loadCount m todo loaded out =>
    loaded.length = 13 ∧ Loaded cells m loaded ∧ Partial out (m :: todo)
  | .loadDuration m todo loaded requestCount behind out =>
    Consistent ⟨m, loaded, requestCount, 0, behind⟩ ∧ Partial out (m :: todo)
  | _ => True

structure Inv (s : State) : Prop where
  tallied : Tallied s.cells s.calls s.records
  readable : ∀ c ∈ s.calls, Readable s.cells c
  rendered : ∀ scrape ∈ s.rendered, Partial scrape []

theorem Loaded.mono {m : RouteMetrics} {loaded : List UInt64} (h : Loaded cells m loaded)
    (hcells : ∀ i, bucketsOf cells m i ≤ bucketsOf cells' m i) : Loaded cells' m loaded :=
  fun i => (h i).trans (hcells i)

theorem Loaded.snoc {m : RouteMetrics} {loaded : List UInt64} (h : Loaded cells m loaded) :
    Loaded cells m (loaded ++ [cells (.bucketCounts m loaded.length)]) := by
  intro i
  rcases lt_trichotomy i loaded.length with hlt | rfl | hgt
  · have hi := h i
    rwa [List.getD_eq_getElem?_getD, ← List.getElem?_append_left hlt] at hi
  · simp [bucketsOf]
  · rw [List.getD_eq_getElem?_getD, List.getElem?_eq_none (by simp; omega)]
    exact Nat.zero_le _

theorem Readable.mono {c : Call} (h : Readable cells c)
    (hcells : ∀ m i, bucketsOf cells m i ≤ bucketsOf cells' m i) : Readable cells' c := by
  cases c with
  | loadBucket m todo loaded out | loadCount m todo loaded out =>
    exact ⟨h.1, h.2.1.mono (hcells m), h.2.2⟩
  | loadStatus m todo loaded out => exact h
  | loadDuration m todo loaded requestCount behind out => exact h
  | _ => trivial

theorem not_underWay {c : Call} (hc : stage c = none) (m : RouteMetrics) :
    underWay m c = false := by
  cases c with
  | bucket | duration | count => cases hc
  | _ => rfl

theorem tallied_cons_iff {c : Call} (hc : stage c = none) :
    Tallied cells (c ::ₘ rest) records ↔ Tallied cells rest records := by
  have hrank : ∀ m, rankOf m c = none := by
    intro m
    cases c with
    | duration | count => cases hc
    | _ => rfl
  have hpending : ∀ k, (c ::ₘ rest).countP (pending k ·) = rest.countP (pending k ·) := fun k =>
    Multiset.countP_cons_of_neg _ (by simp [pending, hc])
  have hunderWay : ∀ m, (c ::ₘ rest).countP (underWay m ·) = rest.countP (underWay m ·) :=
    fun m => Multiset.countP_cons_of_neg _ (by simp [not_underWay hc])
  have hwindow : ∀ m, window m (c ::ₘ rest) = window m rest := fun m =>
    window_cons_none (hrank m)
  constructor
  · rintro ⟨hbounded, hstatuses, hnodup, hranked, hfinished⟩
    simp only [hpending, hunderWay, hwindow] at *
    exact ⟨hbounded, hstatuses, hnodup, hranked, hfinished⟩
  · rintro ⟨hbounded, hstatuses, hnodup, hranked, hfinished⟩
    constructor <;> simpa only [hpending, hunderWay, hwindow]

theorem step_call_iff {toNanoseconds : Double → UInt64} {s s' : State} {c : Call} :
    Step toNanoseconds s (.step c) s' ↔
      ∃ rest, s.calls = c ::ₘ rest ∧ perform toNanoseconds s rest c = s' := by
  rw [Step, next, advance_eq_some]
  simp only [Option.some.injEq]

namespace Inv

variable {s : State} {c : Call}

theorem cons (h : Inv { s with calls := rest }) (hc : stage c = none)
    (hreadable : Readable s.cells c) : Inv { s with calls := c ::ₘ rest } where
  tallied := (tallied_cons_iff hc).mpr h.tallied
  readable := Multiset.forall_mem_cons.mpr ⟨hreadable, h.readable⟩
  rendered := h.rendered

theorem others (h : Inv { s with calls := c ::ₘ rest }) (hc : stage c = none) :
    Inv { s with calls := rest } where
  tallied := (tallied_cons_iff hc).mp h.tallied
  readable := (Multiset.forall_mem_cons.mp h.readable).2
  rendered := h.rendered

theorem nextHistogram {out : Scrape} {todo : List RouteMetrics} (h : Inv { s with calls := rest })
    (hout : Partial out todo) : Inv (s.nextHistogram rest out todo) := by
  cases todo with
  | nil =>
    refine ⟨h.tallied, h.readable, ?_⟩
    intro scrape hscrape
    rcases List.mem_append.mp hscrape with hscrape | hscrape
    · exact h.rendered scrape hscrape
    · obtain rfl := List.mem_singleton.mp hscrape
      exact hout
  | cons m todo =>
    refine h.cons rfl ⟨by decide, ?_, hout⟩
    intro i
    exact Nat.zero_le _

theorem nextStatuses {out : Scrape} {todo : List RouteMetrics} (h : Inv { s with calls := rest })
    (hout : out.histograms = []) : Inv (s.nextStatuses rest out todo) := by
  cases todo with
  | nil =>
    apply h.nextHistogram
    constructor <;> simp [hout]
  | cons m todo => exact h.cons rfl hout

theorem move {cells' : Cell → UInt64} (h : Inv { s with calls := c ::ₘ rest })
    (htallied : Tallied cells' (u + rest) s.records) (hnew : ∀ c ∈ u, Readable cells' c)
    (hcells : ∀ m i, bucketsOf s.cells m i ≤ bucketsOf cells' m i) :
    Inv { s with cells := cells', calls := u + rest } := by
  refine ⟨htallied, ?_, h.rendered⟩
  intro c' hc'
  rcases Multiset.mem_add.mp hc' with hc' | hc'
  · exact hnew c' hc'
  · exact (h.readable c' (Multiset.mem_cons_of_mem hc')).mono hcells

theorem lookup {l : Lookup} (h : Inv { s with calls := c ::ₘ rest })
    (hc : c = .find l ∨ c = .register l)
    (hnew : u = {.register l} ∨ ∃ m, u = State.found l m) :
    Inv { s with calls := u + rest } := by
  have hstage : stage c = l.observation.map fun _ => 0 := by
    rcases hc with rfl | rfl <;> rfl
  have hold : ∀ m, underWay m c = false ∧ rankOf m c = none := by
    rcases hc with rfl | rfl <;> exact fun m => ⟨rfl, rfl⟩
  have hcalls : u = 0 ∨ ∃ c', u = {c'} ∧ stage c' = stage c ∧ Readable s.cells c' ∧
      ∀ m, underWay m c' = false ∧ rankOf m c' = none := by
    rcases hnew with rfl | ⟨m, rfl⟩
    · exact .inr ⟨_, rfl, hstage.symm, trivial, fun m => ⟨rfl, rfl⟩⟩
    · rw [hstage, State.found]
      cases l.observation with
      | none => exact .inl rfl
      | some o => exact .inr ⟨_, rfl, rfl, trivial, fun m => ⟨rfl, rfl⟩⟩
  apply h.move
  · apply h.tallied.quiet (t := {c}) (fun _ _ _ => rfl)
    · intro k
      rcases hcalls with rfl | ⟨c', rfl, hc', -, -⟩
      · exact Nat.zero_le _
      · rw [countP_singleton, countP_singleton, pending, pending, hc']
    · intro m
      rcases hcalls with rfl | ⟨c', rfl, -, -, hc'⟩
      · simp [countP_singleton, hold]
      · simp [countP_singleton, hold, hc']
    · intro m
      rcases hcalls with rfl | ⟨c', rfl, -, -, hc'⟩
      · exact (window_cons_none (hold m).2).symm
      · exact (window_cons_none (hc' m).2).trans (window_cons_none (hold m).2).symm
  · intro c' hc'
    rcases hcalls with rfl | ⟨c'', rfl, -, hreadable, -⟩
    · cases Multiset.notMem_zero _ hc'
    · obtain rfl := Multiset.mem_singleton.mp hc'
      exact hreadable
  · exact fun m i => Nat.le_refl _

theorem raise {x : Cell} (h : Inv { s with calls := c ::ₘ rest })
    (hroom : (s.cells x).toNat + 1 < 2 ^ 64)
    (htallied : Tallied (s.add x 1) (u + rest) s.records)
    (hnew : ∀ c ∈ u, Readable (s.add x 1) c) :
    Inv { s with cells := s.add x 1, calls := u + rest } := by
  apply h.move htallied hnew
  intro m i
  rw [bucketsOf, bucketsOf, State.add, raise_toNat hroom]
  exact Nat.le_add_right _ _

theorem perform (toNanoseconds : Double → UInt64) (h : Inv { s with calls := c ::ₘ rest })
    (hrecords : s.records < 2 ^ 64) : Inv (perform toNanoseconds s rest c) := by
  cases c with
  | find l =>
    simp only [HttpMetrics.perform]
    cases s.routes.find? (makeKey l.method l.route) with
    | some m => exact h.lookup (.inl rfl) (.inr ⟨m, rfl⟩)
    | none => exact h.lookup (.inl rfl) (.inl rfl)
  | register l =>
    simp only [HttpMetrics.perform]
    cases s.routes.find? (makeKey l.method l.route) with
    | some m => exact h.lookup (.inr rfl) (.inr ⟨m, rfl⟩)
    | none =>
      obtain ⟨htallied, hreadable, hrendered⟩ := h.lookup (.inr rfl)
        (.inr ⟨⟨methodToString l.method, l.route⟩, rfl⟩)
      exact ⟨htallied, hreadable, hrendered⟩
  | status m o =>
    apply h.raise (h.tallied.room hrecords rfl rfl) (u := {.bucket m o})
    · exact h.tallied.status hrecords
    · simp [Readable]
  | bucket m o =>
    simp only [HttpMetrics.perform]
    cases hi : bucketIndex o.durationSeconds with
    | some i =>
      apply h.raise (h.tallied.room hrecords rfl rfl) (u := {.duration m o _})
      · exact h.tallied.bucket hrecords (bucketIndex_lt hi)
      · simp [Readable]
    | none =>
      apply h.move (u := {.duration m o none})
      · apply h.tallied.quiet (t := {.bucket m o}) (fun _ _ _ => rfl)
        · intro k
          rw [countP_singleton, countP_singleton]
          simp only [pending, stage, Option.any_some, decide_eq_true_eq]
          split_ifs <;> omega
        · exact fun m' => rfl
        · intro m'
          exact window_cons_none (by simp [rankOf])
      · simp [Readable]
      · exact fun m i => Nat.le_refl _
  | duration m o rank =>
    apply h.move (u := {.count m rank})
    · apply h.tallied.quiet (t := {.duration m o rank})
      · intro x k hx
        apply Function.update_of_ne
        rintro rfl
        cases hx
      · exact fun k => Nat.le_refl _
      · exact fun m' => rfl
      · exact fun m' => rfl
    · simp [Readable]
    · exact fun m i => Nat.le_refl _
  | count m rank =>
    have hraise := h.raise (h.tallied.room hrecords (x := .requestCount m) rfl rfl) (u := 0)
    rw [Multiset.zero_add] at hraise
    exact hraise (h.tallied.count hrecords) (by simp)
  | snapshot => exact (h.others rfl).nextStatuses rfl
  | loadStatus m todo loaded out =>
    have hout : out.histograms = [] := h.readable _ (Multiset.mem_cons_self _ _)
    simp only [HttpMetrics.perform]
    split_ifs
    · exact (h.others rfl).cons rfl hout
    · exact (h.others rfl).nextStatuses hout
  | loadBucket m todo loaded out =>
    obtain ⟨hlength, hloaded, hout⟩ := h.readable _ (Multiset.mem_cons_self _ _)
    have hlength' : (loaded ++ [s.cells (.bucketCounts m loaded.length)]).length =
        loaded.length + 1 := List.length_append
    simp only [HttpMetrics.perform]
    split_ifs with hlt
    · exact (h.others rfl).cons rfl ⟨hlt, hloaded.snoc, hout⟩
    · exact (h.others rfl).cons rfl ⟨by omega, hloaded.snoc, hout⟩
  | loadCount m todo loaded out =>
    obtain ⟨hlength, hloaded, hout⟩ := h.readable _ (Multiset.mem_cons_self _ _)
    have hothers := h.others rfl
    obtain ⟨hbehind, htotal⟩ := hothers.tallied.loaded hlength hloaded
    exact hothers.cons rfl ⟨⟨hlength, hbehind, htotal.trans_lt hrecords⟩, hout⟩
  | loadDuration m todo loaded requestCount behind out =>
    obtain ⟨⟨hlength, hbehind, hbounded⟩, hout⟩ := h.readable _ (Multiset.mem_cons_self _ _)
    apply (h.others rfl).nextHistogram
    constructor
    · intro h' hh'
      rcases List.mem_append.mp hh' with hh' | hh'
      · exact hout.consistent h' hh'
      · obtain rfl := List.mem_singleton.mp hh'
        exact ⟨hlength, hbehind, hbounded⟩
    · rw [← hout.routes]
      simp

theorem step {toNanoseconds : Double → UInt64} {s s' : State} {e : Event}
    (h : Step toNanoseconds s e s') (hinv : Inv s) (hrecords : s.records < 2 ^ 64) : Inv s' := by
  cases e with
  | record method route o =>
    obtain rfl := Option.some.inj h
    refine ⟨hinv.tallied.begin (fun _ => rfl) (fun _ => rfl), ?_, hinv.rendered⟩
    exact Multiset.forall_mem_cons.mpr ⟨trivial, hinv.readable⟩
  | registerRoute method route =>
    obtain rfl := Option.some.inj h
    exact Inv.cons (s := s) hinv rfl trivial
  | render =>
    obtain rfl := Option.some.inj h
    exact Inv.cons (s := s) hinv rfl trivial
  | step c =>
    obtain ⟨rest, hcalls, rfl⟩ := step_call_iff.mp h
    apply Inv.perform toNanoseconds _ hrecords
    rw [← hcalls]
    exact hinv

end Inv

def isRecord : Event → Bool
  | .record _ _ _ => true
  | _ => false

theorem perform_records (toNanoseconds : Double → UInt64) (s : State) (rest : Multiset Call)
    (c : Call) : (perform toNanoseconds s rest c).records = s.records := by
  have hnextHistogram : ∀ out todo, (s.nextHistogram rest out todo).records = s.records := by
    rintro out (_ | ⟨m, todo⟩) <;> rfl
  have hnextStatuses : ∀ out todo, (s.nextStatuses rest out todo).records = s.records := by
    rintro out (_ | ⟨m, todo⟩)
    · exact hnextHistogram _ _
    · rfl
  cases c with
  | find l | register l =>
    simp only [perform]
    split <;> rfl
  | bucket m o =>
    simp only [perform]
    split <;> rfl
  | snapshot => exact hnextStatuses _ _
  | loadStatus m todo loaded out =>
    simp only [perform]
    split_ifs
    · rfl
    · exact hnextStatuses _ _
  | loadBucket m todo loaded out =>
    simp only [perform]
    split_ifs <;> rfl
  | loadDuration m todo loaded requestCount behind out => exact hnextHistogram _ _
  | _ => rfl

theorem step_records {toNanoseconds : Double → UInt64} {s s' : State} {e : Event}
    (h : Step toNanoseconds s e s') : s'.records = s.records + if isRecord e then 1 else 0 := by
  cases e with
  | step c =>
    obtain ⟨rest, -, rfl⟩ := step_call_iff.mp h
    exact perform_records toNanoseconds s rest c
  | _ =>
    obtain rfl := Option.some.inj h
    rfl

theorem run_records {toNanoseconds : Double → UInt64} {start s : State} {events : List Event}
    (h : Run (Step toNanoseconds) start events s) :
    s.records = start.records + events.countP isRecord := by
  induction h with
  | start => rfl
  | snoc _ hlast ih =>
    rw [step_records hlast, ih, List.countP_append, List.countP_singleton, Nat.add_assoc]

theorem inv_initial : Inv initial := by
  have hnumbered : ∀ m, numbered (bucketsOf initial.cells m) = ∅ := by
    intro m
    ext rank
    simp [mem_numbered, bucketsOf, initial]
    omega
  constructor
  · constructor
    · simp [initial]
    · simp [initial]
    · simp [initial, window]
    · simp [initial, window]
    · simp [hnumbered]
  · simp [initial]
  · simp [initial]

theorem Inv.run {toNanoseconds : Double → UInt64} {start s : State} {events : List Event}
    (h : Run (Step toNanoseconds) start events s) (hstart : Inv start)
    (hrecords : s.records < 2 ^ 64) : Inv s := by
  induction h with
  | start => exact hstart
  | snoc _ hlast ih =>
    rw [step_records hlast] at hrecords
    exact (ih (by omega)).step hlast (by omega)

end HttpHistograms
