import HaoShortLink.AccessStatisticsReader

/-! What the reader answers where the tables hold the events of a set. -/
namespace StatisticsAnswers

open Cpp StatisticsSchema AccessStatistics AccessStatisticsReader Histories OrderedMaps
open AccessEvents (AccessEvent AccessEventResult accessEventResultToString)

def ofResult (S : Finset AccessEvent) (r : AccessEventResult) : Finset AccessEvent :=
  S.filter (·.result = r)

def between (S : Finset AccessEvent) (fromEpochSeconds toEpochSeconds : ℤ) : Finset AccessEvent :=
  S.filter fun e => fromEpochSeconds * 1000 ≤ e.occurredAtMs ∧
    e.occurredAtMs < toEpochSeconds * 1000

def Latest (S : Finset AccessEvent) : Option ℤ → Prop
  | none => S = ∅
  | some t => (∃ e ∈ S, e.occurredAtMs = t) ∧ ∀ e ∈ S, e.occurredAtMs ≤ t

/-- A summary tells the events of a set. -/
structure Summarizes (S : Finset AccessEvent) (s : AccessStatisticsSummary) : Prop where
  counts : ∀ r i, accessStatisticsResultIndex r = some i → s.resultCounts i = (ofResult S r).card
  lastAccess : Latest (ofResult S .success) s.lastAccessAtMs
  lastAttempt : Latest S s.lastAttemptAtMs

/-- A trend tells the events of a set, point by point. -/
structure Charts (S : Finset AccessEvent) (query : AccessStatisticsQuery)
    (trend : List AccessStatisticsTrendPoint) : Prop where
  increasing : trend.Pairwise fun p q => p.bucketStartEpochSeconds < q.bucketStartEpochSeconds
  aligned : ∀ p ∈ trend,
    p.bucketStartEpochSeconds % accessStatisticsBucketSeconds query.interval = 0
  inside : ∀ p ∈ trend, query.fromEpochSeconds ≤ p.bucketStartEpochSeconds ∧
    p.bucketStartEpochSeconds < query.toEpochSeconds
  nonzero : ∀ p ∈ trend, ∃ i, p.resultCounts i ≠ 0
  counts : ∀ p ∈ trend, ∀ r i, accessStatisticsResultIndex r = some i →
    p.resultCounts i = (between (ofResult S r) p.bucketStartEpochSeconds
      (p.bucketStartEpochSeconds + accessStatisticsBucketSeconds query.interval)).card
  complete : ∀ e ∈ between S query.fromEpochSeconds query.toEpochSeconds, ∃ p ∈ trend,
    e ∈ between S p.bucketStartEpochSeconds
      (p.bucketStartEpochSeconds + accessStatisticsBucketSeconds query.interval)

section Summary

variable {S T R : Finset AccessEvent} {s : AccessStatisticsSummary} {r : AccessEventResult}

theorem latest_union {o : Option ℤ} {t : ℤ} (hT : Latest T o) (hR : Latest R (some t)) :
    Latest (T ∪ R) (if o.all (· < t) then some t else o) := by
  obtain ⟨⟨e, he, het⟩, hle⟩ := hR
  cases o with
  | none =>
    obtain rfl : T = ∅ := hT
    exact ⟨⟨e, Finset.mem_union_right _ he, het⟩, by simpa using hle⟩
  | some u =>
    obtain ⟨⟨f, hf, hfu⟩, hleu⟩ := hT
    by_cases hlt : u < t
    · rw [if_pos (by simpa using hlt)]
      refine ⟨⟨e, Finset.mem_union_right _ he, het⟩, ?_⟩
      intro g hg
      rcases Finset.mem_union.mp hg with hg | hg
      · exact (hleu g hg).trans hlt.le
      · exact hle g hg
    · rw [if_neg (by simpa using hlt)]
      refine ⟨⟨f, Finset.mem_union_left _ hf, hfu⟩, ?_⟩
      intro g hg
      rcases Finset.mem_union.mp hg with hg | hg
      · exact hleu g hg
      · exact (hle g hg).trans (not_lt.mp hlt)

theorem latest_of_summary {row : TotalsRow} (h : summary R = some row) :
    Latest R (some row.lastOccurredAtMs) := by
  unfold summary at h
  split at h
  · next hR =>
    obtain rfl := Option.some.inj h
    obtain ⟨e, he, hmax⟩ := Finset.exists_mem_eq_sup' hR AccessEvent.occurredAtMs
    exact ⟨⟨e, he, hmax.symm⟩, fun f hf => Finset.le_sup' AccessEvent.occurredAtMs hf⟩
  · cases h

theorem card_of_summary {row : TotalsRow} (h : summary R = some row) :
    row.accessCount = R.card := by
  unfold summary at h
  split at h
  · rw [← Option.some.inj h]
  · cases h

theorem ofResult_union (T R : Finset AccessEvent) (r : AccessEventResult) :
    ofResult (T ∪ R) r = ofResult T r ∪ ofResult R r := Finset.filter_union ..

theorem ofResult_self (h : ∀ e ∈ R, e.result = r) : ofResult R r = R :=
  Finset.filter_true_of_mem h

theorem ofResult_empty (h : ∀ e ∈ R, e.result ≠ r) : ofResult R r = ∅ :=
  Finset.filter_false_of_mem h

theorem readTotal_summarizes {i : Fin kAccessStatisticsResultCount} {row : TotalsRow}
    (hs : Summarizes T s) (hi : accessStatisticsResultIndex r = some i)
    (hT : ∀ e ∈ T, e.result ≠ r) (hR : ∀ e ∈ R, e.result = r) (hrow : summary R = some row) :
    ∃ s', readTotal s (accessEventResultToString r, row) = .ok s' ∧ Summarizes (T ∪ R) s' := by
  refine ⟨_, by simp only [readTotal, resultIndex_toString hi]; rfl, ?_, ?_, ?_⟩
  · intro r' i' hi'
    rw [ofResult_union]
    dsimp only
    by_cases heq : r' = r
    · subst heq
      obtain rfl := Option.some.inj (hi'.symm.trans hi)
      rw [ofResult_empty hT, ofResult_self hR, Finset.empty_union, Function.update_self,
        card_of_summary hrow]
    · have hne : i' ≠ i := by
        rintro rfl
        exact heq (accessStatisticsResultIndex_injective hi' hi)
      rw [ofResult_empty (R := R) fun e he => hR e he ▸ Ne.symm heq, Finset.union_empty,
        Function.update_of_ne hne, hs.counts r' i' hi']
  · rw [ofResult_union]
    by_cases heq : i = 0
    · subst heq
      obtain rfl := accessStatisticsResultIndex_injective hi
        (show accessStatisticsResultIndex .success = some 0 from rfl)
      rw [if_pos rfl, ofResult_empty hT, ofResult_self hR, Finset.empty_union]
      exact latest_of_summary hrow
    · have hne : r ≠ .success := by
        rintro rfl
        exact heq (Option.some.inj hi).symm
      rw [if_neg heq, ofResult_empty (R := R) fun e he => hR e he ▸ hne, Finset.union_empty]
      exact hs.lastAccess
  · exact latest_union hs.lastAttempt (latest_of_summary hrow)

theorem summarizes_empty : Summarizes ∅ ⟨fun _ => 0, none, none⟩ :=
  ⟨fun _ _ _ => rfl, rfl, rfl⟩

end Summary

def tally (S : Finset AccessEvent) : Option ℕ := if S.Nonempty then some S.card else none

/-- The tables hold these events of a link and nothing else of it. -/
structure Shows (d : Db) (shortLinkId : ℕ) (S : Finset AccessEvent) : Prop where
  aggregated : ∀ e ∈ S, e.result ≠ .notFound ∧ 0 < e.occurredAtMs
  totals : ∀ r, d.totals (shortLinkId, accessEventResultToString r) = summary (ofResult S r)
  hourly : ∀ b r, d.hourly (shortLinkId, b, accessEventResultToString r) =
    tally ((ofResult S r).filter (inBucket b ·))

theorem tally_spec {S : Finset AccessEvent} {n : ℕ} :
    tally S = some n ↔ S.Nonempty ∧ n = S.card := by
  unfold tally
  split
  · next h => simp [h, eq_comm]
  · next h => simp [h]

section Tables

variable {S R : Finset AccessEvent} {d : Db} {shortLinkId : ℕ} {e : AccessEvent} {b : ℤ}
  {processed : Bytes → Option ProcessedRow}

theorem tally_insert {S : Finset AccessEvent} {e : AccessEvent} (h : e ∉ S) :
    tally (insert e S) = some (hourlyUpsert (tally S)) := by
  rw [tally, if_pos (Finset.insert_nonempty e S), Finset.card_insert_of_notMem h]
  by_cases hS : S.Nonempty
  · simp [tally, hS, hourlyUpsert]
  · simp [tally, hourlyUpsert, Finset.not_nonempty_iff_eq_empty.mp hS]

theorem ofResult_insert (e : AccessEvent) (S : Finset AccessEvent) (r : AccessEventResult) :
    ofResult (insert e S) r = if e.result = r then insert e (ofResult S r) else ofResult S r :=
  Finset.filter_insert ..

theorem shows_insert (h : Shows d shortLinkId S) (he : e ∉ S) (hr : e.result ≠ .notFound)
    (hb : utcHourBucketStartEpochSeconds e.occurredAtMs = .ok b) :
    Shows { d with
      processed := processed
      totals := Function.update d.totals (shortLinkId, accessEventResultToString e.result)
        (some (TotalsRow.upsert (d.totals (shortLinkId, accessEventResultToString e.result))
          e.occurredAtMs e.occurredAtMs))
      hourly := Function.update d.hourly (shortLinkId, b, accessEventResultToString e.result)
        (some (hourlyUpsert
          (d.hourly (shortLinkId, b, accessEventResultToString e.result)))) }
      shortLinkId (insert e S) := by
  have hnew : e ∉ ofResult S e.result := fun hmem => he (Finset.mem_filter.mp hmem).1
  have hin : ∀ b', inBucket b' e = true ↔ b = b' := by
    intro b'
    simp [inBucket, hb]
  constructor
  · intro f hf
    rcases Finset.mem_insert.mp hf with rfl | hf
    · refine ⟨hr, ?_⟩
      unfold utcHourBucketStartEpochSeconds at hb
      split at hb
      · cases hb
      · next hpos => exact not_le.mp hpos
    · exact h.aggregated f hf
  · intro r
    rw [ofResult_insert]
    dsimp only
    by_cases heq : e.result = r
    · subst heq
      rw [if_pos rfl, Function.update_self, summary_insert hnew, h.totals]
    · have hkey : (shortLinkId, accessEventResultToString r) ≠
          (shortLinkId, accessEventResultToString e.result) := by
        intro hkey
        exact heq (AccessEvents.accessEventResultToString_injective (Prod.mk.inj hkey).2).symm
      rw [if_neg heq, Function.update_of_ne hkey, h.totals]
  · intro b' r
    rw [ofResult_insert]
    dsimp only
    by_cases hkey : e.result = r ∧ b = b'
    · obtain ⟨rfl, rfl⟩ := hkey
      rw [if_pos rfl, Function.update_self, Finset.filter_insert, if_pos ((hin b).mpr rfl),
        tally_insert fun hmem => hnew (Finset.mem_filter.mp hmem).1, h.hourly]
    · have hne : (shortLinkId, b', accessEventResultToString r) ≠
          (shortLinkId, b, accessEventResultToString e.result) := by
        intro hne
        obtain ⟨-, hne⟩ := Prod.mk.inj hne
        obtain ⟨hb', hr'⟩ := Prod.mk.inj hne
        exact hkey ⟨(AccessEvents.accessEventResultToString_injective hr').symm, hb'.symm⟩
      rw [Function.update_of_ne hne, h.hourly]
      by_cases heq : e.result = r
      · rw [if_pos heq, Finset.filter_insert,
          if_neg fun hmem => hkey ⟨heq, (hin b').mp hmem⟩]
      · rw [if_neg heq]

theorem shows_other {k : ℕ} {r : Bytes} {row : TotalsRow} {count : ℕ}
    (h : Shows d shortLinkId S) (hk : shortLinkId ≠ k) :
    Shows { d with
      processed := processed
      totals := Function.update d.totals (k, r) (some row)
      hourly := Function.update d.hourly (k, b, r) (some count) } shortLinkId S := by
  refine ⟨h.aggregated, fun r' => ?_, fun b' r' => ?_⟩
  · rw [← h.totals]
    exact Function.update_of_ne (fun hkey => hk (Prod.mk.inj hkey).1) _ _
  · rw [← h.hourly]
    exact Function.update_of_ne (fun hkey => hk (Prod.mk.inj hkey).1) _ _

end Tables

section Trend

variable {S T R : Finset AccessEvent} {d : Db} {shortLinkId : ℕ} {query : AccessStatisticsQuery}
  {r : AccessEventResult} {b : ℤ}

/-- The events that one row of the trend counts. -/
def inInterval (S : Finset AccessEvent) (interval : AccessStatisticsInterval) (b : ℤ) :
    Finset AccessEvent :=
  S.filter fun e => bucketExpression interval (hourOf e.occurredAtMs) = b

theorem sum_tally (hours : List ℤ) (part : ℤ → Finset AccessEvent) :
    (hours.filterMap fun b => tally (part b)).sum = (hours.map fun b => (part b).card).sum := by
  induction hours with
  | nil => rfl
  | cons b hours ih =>
    rw [List.filterMap_cons, List.map_cons, List.sum_cons, ← ih]
    by_cases h : (part b).Nonempty
    · simp [tally, h]
    · simp [tally, Finset.not_nonempty_iff_eq_empty.mp h]

theorem group_eq (h : Shows d shortLinkId S) (query : AccessStatisticsQuery) (b : ℤ)
    (r : AccessEventResult) :
    group d shortLinkId query b (accessEventResultToString r) =
      ((bucketStarts query.fromEpochSeconds query.toEpochSeconds).filter
        (bucketExpression query.interval · = b)).filterMap fun hour =>
          tally ((ofResult S r).filter (hourOf ·.occurredAtMs = hour)) := by
  unfold group
  congr 1
  funext hour
  rw [h.hourly]
  congr 1
  apply Finset.filter_congr
  intro e he
  exact inBucket_iff (h.aggregated e (Finset.mem_filter.mp he).1).2

theorem sum_group (h : Shows d shortLinkId S) (hq : isValidAccessStatisticsQuery query = true)
    (hb : query.fromEpochSeconds ≤ b ∧ b < query.toEpochSeconds) :
    (group d shortLinkId query b (accessEventResultToString r)).sum =
      (inInterval (ofResult S r) query.interval b).card := by
  rw [group_eq h, sum_tally, ← List.sum_toFinset _ ((bucketStarts_nodup _ _).filter _)]
  symm
  have hhours : ∀ e ∈ inInterval (ofResult S r) query.interval b, hourOf e.occurredAtMs ∈
      ((bucketStarts query.fromEpochSeconds query.toEpochSeconds).filter
        (bucketExpression query.interval · = b)).toFinset := by
    intro e he
    have heb := (Finset.mem_filter.mp he).2
    have haligned : hourOf e.occurredAtMs % 3600 = 0 := by simp [hourOf]
    have hrange := (bucketExpression_range hq haligned).mp (heb ▸ hb)
    rw [List.mem_toFinset, List.mem_filter]
    exact ⟨mem_bucketStarts.mpr ⟨hrange.1, hrange.2, haligned⟩, by simpa using heb⟩
  rw [Finset.card_eq_sum_card_fiberwise hhours]
  apply Finset.sum_congr rfl
  intro hour hhour
  have hexpr : bucketExpression query.interval hour = b := by
    simpa using (List.mem_filter.mp (List.mem_toFinset.mp hhour)).2
  congr 1
  ext e
  simp only [inInterval, Finset.mem_filter]
  constructor
  · rintro ⟨⟨hS, -⟩, rfl⟩
    exact ⟨hS, rfl⟩
  · rintro ⟨hS, rfl⟩
    exact ⟨⟨hS, hexpr⟩, rfl⟩

theorem group_eq_nil (h : Shows d shortLinkId S) (hq : isValidAccessStatisticsQuery query = true)
    (hb : query.fromEpochSeconds ≤ b ∧ b < query.toEpochSeconds) :
    group d shortLinkId query b (accessEventResultToString r) = [] ↔
      inInterval (ofResult S r) query.interval b = ∅ := by
  rw [← Finset.card_eq_zero, ← sum_group h hq hb, List.sum_eq_zero_iff_forall_eq_nat]
  constructor
  · intro hnil
    simp [hnil]
  · intro hzero
    -- a count that a row holds is not zero
    apply List.eq_nil_iff_forall_not_mem.mpr
    intro n hn
    rw [hzero n hn, group_eq h] at hn
    obtain ⟨hour, -, htally⟩ := List.mem_filterMap.mp hn
    obtain ⟨hne, hcard⟩ := tally_spec.mp htally
    exact hne.card_pos.ne hcard

theorem mem_intervals (hq : isValidAccessStatisticsQuery query = true) :
    b ∈ ((bucketStarts query.fromEpochSeconds query.toEpochSeconds).map
        (bucketExpression query.interval)).dedup ↔
      b % accessStatisticsBucketSeconds query.interval = 0 ∧
        query.fromEpochSeconds ≤ b ∧ b < query.toEpochSeconds := by
  rw [List.mem_dedup, List.mem_map]
  constructor
  · rintro ⟨hour, hhour, rfl⟩
    obtain ⟨hfrom, hto, haligned⟩ := mem_bucketStarts.mp hhour
    exact ⟨bucketExpression_aligned _ haligned,
      (bucketExpression_range hq haligned).mpr ⟨hfrom, hto⟩⟩
  · rintro ⟨haligned, hfrom, hto⟩
    have hself : bucketExpression query.interval b = b ∧ b % 3600 = 0 := by
      generalize query.interval = interval at haligned ⊢
      constructor <;> cases interval <;>
        simp only [bucketExpression, accessStatisticsBucketSeconds] at haligned ⊢ <;> omega
    exact ⟨b, mem_bucketStarts.mpr ⟨hfrom, hto, hself.2⟩, hself.1⟩

theorem groupRow_eq_some (h : Shows d shortLinkId S)
    (hq : isValidAccessStatisticsQuery query = true)
    (hb : query.fromEpochSeconds ≤ b ∧ b < query.toEpochSeconds) {row : TrendRow} :
    groupRow d shortLinkId query b (accessEventResultToString r) = some row ↔
      (inInterval (ofResult S r) query.interval b).Nonempty ∧
        ⟨b, accessEventResultToString r,
          (inInterval (ofResult S r) query.interval b).card⟩ = row := by
  rw [groupRow, ← sum_group h hq hb, Finset.nonempty_iff_ne_empty, ne_eq, ← group_eq_nil h hq hb]
  split
  · next hnil => simp [hnil]
  · next hne => exact Option.some_inj.trans (and_iff_right hne).symm

theorem mem_selectTrend (h : Shows d shortLinkId S)
    (hq : isValidAccessStatisticsQuery query = true) {row : TrendRow} :
    row ∈ selectTrend d shortLinkId query ↔
      row.bucketStart % accessStatisticsBucketSeconds query.interval = 0 ∧
      query.fromEpochSeconds ≤ row.bucketStart ∧ row.bucketStart < query.toEpochSeconds ∧
      ∃ r, accessEventResultToString r = row.result ∧
        (inInterval (ofResult S r) query.interval row.bucketStart).Nonempty ∧
        row.resultCount = (inInterval (ofResult S r) query.interval row.bucketStart).card := by
  simp only [selectTrend, List.mem_flatMap, List.mem_filterMap, statisticsResults_spec]
  constructor
  · rintro ⟨b, hb, -, ⟨r, -, rfl⟩, hrow⟩
    obtain ⟨haligned, hrange⟩ := (mem_intervals hq).mp hb
    obtain ⟨hne, rfl⟩ := (groupRow_eq_some h hq hrange).mp hrow
    exact ⟨haligned, hrange.1, hrange.2, r, rfl, hne, rfl⟩
  · rintro ⟨haligned, hfrom, hto, r, hr, hne, hcount⟩
    have hresult : r ≠ .notFound := by
      rintro rfl
      obtain ⟨e, he⟩ := hne
      obtain ⟨hS, hnf⟩ := Finset.mem_filter.mp (Finset.mem_filter.mp he).1
      exact (h.aggregated e hS).1 hnf
    refine ⟨row.bucketStart, (mem_intervals hq).mpr ⟨haligned, hfrom, hto⟩, _,
      ⟨r, hresult, rfl⟩, (groupRow_eq_some h hq ⟨hfrom, hto⟩).mpr ⟨hne, ?_⟩⟩
    rw [← hcount, hr]

theorem groupRow_key {d : Db} {result : Bytes} {row : TrendRow}
    (hrow : groupRow d shortLinkId query b result = some row) :
    row.bucketStart = b ∧ row.result = result := by
  rw [groupRow] at hrow
  split at hrow
  · cases hrow
  · rw [← Option.some.inj hrow]
    exact ⟨rfl, rfl⟩

theorem selectTrend_pairwise (d : Db) (shortLinkId : ℕ) (query : AccessStatisticsQuery) :
    (selectTrend d shortLinkId query).Pairwise fun p q =>
      p.bucketStart ≠ q.bucketStart ∨ p.result ≠ q.result := by
  apply List.pairwise_flatMap.mpr
  constructor
  · intro b _
    apply List.Pairwise.filterMap _ _ statisticsResults_nodup
    intro result result' hne row hrow row' hrow'
    rw [(groupRow_key hrow).2, (groupRow_key hrow').2]
    exact .inr hne
  · apply (List.nodup_dedup _).imp
    intro b b' hne row hrow row' hrow'
    obtain ⟨result, -, hrow⟩ := List.mem_filterMap.mp hrow
    obtain ⟨result', -, hrow'⟩ := List.mem_filterMap.mp hrow'
    rw [(groupRow_key hrow).1, (groupRow_key hrow').1]
    exact .inl hne

def Collects (S : Finset AccessEvent) (interval : AccessStatisticsInterval) (trend : Trend) :
    Prop :=
  ∀ b, ((trend.find? b).isSome ↔ (inInterval S interval b).Nonempty) ∧
    ∀ r i, accessStatisticsResultIndex r = some i →
      ((trend.find? b).getD fun _ => 0) i = (inInterval (ofResult S r) interval b).card

theorem inInterval_union (T R : Finset AccessEvent) (interval : AccessStatisticsInterval)
    (b : ℤ) : inInterval (T ∪ R) interval b = inInterval T interval b ∪ inInterval R interval b :=
  Finset.filter_union ..

theorem readTrend_collects {interval : AccessStatisticsInterval} {trend : Trend} {row : TrendRow}
    {i : Fin kAccessStatisticsResultCount} (ht : Collects T interval trend)
    (hi : accessStatisticsResultIndex r = some i) (hr : accessEventResultToString r = row.result)
    (hT : inInterval (ofResult T r) interval row.bucketStart = ∅)
    (hR : ∀ e ∈ R, e.result = r ∧
      bucketExpression interval (hourOf e.occurredAtMs) = row.bucketStart)
    (hne : R.Nonempty) (hcount : row.resultCount = R.card) :
    ∃ trend', readTrend trend row = .ok trend' ∧ Collects (T ∪ R) interval trend' := by
  have hall : inInterval R interval row.bucketStart = R :=
    Finset.filter_true_of_mem fun e he => (hR e he).2
  have hnone : ∀ {b}, b ≠ row.bucketStart → inInterval R interval b = ∅ := by
    intro b hb
    apply Finset.filter_false_of_mem
    intro e he heb
    exact hb (heb.symm.trans (hR e he).2)
  refine ⟨_, by simp only [readTrend, ← hr, resultIndex_toString hi]; rfl, ?_⟩
  intro b
  rw [OrderedMap.find?_insert]
  by_cases hb : b = row.bucketStart
  · subst hb
    rw [if_pos rfl]
    refine ⟨?_, fun r' i' hi' => ?_⟩
    · rw [inInterval_union, hall]
      simpa using hne.mono Finset.subset_union_right
    · rw [ofResult_union, inInterval_union, Option.getD_some]
      by_cases heq : r' = r
      · subst heq
        obtain rfl := Option.some.inj (hi'.symm.trans hi)
        rw [hT, ofResult_self fun e he => (hR e he).1, hall, Finset.empty_union,
          Function.update_self, hcount]
      · have hne' : i' ≠ i := by
          rintro rfl
          exact heq (accessStatisticsResultIndex_injective hi' hi)
        rw [ofResult_empty (R := R) fun e he => (hR e he).1 ▸ Ne.symm heq,
          Function.update_of_ne hne', (ht _).2 r' i' hi']
        simp [inInterval]
  · rw [if_neg hb, inInterval_union, hnone hb, Finset.union_empty]
    refine ⟨(ht b).1, ?_⟩
    intro r' i' hi'
    have hsub : inInterval (ofResult R r') interval b = ∅ := by
      apply Finset.subset_empty.mp
      exact (Finset.filter_subset_filter _ (Finset.filter_subset _ _)).trans (hnone hb).subset
    rw [ofResult_union, inInterval_union, hsub, Finset.union_empty]
    exact (ht b).2 r' i' hi'

theorem collects_empty (interval : AccessStatisticsInterval) :
    Collects ∅ interval .empty := by
  intro b
  exact ⟨by simp [OrderedMap.empty, OrderedMap.find?, findEntry, inInterval], fun _ _ _ => rfl⟩

end Trend

section Answer

variable {S T : Finset AccessEvent} {d : Db} {shortLinkId : ℕ} {query : AccessStatisticsQuery}

def named (S : Finset AccessEvent) (result : Bytes) : Finset AccessEvent :=
  S.filter (accessEventResultToString ·.result = result)

theorem named_toString (S : Finset AccessEvent) (r : AccessEventResult) :
    named S (accessEventResultToString r) = ofResult S r :=
  Finset.filter_congr fun _ _ => AccessEvents.accessEventResultToString_injective.eq_iff

theorem named_disjoint {result result' : Bytes} (h : result ≠ result') :
    Disjoint (named S result) (named S result') := by
  apply Finset.disjoint_filter.mpr
  rintro e - rfl
  exact h

theorem resultIndex_exists {r : AccessEventResult} (h : r ≠ .notFound) :
    ∃ i, accessStatisticsResultIndex r = some i := by
  cases r <;> first | exact absurd rfl h | exact ⟨_, rfl⟩

theorem mem_selectTotals {row : Bytes × TotalsRow} :
    row ∈ selectTotals d shortLinkId ↔
      row.1 ∈ statisticsResults ∧ d.totals (shortLinkId, row.1) = some row.2 := by
  simp only [selectTotals, List.mem_filterMap, Option.map_eq_some_iff]
  constructor
  · rintro ⟨result, hresult, t, ht, rfl⟩
    exact ⟨hresult, ht⟩
  · rintro ⟨hresult, ht⟩
    exact ⟨row.1, hresult, row.2, ht, rfl⟩

theorem selectTotals_pairwise (d : Db) (shortLinkId : ℕ) :
    (selectTotals d shortLinkId).Pairwise fun p q => p.1 ≠ q.1 := by
  apply List.Pairwise.filterMap _ _ statisticsResults_nodup
  intro result result' hne row hrow row' hrow'
  obtain ⟨t, -, rfl⟩ := Option.map_eq_some_iff.mp hrow
  obtain ⟨t', -, rfl⟩ := Option.map_eq_some_iff.mp hrow'
  exact hne

theorem readTotals_summarizes (scan : Scan) (h : Shows d shortLinkId S) :
    ∃ s, (scan.totals (selectTotals d shortLinkId)).foldlM readTotal
      ⟨fun _ => 0, none, none⟩ = .ok s ∧ Summarizes S s := by
  have hperm := scan.totals_perm (selectTotals d shortLinkId)
  generalize scan.totals (selectTotals d shortLinkId) = rows at hperm
  let Rel : Finset AccessEvent → AccessStatisticsSummary → Prop := fun T s =>
    T ⊆ S ∧ Summarizes T s
  have hbody : ∀ row ∈ rows, ∀ T s, Rel T s → Disjoint T (named S row.1) →
      ∃ s', readTotal s row = .ok s' ∧ Rel (T ∪ named S row.1) s' := by
    rintro ⟨result, row⟩ hrow T s ⟨hT, hs⟩ hdisjoint
    obtain ⟨hresult, ht⟩ := mem_selectTotals.mp (hperm.mem_iff.mp hrow)
    obtain ⟨r, hr, rfl⟩ := statisticsResults_spec.mp hresult
    obtain ⟨i, hi⟩ := resultIndex_exists hr
    dsimp only at hdisjoint ht ⊢
    rw [h.totals] at ht
    rw [named_toString] at hdisjoint ⊢
    have hother : ∀ e ∈ T, e.result ≠ r := by
      intro e he hresult
      exact Finset.disjoint_left.mp hdisjoint he (Finset.mem_filter.mpr ⟨hT he, hresult⟩)
    obtain ⟨s', hread, hs'⟩ := readTotal_summarizes hs hi hother
      (fun e he => (Finset.mem_filter.mp he).2) ht
    exact ⟨s', hread, Finset.union_subset hT (Finset.filter_subset _ _), hs'⟩
  have hrows : rows.Pairwise fun p q => Disjoint (named S p.1) (named S q.1) :=
    hperm.symm.pairwise ((selectTotals_pairwise d shortLinkId).imp named_disjoint) fun h => h.symm
  have hcovered : ∀ e, e ∈ S ↔ e ∈ (∅ : Finset AccessEvent) ∨ ∃ row ∈ rows, e ∈ named S row.1 := by
    intro e
    constructor
    · intro he
      obtain ⟨hr, -⟩ := h.aggregated e he
      have hmem : e ∈ ofResult S e.result := Finset.mem_filter.mpr ⟨he, rfl⟩
      obtain ⟨t, ht⟩ : ∃ t, d.totals (shortLinkId, accessEventResultToString e.result) = some t :=
        ⟨_, (h.totals _).trans (dif_pos ⟨e, hmem⟩)⟩
      have hrow : (accessEventResultToString e.result, t) ∈ rows := by
        rw [hperm.mem_iff, mem_selectTotals]
        exact ⟨statisticsResults_spec.mpr ⟨e.result, hr, rfl⟩, ht⟩
      exact .inr ⟨_, hrow, by rwa [named_toString]⟩
    · rintro (he | ⟨row, -, he⟩)
      · cases Finset.notMem_empty e he
      · exact (Finset.mem_filter.mp he).1
  obtain ⟨s, hrun, -, hs⟩ := foldlM_covers hbody hrows
    ⟨Finset.empty_subset S, summarizes_empty⟩ (fun _ _ => Finset.disjoint_empty_left _) hcovered
  exact ⟨s, hrun, hs⟩

theorem bucketExpression_between (hq : isValidAccessStatisticsQuery query = true) (t : ℤ) :
    (query.fromEpochSeconds ≤ bucketExpression query.interval (hourOf t) ∧
        bucketExpression query.interval (hourOf t) < query.toEpochSeconds) ↔
      query.fromEpochSeconds * 1000 ≤ t ∧ t < query.toEpochSeconds * 1000 := by
  rw [bucketExpression_range hq (by simp [hourOf])]
  obtain ⟨-, -, hfrom, hto⟩ := validQuery_aligned hq
  generalize query.interval = interval at hfrom hto
  cases interval <;> simp only [accessStatisticsBucketSeconds, hourOf] at hfrom hto ⊢ <;> omega

theorem readTrends_collects (scan : Scan) (h : Shows d shortLinkId S)
    (hq : isValidAccessStatisticsQuery query = true) :
    ∃ trend, (scan.trend (selectTrend d shortLinkId query)).foldlM readTrend .empty = .ok trend ∧
      Collects (between S query.fromEpochSeconds query.toEpochSeconds) query.interval trend := by
  have hperm := scan.trend_perm (selectTrend d shortLinkId query)
  generalize scan.trend (selectTrend d shortLinkId query) = rows at hperm
  let part (row : TrendRow) := inInterval (named S row.result) query.interval row.bucketStart
  let Rel : Finset AccessEvent → Trend → Prop := fun T trend =>
    T ⊆ S ∧ Collects T query.interval trend
  have hbody : ∀ row ∈ rows, ∀ T trend, Rel T trend → Disjoint T (part row) →
      ∃ trend', readTrend trend row = .ok trend' ∧ Rel (T ∪ part row) trend' := by
    rintro row hrow T trend ⟨hT, ht⟩ hdisjoint
    obtain ⟨-, -, -, r, hr, hne, hcount⟩ := (mem_selectTrend h hq).mp (hperm.mem_iff.mp hrow)
    have hpart : part row = inInterval (ofResult S r) query.interval row.bucketStart := by
      simp only [part, ← hr, named_toString]
    rw [hpart] at hdisjoint ⊢
    obtain ⟨e, he⟩ := hne
    have hS := Finset.mem_filter.mp (Finset.mem_filter.mp he).1
    obtain ⟨i, hi⟩ := resultIndex_exists (hS.2 ▸ (h.aggregated e hS.1).1)
    have hother : inInterval (ofResult T r) query.interval row.bucketStart = ∅ := by
      apply Finset.eq_empty_of_forall_notMem
      intro f hf
      obtain ⟨hf, hfb⟩ := Finset.mem_filter.mp hf
      obtain ⟨hf, hfr⟩ := Finset.mem_filter.mp hf
      exact Finset.disjoint_left.mp hdisjoint hf (Finset.mem_filter.mpr
        ⟨Finset.mem_filter.mpr ⟨hT hf, hfr⟩, hfb⟩)
    obtain ⟨trend', hread, ht'⟩ := readTrend_collects ht hi hr hother
      (fun f hf => ⟨(Finset.mem_filter.mp (Finset.mem_filter.mp hf).1).2,
        (Finset.mem_filter.mp hf).2⟩) ⟨e, he⟩ hcount
    refine ⟨trend', hread, Finset.union_subset hT ?_, ht'⟩
    exact (Finset.filter_subset _ _).trans (Finset.filter_subset _ _)
  have hrows : rows.Pairwise fun p q => Disjoint (part p) (part q) := by
    apply hperm.symm.pairwise ((selectTrend_pairwise d shortLinkId query).imp ?_) fun h => h.symm
    intro p q hne
    rcases hne with hne | hne
    · apply Finset.disjoint_left.mpr
      intro e hp hq
      exact hne ((Finset.mem_filter.mp hp).2.symm.trans (Finset.mem_filter.mp hq).2)
    · exact Disjoint.mono (Finset.filter_subset _ _) (Finset.filter_subset _ _)
        (named_disjoint hne)
  have hcovered : ∀ e, e ∈ between S query.fromEpochSeconds query.toEpochSeconds ↔
      e ∈ (∅ : Finset AccessEvent) ∨ ∃ row ∈ rows, e ∈ part row := by
    intro e
    constructor
    · intro he
      obtain ⟨heS, hrange⟩ := Finset.mem_filter.mp he
      obtain ⟨hfrom, hto⟩ := (bucketExpression_between hq e.occurredAtMs).mpr hrange
      let b := bucketExpression query.interval (hourOf e.occurredAtMs)
      have hmem : e ∈ inInterval (ofResult S e.result) query.interval b :=
        Finset.mem_filter.mpr ⟨Finset.mem_filter.mpr ⟨heS, rfl⟩, rfl⟩
      have hrow : TrendRow.mk b (accessEventResultToString e.result)
          (inInterval (ofResult S e.result) query.interval b).card ∈ rows := by
        rw [hperm.mem_iff, mem_selectTrend h hq]
        exact ⟨bucketExpression_aligned _ (by simp [hourOf]), hfrom, hto, _, rfl, ⟨e, hmem⟩, rfl⟩
      refine .inr ⟨_, hrow, ?_⟩
      simpa only [part, named_toString] using hmem
    · rintro (he | ⟨row, hrow, he⟩)
      · cases Finset.notMem_empty e he
      · obtain ⟨-, hfrom, hto, -⟩ := (mem_selectTrend h hq).mp (hperm.mem_iff.mp hrow)
        obtain ⟨he, heb⟩ := Finset.mem_filter.mp he
        rw [← heb] at hfrom hto
        exact Finset.mem_filter.mpr ⟨(Finset.mem_filter.mp he).1,
          (bucketExpression_between hq _).mp ⟨hfrom, hto⟩⟩
  obtain ⟨trend, hrun, -, ht⟩ := foldlM_covers hbody hrows
    ⟨Finset.empty_subset S, collects_empty _⟩ (fun _ _ => Finset.disjoint_empty_left _) hcovered
  exact ⟨trend, hrun, ht⟩

theorem inInterval_eq_between {interval : AccessStatisticsInterval} {b : ℤ}
    (hb : b % accessStatisticsBucketSeconds interval = 0) (S : Finset AccessEvent) :
    inInterval S interval b = between S b (b + accessStatisticsBucketSeconds interval) :=
  Finset.filter_congr fun e _ => bucketExpression_hourOf interval e.occurredAtMs b hb

theorem collects_charts {trend : Trend} (h : Shows d shortLinkId S)
    (hq : isValidAccessStatisticsQuery query = true)
    (ht : Collects (between S query.fromEpochSeconds query.toEpochSeconds) query.interval trend) :
    Charts S query (trend.entries.map fun item => ⟨item.1, item.2⟩) := by
  -- an entry has an event, and what an entry's interval has of the range it has of the set
  have hentry : ∀ b counts, (b, counts) ∈ trend.entries →
      b % accessStatisticsBucketSeconds query.interval = 0 ∧
      (query.fromEpochSeconds ≤ b ∧ b < query.toEpochSeconds) ∧
      (inInterval S query.interval b).Nonempty ∧
      ∀ r i, accessStatisticsResultIndex r = some i →
        counts i = (inInterval (ofResult S r) query.interval b).card := by
    intro b counts hmem
    rw [OrderedMap.mem_entries] at hmem
    obtain ⟨hsome, hcounts⟩ := ht b
    rw [hmem] at hsome hcounts
    obtain ⟨e, he⟩ := hsome.mp rfl
    obtain ⟨he, heb⟩ := Finset.mem_filter.mp he
    obtain ⟨heS, hrange⟩ := Finset.mem_filter.mp he
    have hb := (bucketExpression_between hq e.occurredAtMs).mpr hrange
    rw [heb] at hb
    refine ⟨heb ▸ bucketExpression_aligned _ (by simp [hourOf]), hb,
      ⟨e, Finset.mem_filter.mpr ⟨heS, heb⟩⟩, fun r i hi => ?_⟩
    rw [show counts i = _ from hcounts r i hi]
    congr 1
    ext f
    simp only [inInterval, ofResult, between, Finset.mem_filter]
    constructor
    · rintro ⟨⟨⟨hS, -⟩, hr⟩, hfb⟩
      exact ⟨⟨hS, hr⟩, hfb⟩
    · rintro ⟨⟨hS, hr⟩, hfb⟩
      exact ⟨⟨⟨hS, (bucketExpression_between hq _).mp (hfb ▸ hb)⟩, hr⟩, hfb⟩
  constructor
  · exact List.pairwise_map.mpr trend.sorted
  · simp only [List.forall_mem_map]
    exact fun item hitem => (hentry _ _ hitem).1
  · simp only [List.forall_mem_map]
    exact fun item hitem => (hentry _ _ hitem).2.1
  · simp only [List.forall_mem_map]
    intro item hitem
    obtain ⟨-, -, ⟨e, he⟩, hcounts⟩ := hentry _ _ hitem
    obtain ⟨heS, heb⟩ := Finset.mem_filter.mp he
    obtain ⟨i, hi⟩ := resultIndex_exists (h.aggregated e heS).1
    refine ⟨i, ?_⟩
    rw [hcounts _ i hi]
    exact Finset.card_ne_zero.mpr
      ⟨e, Finset.mem_filter.mpr ⟨Finset.mem_filter.mpr ⟨heS, rfl⟩, heb⟩⟩
  · simp only [List.forall_mem_map]
    intro item hitem r i hi
    obtain ⟨haligned, -, -, hcounts⟩ := hentry _ _ hitem
    rw [hcounts r i hi, inInterval_eq_between haligned]
  · intro e he
    have hmem : e ∈ inInterval (between S query.fromEpochSeconds query.toEpochSeconds)
        query.interval (bucketExpression query.interval (hourOf e.occurredAtMs)) :=
      Finset.mem_filter.mpr ⟨he, rfl⟩
    obtain ⟨counts, hcounts⟩ := Option.isSome_iff_exists.mp ((ht _).1.mpr ⟨e, hmem⟩)
    have hitem := OrderedMap.mem_entries.mpr hcounts
    refine ⟨_, List.mem_map_of_mem hitem, ?_⟩
    rw [← inInterval_eq_between (hentry _ _ hitem).1]
    exact Finset.mem_filter.mpr ⟨(Finset.mem_filter.mp he).1, rfl⟩

/-- Where the tables show a set of events, the reader's answer tells that set. -/
theorem get_answers (scan : Scan) (h : Shows d shortLinkId S) {code : Bytes}
    (hq : isValidAccessStatisticsQuery query = true)
    (hcode : d.shortLinks.selectIdByCode code = some shortLinkId) :
    ∃ snapshot, get scan d code query = .ok (some snapshot) ∧ snapshot.code = code ∧
      Summarizes S snapshot.summary ∧ Charts S query snapshot.trend := by
  obtain ⟨s, hsummary, hs⟩ := readTotals_summarizes scan h
  obtain ⟨trend, htrend, ht⟩ := readTrends_collects scan h hq
  refine ⟨⟨code, s, _⟩, ?_, rfl, hs, collects_charts h hq ht⟩
  simp only [AccessStatisticsReader.get, hq, Bool.not_true, Bool.false_eq_true, if_false, hcode]
  rw [hsummary]
  dsimp only [bind, Except.bind]
  rw [htrend]
  rfl

theorem Charts.total {trend : List AccessStatisticsTrendPoint} (h : Charts S query trend)
    (hq : isValidAccessStatisticsQuery query = true) {r : AccessEventResult}
    {i : Fin kAccessStatisticsResultCount} (hi : accessStatisticsResultIndex r = some i) :
    (trend.map (·.resultCounts i)).sum =
      (between (ofResult S r) query.fromEpochSeconds query.toEpochSeconds).card := by
  let bucket (e : AccessEvent) := bucketExpression query.interval (hourOf e.occurredAtMs)
  let events := between (ofResult S r) query.fromEpochSeconds query.toEpochSeconds
  have hpoint : ∀ p ∈ trend, p.resultCounts i =
      (events.filter fun e => bucket e = p.bucketStartEpochSeconds).card := by
    intro p hp
    rw [h.counts p hp r i hi, ← inInterval_eq_between (h.aligned p hp)]
    congr 1
    ext e
    simp only [inInterval, events, between, Finset.mem_filter]
    constructor
    · rintro ⟨he, heb⟩
      exact ⟨⟨he, (bucketExpression_between hq _).mp (heb ▸ h.inside p hp)⟩, heb⟩
    · rintro ⟨⟨he, -⟩, heb⟩
      exact ⟨he, heb⟩
  have hstarts : ∀ e ∈ events,
      bucket e ∈ (trend.map (·.bucketStartEpochSeconds)).toFinset := by
    intro e he
    obtain ⟨he, hrange⟩ := Finset.mem_filter.mp he
    obtain ⟨p, hp, hep⟩ :=
      h.complete e (Finset.mem_filter.mpr ⟨(Finset.mem_filter.mp he).1, hrange⟩)
    rw [← inInterval_eq_between (h.aligned p hp)] at hep
    rw [List.mem_toFinset, show bucket e = p.bucketStartEpochSeconds from
      (Finset.mem_filter.mp hep).2]
    exact List.mem_map_of_mem hp
  have hnodup : (trend.map (·.bucketStartEpochSeconds)).Nodup :=
    List.pairwise_map.mpr (h.increasing.imp ne_of_lt)
  calc (trend.map (·.resultCounts i)).sum
      = ((trend.map (·.bucketStartEpochSeconds)).map fun b =>
          (events.filter fun e => bucket e = b).card).sum := by
        rw [List.map_map]
        exact congrArg List.sum (List.map_congr_left hpoint)
    _ = ∑ b ∈ (trend.map (·.bucketStartEpochSeconds)).toFinset,
          (events.filter fun e => bucket e = b).card := (List.sum_toFinset _ hnodup).symm
    _ = events.card := (Finset.card_eq_sum_card_fiberwise hstarts).symm

end Answer

end StatisticsAnswers
