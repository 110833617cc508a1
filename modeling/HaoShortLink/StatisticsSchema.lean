import HaoShortLink.AccessStatistics
import HaoShortLink.Transaction
import Mathlib.Algebra.BigOperators.Finprod
import Mathlib.Data.Finset.Lattice.Fold
import Mathlib.Data.Int.Order.Lemmas
import Mathlib.Data.List.DropRight
import Mathlib.Data.List.Pairwise

/-! The statistics tables of migration 004 and the statements the writer runs on them.
A table is a function of its primary key. A statement that breaks a CHECK, a foreign key or
the range of a column is refused, except that INSERT IGNORE then skips the row. -/
namespace StatisticsSchema

open Cpp
open AccessEvents (AccessEvent accessEventResultToString)
open AccessStatistics (isAggregatedAccessResult utcHourBucketStartEpochSeconds)
open Transaction (Exec)

structure LinkRow where
  id : ℕ
  code : Option Bytes
  deriving DecidableEq, Repr

/-- Comparison under utf8mb4_bin, which pads with blanks. -/
def sameCode (a b : Bytes) : Bool := a.rdropWhile (· == 32) == b.rdropWhile (· == 32)

/-- short_links with its primary key and uk_short_links_code; NULL codes never collide. -/
structure ShortLinksTable where
  rows : List LinkRow
  unique_id : (rows.map LinkRow.id).Nodup
  unique_code : rows.Pairwise fun a b =>
    ∀ c d, a.code = some c → b.code = some d → sameCode c d = false

namespace ShortLinksTable

/-- SELECT id FROM short_links WHERE code = ? LIMIT 1 -/
def selectIdByCode (t : ShortLinksTable) (code : Bytes) : Option ℕ :=
  (t.rows.find? fun r => r.code.any (sameCode · code)).map LinkRow.id

def HasCode (t : ShortLinksTable) (code : Bytes) : Prop := ∃ r ∈ t.rows, r.code = some code

/-- The link whose code is exactly this one. -/
def linkId (t : ShortLinksTable) (code : Bytes) : Option ℕ :=
  (t.rows.find? fun r => r.code == some code).map LinkRow.id

theorem sameCode_refl (c : Bytes) : sameCode c c = true := by simp [sameCode]

theorem sameCode_comm (a b : Bytes) : sameCode a b = sameCode b a := by
  simp [sameCode, Bool.beq_comm]

theorem row_unique (t : ShortLinksTable) {a b : LinkRow} {c d : Bytes} (ha : a ∈ t.rows)
    (hb : b ∈ t.rows) (hac : a.code = some c) (hbd : b.code = some d)
    (h : sameCode c d = true) : a = b := by
  by_contra hne
  have : Std.Symm fun a b : LinkRow =>
      ∀ c d, a.code = some c → b.code = some d → sameCode c d = false :=
    ⟨fun x y hxy c d hc hd => by rw [sameCode_comm]; exact hxy d c hd hc⟩
  have hf := t.unique_code.forall ha hb hne c d hac hbd
  simp [hf] at h

/-- Where the table has the code itself, blank padding finds no other row. -/
theorem selectIdByCode_eq (t : ShortLinksTable) {code : Bytes} (h : t.HasCode code) :
    t.selectIdByCode code = t.linkId code := by
  obtain ⟨r, hr, hc⟩ := h
  have found : ∀ p : LinkRow → Bool, p r = true →
      (∀ q ∈ t.rows, p q = true → ∃ c, q.code = some c ∧ sameCode c code = true) →
      t.rows.find? p = some r := by
    intro p hp hq
    cases hf : t.rows.find? p with
    | none => exact absurd hp (by simpa using List.find?_eq_none.mp hf r hr)
    | some q =>
      obtain ⟨c, hqc, hs⟩ := hq q (List.mem_of_find?_eq_some hf) (List.find?_some hf)
      rw [t.row_unique (List.mem_of_find?_eq_some hf) hr hqc hc hs]
  unfold selectIdByCode linkId
  rw [found (fun r => r.code.any (sameCode · code)) (by simp [hc, sameCode_refl]),
    found (fun r => r.code == some code) (by simp [hc])]
  · intro q _ hq
    exact ⟨code, by simpa using hq, sameCode_refl code⟩
  · intro q _ hq
    simpa [Option.any_eq_true] using hq

end ShortLinksTable

structure ProcessedRow where
  sourceTopic : Bytes
  sourcePartition : ℤ
  sourceOffset : ℤ
  occurredAtMs : ℤ
  disposition : Bytes
  deriving DecidableEq, Repr

def ProcessedRow.checks (r : ProcessedRow) : Bool :=
  0 ≤ r.sourcePartition && 0 ≤ r.sourceOffset && 0 < r.occurredAtMs &&
    [ascii "received", ascii "aggregated", ascii "not_found_ignored"].contains r.disposition

structure TotalsRow where
  accessCount : ℕ
  firstOccurredAtMs : ℤ
  lastOccurredAtMs : ℤ
  deriving DecidableEq, Repr

def isStatisticsResult (result : Bytes) : Bool :=
  [ascii "success", ascii "disabled", ascii "expired", ascii "error"].contains result

/-- BIGINT UNSIGNED and the CHECKs of short_link_access_totals. -/
def TotalsRow.checks (r : TotalsRow) : Bool :=
  0 < r.accessCount && r.accessCount < 2 ^ 64 && 0 < r.firstOccurredAtMs &&
    r.firstOccurredAtMs ≤ r.lastOccurredAtMs

structure Db where
  shortLinks : ShortLinksTable
  processed : Bytes → Option ProcessedRow
  totals : ℕ × Bytes → Option TotalsRow
  hourly : ℕ × ℤ × Bytes → Option ℕ

def Db.empty (links : ShortLinksTable) : Db := ⟨links, fun _ => none, fun _ => none, fun _ => none⟩

inductive Stmt where
  | insertIgnoreProcessed (eventId sourceTopic : Bytes)
      (sourcePartition sourceOffset occurredAtMs : ℤ)
  | updateDisposition (disposition eventId : Bytes)
  | selectLinkId (code : Bytes)
  | upsertTotals (shortLinkId : ℕ) (result : Bytes) (firstOccurredAtMs lastOccurredAtMs : ℤ)
  | upsertHourly (shortLinkId : ℕ) (bucketStart : ℤ) (result : Bytes)

/-- Affected rows, or the selected id. -/
def Stmt.Reply : Stmt → Type
  | .selectLinkId _ => Option ℕ
  | _ => ℕ

def TotalsRow.upsert (old : Option TotalsRow) (first last : ℤ) : TotalsRow :=
  match old with
  | none => ⟨1, first, last⟩
  | some row => ⟨row.accessCount + 1, min row.firstOccurredAtMs first,
      max row.lastOccurredAtMs last⟩

def hourlyUpsert (old : Option ℕ) : ℕ := old.elim 1 (· + 1)

def exec : Exec Db Stmt.Reply
  | .insertIgnoreProcessed eventId topic partition offset occurredAtMs, d =>
    let row : ProcessedRow := ⟨topic, partition, offset, occurredAtMs, ascii "received"⟩
    if (d.processed eventId).isSome || !row.checks then some ((0 : ℕ), d)
    else some ((1 : ℕ), { d with processed := Function.update d.processed eventId (some row) })
  | .updateDisposition disposition eventId, d =>
    match d.processed eventId with
    | none => some ((0 : ℕ), d)
    | some row =>
      let row := { row with disposition := disposition }
      if row.checks then
        some ((1 : ℕ), { d with processed := Function.update d.processed eventId (some row) })
      else none
  | .selectLinkId code, d => some (d.shortLinks.selectIdByCode code, d)
  | .upsertTotals linkId result first last, d =>
    let old := d.totals (linkId, result)
    let row := TotalsRow.upsert old first last
    if d.shortLinks.rows.any (·.id == linkId) && isStatisticsResult result && row.checks then
      some ((if old.isSome then 2 else 1 : ℕ),
        { d with totals := Function.update d.totals (linkId, result) (some row) })
    else none
  | .upsertHourly linkId bucketStart result, d =>
    let old := d.hourly (linkId, bucketStart, result)
    let count := hourlyUpsert old
    if d.shortLinks.rows.any (·.id == linkId) && isStatisticsResult result &&
        bucketStart % 3600 == 0 && count < 2 ^ 64 then
      some ((if old.isSome then 2 else 1 : ℕ),
        { d with hourly := Function.update d.hourly (linkId, bucketStart, result) (some count) })
    else none

/-- The distinct events that count for one link and one result; not_found never does. -/
def aggregatedFor (links : ShortLinksTable) (E : Finset AccessEvent) (linkId : ℕ)
    (result : Bytes) : Finset AccessEvent :=
  E.filter fun e => e.result ≠ .notFound ∧ links.linkId e.code = some linkId ∧
    accessEventResultToString e.result = result

def inBucket (bucketStart : ℤ) (e : AccessEvent) : Bool :=
  match utcHourBucketStartEpochSeconds e.occurredAtMs with
  | .ok b => b == bucketStart
  | .error _ => false

def summary (S : Finset AccessEvent) : Option TotalsRow :=
  if h : S.Nonempty then
    some ⟨S.card, S.inf' h AccessEvent.occurredAtMs, S.sup' h AccessEvent.occurredAtMs⟩
  else none

def referenceTotals (links : ShortLinksTable) (E : Finset AccessEvent) :
    ℕ × Bytes → Option TotalsRow
  | (linkId, result) => summary (aggregatedFor links E linkId result)

def referenceHourly (links : ShortLinksTable) (E : Finset AccessEvent) :
    ℕ × ℤ × Bytes → Option ℕ
  | (linkId, bucketStart, result) =>
    let S := (aggregatedFor links E linkId result).filter (inBucket bucketStart ·)
    if S.Nonempty then some S.card else none

theorem summary_insert {S : Finset AccessEvent} {e : AccessEvent} (h : e ∉ S) :
    summary (insert e S) = some (TotalsRow.upsert (summary S) e.occurredAtMs e.occurredAtMs) := by
  by_cases hS : S.Nonempty
  · simp [summary, hS, TotalsRow.upsert, h, Finset.inf'_insert, Finset.sup'_insert, min_comm,
      max_comm]
  · obtain rfl := Finset.not_nonempty_iff_eq_empty.mp hS
    simp [summary, TotalsRow.upsert]

theorem aggregatedFor_insert (links : ShortLinksTable) (E : Finset AccessEvent) (e : AccessEvent)
    (k : ℕ) (r : Bytes) :
    aggregatedFor links (insert e E) k r =
      if e.result ≠ .notFound ∧ links.linkId e.code = some k ∧
          accessEventResultToString e.result = r then
        insert e (aggregatedFor links E k r)
      else aggregatedFor links E k r := by
  simp only [aggregatedFor, Finset.filter_insert]

theorem referenceTotals_insert {links : ShortLinksTable} {E : Finset AccessEvent}
    {e : AccessEvent} {k : ℕ} (he : e ∉ E) (hr : e.result ≠ .notFound)
    (hk : links.linkId e.code = some k) :
    referenceTotals links (insert e E) =
      Function.update (referenceTotals links E) (k, accessEventResultToString e.result)
        (some (TotalsRow.upsert (referenceTotals links E (k, accessEventResultToString e.result))
          e.occurredAtMs e.occurredAtMs)) := by
  funext ⟨k', r'⟩
  by_cases hkey : (k', r') = (k, accessEventResultToString e.result)
  · obtain ⟨rfl, rfl⟩ := Prod.mk.inj hkey
    have hn : e ∉ aggregatedFor links E k' (accessEventResultToString e.result) :=
      fun h => he (Finset.mem_filter.mp h).1
    simp [referenceTotals, aggregatedFor_insert, hr, hk, summary_insert hn]
  · rw [Function.update_of_ne hkey]
    have hc : ¬ (e.result ≠ .notFound ∧ links.linkId e.code = some k' ∧
        accessEventResultToString e.result = r') := by
      rintro ⟨_, hk', rfl⟩
      exact hkey (by rw [hk] at hk'; rw [Option.some.inj hk'])
    simp only [referenceTotals, aggregatedFor_insert, if_neg hc]

theorem referenceHourly_insert {links : ShortLinksTable} {E : Finset AccessEvent}
    {e : AccessEvent} {k : ℕ} {b : ℤ} (he : e ∉ E) (hr : e.result ≠ .notFound)
    (hk : links.linkId e.code = some k)
    (hb : utcHourBucketStartEpochSeconds e.occurredAtMs = .ok b) :
    referenceHourly links (insert e E) =
      Function.update (referenceHourly links E) (k, b, accessEventResultToString e.result)
        (some (hourlyUpsert
          (referenceHourly links E (k, b, accessEventResultToString e.result)))) := by
  funext ⟨k', b', r'⟩
  have hin : inBucket b' e = (b == b') := by simp [inBucket, hb]
  by_cases hkey : (k', b', r') = (k, b, accessEventResultToString e.result)
  · obtain ⟨rfl, h⟩ := Prod.mk.inj hkey
    obtain ⟨rfl, rfl⟩ := Prod.mk.inj h
    have hn : e ∉ (aggregatedFor links E k' (accessEventResultToString e.result)).filter
        (inBucket b' ·) := fun h => he (Finset.mem_filter.mp (Finset.mem_filter.mp h).1).1
    simp only [referenceHourly, aggregatedFor_insert, hr, hk, ne_eq, not_false_eq_true, and_self,
      if_true, Finset.filter_insert, hin, beq_self_eq_true, Finset.insert_nonempty,
      Finset.card_insert_of_notMem hn, Function.update_self]
    split
    · simp [hourlyUpsert]
    · rename_i hS
      simp [hourlyUpsert, Finset.not_nonempty_iff_eq_empty.mp hS]
  · rw [Function.update_of_ne hkey]
    simp only [referenceHourly, aggregatedFor_insert]
    split
    · rename_i hc
      obtain ⟨_, hk', rfl⟩ := hc
      rw [hk] at hk'
      have hne : ¬ inBucket b' e = true := by
        rw [hin]
        intro h
        exact hkey (by rw [Option.some.inj hk', beq_iff_eq.mp h])
      rw [Finset.filter_insert, if_neg hne]
    · rfl

theorem reference_insert_notFound (links : ShortLinksTable) {E : Finset AccessEvent}
    {e : AccessEvent} (hr : e.result = .notFound) :
    referenceTotals links (insert e E) = referenceTotals links E ∧
      referenceHourly links (insert e E) = referenceHourly links E := by
  constructor
  · funext ⟨k, r⟩
    simp [referenceTotals, aggregatedFor_insert, hr]
  · funext ⟨k, b, r⟩
    simp [referenceHourly, aggregatedFor_insert, hr]

/-- Every event of positive time lies in one hour, so a total is the sum of its hours. -/
theorem referenceTotals_eq_sum {links : ShortLinksTable} {E : Finset AccessEvent}
    (hE : ∀ e ∈ E, 0 < e.occurredAtMs) (k : ℕ) (r : Bytes) :
    (referenceTotals links E (k, r)).elim 0 TotalsRow.accessCount =
      ∑ᶠ b, (referenceHourly links E (k, b, r)).getD 0 := by
  let hour (e : AccessEvent) : ℤ := match utcHourBucketStartEpochSeconds e.occurredAtMs with
    | .ok b => b
    | .error _ => 0
  have hin : ∀ e ∈ E, ∀ b, inBucket b e = true ↔ hour e = b := by
    intro e he b
    have : ¬ e.occurredAtMs ≤ 0 := not_le.mpr (hE e he)
    simp [inBucket, hour, utcHourBucketStartEpochSeconds, this]
  let S := aggregatedFor links E k r
  have hfiber : ∀ b, (referenceHourly links E (k, b, r)).getD 0 =
      (S.filter fun e => hour e = b).card := by
    intro b
    have hS : S.filter (inBucket b ·) = S.filter fun e => hour e = b :=
      Finset.filter_congr fun e he => hin e (Finset.mem_filter.mp he).1 b
    simp only [referenceHourly]
    rw [show aggregatedFor links E k r = S from rfl, hS]
    split
    · rfl
    · rename_i hn
      simp [Finset.not_nonempty_iff_eq_empty.mp hn]
  have htotal : (referenceTotals links E (k, r)).elim 0 TotalsRow.accessCount = S.card := by
    by_cases hn : S.Nonempty
    · simp [referenceTotals, summary, show aggregatedFor links E k r = S from rfl, hn]
    · simp [referenceTotals, summary, show aggregatedFor links E k r = S from rfl,
        Finset.not_nonempty_iff_eq_empty.mp hn]
  rw [htotal, finsum_congr hfiber,
    finsum_eq_sum_of_support_subset (s := S.image hour) _ ?_]
  · exact Finset.card_eq_sum_card_fiberwise fun e he => Finset.mem_image_of_mem hour he
  · intro b hb
    obtain ⟨e, he⟩ := Finset.card_ne_zero.mp (Function.mem_support.mp hb)
    obtain ⟨hm, rfl⟩ := Finset.mem_filter.mp he
    exact Finset.mem_coe.mpr (Finset.mem_image_of_mem hour hm)

end StatisticsSchema
