import HaoShortLink.StatisticsAnswers
import HaoShortLink.StatisticsProjection

/-! Statistics answers match the committed events, whoever wrote them and in whatever order. -/
namespace CommittedEvents

open Cpp Program Transaction StatisticsSchema AccessStatistics AccessStatisticsReader
open AccessStatisticsWriter StatisticsProjection StatisticsAnswers
open AccessEvents (AccessEvent accessEventResultToString)

variable {Tid : Type} [DecidableEq Tid]

/-- Short links are created while the writers run; none goes away or changes its code. -/
def Grows (links links' : ShortLinksTable) : Prop := ∀ row ∈ links.rows, row ∈ links'.rows

/-- Writers process any events in any order, each any number of times, beside a service that
creates links. -/
def writers : Machine Tid (WriterWorld Tid) (SqlOp Stmt)
    (fun op => Except WriterException (op.Reply Stmt.Reply))
    (Except WriterException AccessStatisticsWriteResult)
    (AccessEvent × AccessEventSourcePosition) where
  step := WorldStep exec noteCommit
  prog _ j := (process j.1 j.2).run
  start i j w w' := w' = { w with ghost := w.ghost.setRunning i (some j.1) }
  finish i _ w w' := w' = { w with ghost := w.ghost.setRunning i none }
  crash i w w' := w' = ⟨w.store.setSession i none, w.ghost.setRunning i none⟩
  outside w w' := ∃ links, Grows w.store.db.shortLinks links ∧
    w' = ⟨{ w.store with db := { w.store.db with shortLinks := links } }, w.ghost⟩

/-- The first of the events with each id; the later ones are duplicates. -/
def distinct (events : List AccessEvent) : List AccessEvent :=
  events.foldl (fun seen e => if seen.any (·.eventId == e.eventId) then seen else seen ++ [e]) []

def eventsOf (links : ShortLinksTable) (events : List AccessEvent) (shortLinkId : ℕ) :
    Finset AccessEvent :=
  (distinct events).toFinset.filter fun e =>
    e.result ≠ .notFound ∧ links.selectIdByCode e.code = some shortLinkId

theorem distinct_snoc (events : List AccessEvent) (e : AccessEvent) :
    distinct (events ++ [e]) =
      if (distinct events).any (·.eventId == e.eventId) then distinct events
      else distinct events ++ [e] := by
  rw [distinct, List.foldl_append]
  rfl

theorem distinct_ids (events : List AccessEvent) (id : Bytes) :
    (∃ e ∈ distinct events, e.eventId = id) ↔ ∃ e ∈ events, e.eventId = id := by
  induction events using List.reverseRecOn with
  | nil => rfl
  | append_singleton events e ih =>
    rw [distinct_snoc]
    simp only [List.mem_append, List.mem_singleton, or_and_right, exists_or, exists_eq_left, ← ih]
    by_cases hseen : (distinct events).any (·.eventId == e.eventId)
    · rw [if_pos hseen]
      obtain ⟨f, hf, hid⟩ := List.any_eq_true.mp hseen
      refine ⟨.inl, ?_⟩
      rintro (hold | rfl)
      · exact hold
      · exact ⟨f, hf, beq_iff_eq.mp hid⟩
    · rw [if_neg hseen]
      simp [or_and_right, exists_or]

theorem eventsOf_snoc (links : ShortLinksTable) {events : List AccessEvent} {e : AccessEvent}
    (h : ¬(distinct events).any (·.eventId == e.eventId) = true) (k : ℕ) :
    eventsOf links (events ++ [e]) k =
      if e.result ≠ .notFound ∧ links.selectIdByCode e.code = some k then
        insert e (eventsOf links events k)
      else eventsOf links events k := by
  have hset : (distinct events ++ [e]).toFinset = insert e (distinct events).toFinset := by
    ext f
    simp
  rw [eventsOf, distinct_snoc, if_neg h, hset, Finset.filter_insert]
  rfl

section Links

variable {t t' : ShortLinksTable} {code : Bytes} {k : ℕ}

theorem selectIdByCode_eq_some : t.selectIdByCode code = some k ↔
    ∃ row ∈ t.rows, row.id = k ∧ ∃ c, row.code = some c ∧ sameCode c code = true := by
  simp only [ShortLinksTable.selectIdByCode, Option.map_eq_some_iff]
  constructor
  · rintro ⟨row, hfound, rfl⟩
    have hmatch := List.find?_some hfound
    exact ⟨row, List.mem_of_find?_eq_some hfound, rfl, by simpa [Option.any_eq_true] using hmatch⟩
  · rintro ⟨row, hrow, rfl, c, hc, hsame⟩
    cases hfound : t.rows.find? fun r => r.code.any (sameCode · code) with
    | none =>
      have hnone := List.find?_eq_none.mp hfound row hrow
      simp [hc, hsame] at hnone
    | some found =>
      have hmatch := List.find?_some hfound
      obtain ⟨c', hc', hsame'⟩ := (Option.any_eq_true _ _).mp hmatch
      have hcc : sameCode c' c = true := by
        simp only [sameCode, beq_iff_eq] at hsame hsame' ⊢
        rw [hsame', hsame]
      exact ⟨found, rfl, by
        rw [t.row_unique (List.mem_of_find?_eq_some hfound) hrow hc' hc hcc]⟩

theorem selectIdByCode_grows (h : Grows t t') (hk : t.selectIdByCode code = some k) :
    t'.selectIdByCode code = some k := by
  obtain ⟨row, hrow, hmatch⟩ := selectIdByCode_eq_some.mp hk
  exact selectIdByCode_eq_some.mpr ⟨row, h row hrow, hmatch⟩

end Links

/-- The receipts are of the committed events, each counted event has its link, and the tables of
every link show its events. -/
structure Recorded (x : Db × Calls Tid) : Prop where
  receipts : ∀ id, (x.1.processed id).isSome ↔ ∃ e ∈ x.2.committed, e.eventId = id
  resolved : ∀ e ∈ distinct x.2.committed, e.result ≠ .notFound →
    ∃ k, x.1.shortLinks.selectIdByCode e.code = some k
  shows : ∀ k, Shows x.1 k (eventsOf x.1.shortLinks x.2.committed k)

section Recorded

variable {e : AccessEvent} {src : AccessEventSourcePosition} {i : Tid} {x : Db × Calls Tid}
  {d : Db}

omit [DecidableEq Tid] in
theorem recorded_commit (hx : Recorded x) (hrun : x.2.running i = some e)
    (h : CallEffect e src x.1 d) : Recorded (d, noteCommit i x.2) := by
  have hnote : (noteCommit i x.2).committed = x.2.committed ++ [e] := by simp [noteCommit, hrun]
  have hseen : (distinct x.2.committed).any (·.eventId == e.eventId) =
      (x.1.processed e.eventId).isSome := by
    rw [Bool.eq_iff_iff, hx.receipts, ← distinct_ids]
    simp
  have hnew : x.1.processed e.eventId = none →
      ¬(distinct x.2.committed).any (·.eventId == e.eventId) = true := by
    intro hnone
    simp [hseen, hnone]
  refine ⟨fun id => hnote ▸ receipts_commit h hx.receipts id, ?_, fun k => ?_⟩
  · intro f hf hr
    dsimp only at hf ⊢
    rw [hnote, distinct_snoc] at hf
    cases h with
    | duplicate hsome =>
      rw [if_pos (hseen.trans hsome)] at hf
      exact hx.resolved f hf hr
    | ignored hnone hnf =>
      rw [if_neg (hnew hnone)] at hf
      rcases List.mem_append.mp hf with hf | hf
      · exact hx.resolved f hf hr
      · exact absurd (List.mem_singleton.mp hf ▸ hnf) hr
    | aggregated hnone _ hk =>
      rw [if_neg (hnew hnone)] at hf
      rcases List.mem_append.mp hf with hf | hf
      · exact hx.resolved f hf hr
      · exact ⟨_, List.mem_singleton.mp hf ▸ hk⟩
  · dsimp only
    rw [hnote]
    cases h with
    | duplicate hsome =>
      have hsame : distinct (x.2.committed ++ [e]) = distinct x.2.committed := by
        rw [distinct_snoc, if_pos (hseen.trans hsome)]
      rw [eventsOf, hsame]
      exact hx.shows k
    | ignored hnone hnf =>
      rw [eventsOf_snoc _ (hnew hnone), if_neg fun hcounts => hcounts.1 hnf]
      exact ⟨(hx.shows k).aggregated, (hx.shows k).totals, (hx.shows k).hourly⟩
    | @aggregated p k' b hnone hr hk hb =>
      rw [eventsOf_snoc _ (hnew hnone)]
      by_cases heq : k' = k
      · subst heq
        rw [if_pos ⟨hr, hk⟩]
        apply shows_insert (hx.shows k') _ hr hb
        intro hmem
        have hmem := List.mem_toFinset.mp (Finset.mem_filter.mp hmem).1
        exact hnew hnone (List.any_eq_true.mpr ⟨e, hmem, beq_iff_eq.mpr rfl⟩)
      · rw [if_neg fun hcounts => heq (Option.some.inj (hk.symm.trans hcounts.2))]
        exact shows_other (hx.shows k) (Ne.symm heq)

omit [DecidableEq Tid] in
/-- A new link changes neither the events of the old ones nor what the tables show of them. -/
theorem recorded_grows (hx : Recorded x) {links : ShortLinksTable}
    (h : Grows x.1.shortLinks links) : Recorded ({ x.1 with shortLinks := links }, x.2) := by
  refine ⟨hx.receipts, ?_, fun k => ?_⟩
  · intro e he hr
    obtain ⟨k, hk⟩ := hx.resolved e he hr
    exact ⟨k, selectIdByCode_grows h hk⟩
  · have hsame : eventsOf links x.2.committed k =
        eventsOf x.1.shortLinks x.2.committed k := by
      apply Finset.filter_congr
      intro e he
      apply and_congr_right
      intro hr
      obtain ⟨k', hk'⟩ := hx.resolved e (List.mem_toFinset.mp he) hr
      rw [hk', selectIdByCode_grows h hk']
    dsimp only
    rw [hsame]
    exact ⟨(hx.shows k).aggregated, (hx.shows k).totals, (hx.shows k).hourly⟩

omit [DecidableEq Tid] in
theorem initial_recorded (links : ShortLinksTable) :
    Recorded (initialWorld links : WriterWorld Tid).snap := by
  constructor
  · simp [World.snap, initialWorld, Db.empty]
  · simp [World.snap, initialWorld, distinct]
  · intro k
    constructor <;>
      simp [World.snap, initialWorld, Db.empty, eventsOf, distinct, summary, tally, ofResult]

end Recorded

/-- The writers rely on each other as over fixed links; only the invariant is another. -/
def discipline (links : ShortLinksTable) : Discipline Tid Db (Calls Tid) :=
  { writerDiscipline links ∅ with inv := Recorded }

omit [DecidableEq Tid] in
theorem host (links : ShortLinksTable) (e : AccessEvent) (src : AccessEventSourcePosition)
    (i : Tid) :
    Hosts (@discipline Tid links) noteCommit i e src fun x => x.2.running i = some e where
  effect hx hrun h := ⟨recorded_commit hx hrun h, fun _ _ => rfl, h.receipts_grow⟩
  ready h hrun := h.1.trans hrun
  receipt h := h.2 _

theorem writers_verified (links : ShortLinksTable) :
    (@writers Tid _).Verified ((discipline links).protocol Stmt.Reply)
      (fun i w => w.store.session i = none) (fun i _ w => w.store.session i = none) := by
  have bookkeeping : ∀ {w : WriterWorld Tid} {i e},
      ((discipline links).protocol Stmt.Reply).inv w →
      Recorded (w.store.db, w.ghost.setRunning i e) ∧
        ∀ j, j ≠ i → (w.ghost.setRunning i e).running j = w.ghost.running j :=
    fun hi => ⟨⟨hi.receipts, hi.resolved, hi.shows⟩, fun j hj => by simp [Calls.setRunning, hj]⟩
  constructor
  · exact fun h hr => hr.1.trans h
  · rintro i ⟨e, src⟩ w w' hi hidle rfl
    obtain ⟨hinv, hothers⟩ := bookkeeping (i := i) (e := some e) hi
    refine ⟨⟨hinv, fun _ _ => rfl, hothers, fun _ h => h⟩, ?_⟩
    refine safe_mono (process_safe (host links e src i) ?_ hidle) fun _ _ _ h => h.1
    simp [World.snap, Calls.setRunning]
  · rintro i a w w' hi hpost rfl
    obtain ⟨hinv, hothers⟩ := bookkeeping (i := i) (e := none) hi
    exact ⟨⟨hinv, fun _ _ => rfl, hothers, fun _ h => h⟩, hpost⟩
  · rintro i w w' hi rfl
    obtain ⟨hinv, hothers⟩ := bookkeeping (i := i) (e := none) hi
    exact ⟨⟨hinv, fun _ hj => setSession_of_ne _ _ hj, hothers, fun _ h => h⟩,
      setSession_self ..⟩
  · rintro w w' hi ⟨links', hgrows, rfl⟩
    exact ⟨recorded_grows hi hgrows, fun _ => ⟨rfl, rfl, fun _ h => h⟩⟩

/-- Whatever the committed calls so far, for every link and every valid query the answer is a
snapshot that tells the link's distinct aggregated events; and where one range is valid for both
intervals, the two trends add up to the same. -/
theorem answers_match_events (links : ShortLinksTable)
    (s : Pool Tid (WriterWorld Tid) (SqlOp Stmt) _ _)
    (hs : writers.Reachable (initialWorld links) s) (code : Bytes) (shortLinkId : ℕ)
    (hcode : s.world.store.db.shortLinks.selectIdByCode code = some shortLinkId) :
    (∀ query, isValidAccessStatisticsQuery query = true → ∀ scan, ∃ snapshot,
      AccessStatisticsReader.get scan s.world.store.db code query = .ok (some snapshot) ∧
      snapshot.code = code ∧
      Summarizes (eventsOf s.world.store.db.shortLinks s.world.ghost.committed shortLinkId)
        snapshot.summary ∧
      Charts (eventsOf s.world.store.db.shortLinks s.world.ghost.committed shortLinkId) query
        snapshot.trend) ∧
    ∀ fromEpochSeconds toEpochSeconds,
      isValidAccessStatisticsQuery ⟨fromEpochSeconds, toEpochSeconds, .hour⟩ = true →
      isValidAccessStatisticsQuery ⟨fromEpochSeconds, toEpochSeconds, .day⟩ = true →
      ∀ scan scan' hourly daily,
        AccessStatisticsReader.get scan s.world.store.db code
          ⟨fromEpochSeconds, toEpochSeconds, .hour⟩ = .ok (some hourly) →
        AccessStatisticsReader.get scan' s.world.store.db code
          ⟨fromEpochSeconds, toEpochSeconds, .day⟩ = .ok (some daily) →
        ∀ i, (hourly.trend.map (·.resultCounts i)).sum =
          (daily.trend.map (·.resultCounts i)).sum := by
  have hrecorded :=
    ((writers_verified links).reachable (initial_recorded links) (fun _ => rfl) hs).1
  have hshows := hrecorded.shows shortLinkId
  have hanswers := fun query (hq : isValidAccessStatisticsQuery query = true) scan =>
    get_answers scan hshows hq hcode
  refine ⟨hanswers, ?_⟩
  intro fromEpochSeconds toEpochSeconds hhour hday scan scan' hourly daily hget hget' i
  obtain ⟨_, hget₁, -, -, hcharts⟩ := hanswers _ hhour scan
  obtain ⟨_, hget₂, -, -, hcharts'⟩ := hanswers _ hday scan'
  obtain rfl := Option.some.inj (Except.ok.inj (hget.symm.trans hget₁))
  obtain rfl := Option.some.inj (Except.ok.inj (hget'.symm.trans hget₂))
  obtain ⟨r, hr⟩ := accessStatisticsResultIndex_surjective i
  rw [hcharts.total hhour hr, hcharts'.total hday hr]

theorem demo_reachable : writers.Reachable (initialWorld demoLinks)
    ⟨demoWorld demoTwice none [demoEvent, demoEvent, demoLater], fun _ => none⟩ :=
  demo_run rfl (fun _ _ => rfl) (fun _ _ _ _ _ => rfl) fun _ _ _ _ => rfl

theorem answers_match_events_demo :
    (∃ snapshot, AccessStatisticsReader.get .inOrder demoTwice (ascii "a")
        ⟨0, 86400, .hour⟩ = .ok (some snapshot) ∧
      snapshot.code = ascii "a" ∧
      Summarizes (eventsOf demoLinks [demoEvent, demoEvent, demoLater] 1) snapshot.summary ∧
      Charts (eventsOf demoLinks [demoEvent, demoEvent, demoLater] 1) ⟨0, 86400, .hour⟩
        snapshot.trend) ∧
    ∀ hourly daily,
      AccessStatisticsReader.get .inOrder demoTwice (ascii "a") ⟨0, 86400, .hour⟩ =
        .ok (some hourly) →
      AccessStatisticsReader.get .inOrder demoTwice (ascii "a") ⟨0, 86400, .day⟩ =
        .ok (some daily) →
      ∀ i, (hourly.trend.map (·.resultCounts i)).sum =
        (daily.trend.map (·.resultCounts i)).sum := by
  obtain ⟨hanswers, htotals⟩ :=
    answers_match_events demoLinks _ demo_reachable (ascii "a") 1 (by decide)
  exact ⟨hanswers _ (by decide) .inOrder, htotals 0 86400 (by decide) (by decide) .inOrder .inOrder⟩

end CommittedEvents
