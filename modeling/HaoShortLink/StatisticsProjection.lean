import HaoShortLink.AccessStatisticsWriter

/-! Many writers over one database: the statistics tables are a projection of the set of
committed events, whatever the order, the duplicates and the failures. -/
namespace StatisticsProjection

open Cpp Program Transaction StatisticsSchema AccessStatisticsWriter
open AccessEvents

variable {Tid : Type} [DecidableEq Tid]

/-- Which event each writer is processing, and the events of the calls that committed. -/
structure Calls (Tid : Type) where
  running : Tid → Option AccessEvent
  committed : List AccessEvent

def Calls.setRunning (g : Calls Tid) (i : Tid) (e : Option AccessEvent) : Calls Tid :=
  { g with running := Function.update g.running i e }

def noteCommit (i : Tid) (g : Calls Tid) : Calls Tid :=
  { g with committed := g.committed ++ (g.running i).toList }

abbrev WriterWorld (Tid : Type) := World Tid Db Stmt.Reply (Calls Tid)

/-- Writers process events of E in any order, from any source position and any number of
times. A crash may hit a writer at any point and takes its session with it. -/
def writers (E : Finset AccessEvent) :
    Machine Tid (WriterWorld Tid) (SqlOp Stmt)
      (fun op => Except WriterException (op.Reply Stmt.Reply))
      (Except WriterException AccessStatisticsWriteResult)
      (AccessEvent × AccessEventSourcePosition) where
  step := WorldStep exec noteCommit
  prog _ j := (process j.1 j.2).run
  start i j w w' := j.1 ∈ E ∧ w' = { w with ghost := w.ghost.setRunning i (some j.1) }
  finish i _ w w' := w' = { w with ghost := w.ghost.setRunning i none }
  crash i w w' := w' = ⟨w.store.setSession i none, w.ghost.setRunning i none⟩
  outside _ _ := False

def initialWorld (links : ShortLinksTable) : WriterWorld Tid :=
  ⟨⟨Db.empty links, fun _ => none⟩, ⟨fun _ => none, []⟩⟩

structure Projected (links : ShortLinksTable) (E : Finset AccessEvent) (x : Db × Calls Tid) :
    Prop where
  table : x.1.shortLinks = links
  events : ∀ e ∈ x.2.committed, e ∈ E
  receipts : ∀ id, (x.1.processed id).isSome ↔ ∃ e ∈ x.2.committed, e.eventId = id
  totals : x.1.totals = referenceTotals links x.2.committed.toFinset
  hourly : x.1.hourly = referenceHourly links x.2.committed.toFinset

def writerDiscipline (links : ShortLinksTable) (E : Finset AccessEvent) :
    Discipline Tid Db (Calls Tid) where
  inv := Projected links E
  rely i x y := y.2.running i = x.2.running i ∧
    ∀ id, (x.1.processed id).isSome → (y.1.processed id).isSome
  guar i x y := (∀ j, j ≠ i → y.2.running j = x.2.running j) ∧
    ∀ id, (x.1.processed id).isSome → (y.1.processed id).isSome
  refl _ _ := ⟨rfl, fun _ h => h⟩
  trans _ _ _ _ h k := ⟨k.1.trans h.1, fun id hi => k.2 id (h.2 id hi)⟩
  quiet _ _ := ⟨fun _ _ => rfl, fun _ h => h⟩
  compatible hj h := ⟨h.1 _ hj, h.2⟩

section Projection

variable {links : ShortLinksTable} {E : Finset AccessEvent} {e : AccessEvent}
  {src : AccessEventSourcePosition} {i : Tid} {x : Db × Calls Tid} {d : Db}

omit [DecidableEq Tid] in
theorem receipts_commit {events : List AccessEvent} (h : CallEffect e src x.1 d)
    (hx : ∀ id, (x.1.processed id).isSome ↔ ∃ f ∈ events, f.eventId = id) (id : Bytes) :
    (d.processed id).isSome ↔ ∃ f ∈ events ++ [e], f.eventId = id := by
  simp only [List.mem_append, List.mem_singleton, or_and_right, exists_or, exists_eq_left]
  cases h with
  | duplicate hsome =>
    rw [hx]
    refine ⟨.inl, ?_⟩
    rintro (hold | rfl)
    · exact hold
    · exact (hx _).mp hsome
  | ignored | aggregated =>
    by_cases hi : id = e.eventId
    · simp [hi]
    · simp [hi, hx, Ne.symm hi]

omit [DecidableEq Tid] in
/-- One committed call adds its event to the projected set; a duplicate adds nothing new. -/
theorem projected_commit (hid : ∀ e ∈ E, ∀ f ∈ E, e.eventId = f.eventId → e = f)
    (hcode : ∀ e ∈ E, e.result ≠ .notFound → links.HasCode e.code) (he : e ∈ E)
    (hx : Projected links E x) (hrun : x.2.running i = some e)
    (h : CallEffect e src x.1 d) : Projected links E (d, noteCommit i x.2) := by
  have hnote : (noteCommit i x.2).committed = x.2.committed ++ [e] := by simp [noteCommit, hrun]
  have hset : (noteCommit i x.2).committed.toFinset = insert e x.2.committed.toFinset := by
    ext f
    simp [hnote]
  have hevents : ∀ f ∈ (noteCommit i x.2).committed, f ∈ E := by
    intro f hf
    rcases List.mem_append.mp (hnote ▸ hf) with hf | hf
    · exact hx.events f hf
    · exact List.mem_singleton.mp hf ▸ he
  have hreceipts : ∀ id, (d.processed id).isSome ↔
      ∃ f ∈ (noteCommit i x.2).committed, f.eventId = id := by
    rw [hnote]
    exact receipts_commit h hx.receipts
  cases h with
  | duplicate hsome =>
    -- an event with this id is already committed, and it is e itself
    obtain ⟨f, hf, hfe⟩ := (hx.receipts _).mp hsome
    obtain rfl := hid f (hx.events f hf) e he hfe
    have hsame : insert f x.2.committed.toFinset = x.2.committed.toFinset :=
      Finset.insert_eq_of_mem (List.mem_toFinset.mpr hf)
    refine ⟨hx.table, hevents, hreceipts, ?_, ?_⟩
    · rw [hset, hsame]
      exact hx.totals
    · rw [hset, hsame]
      exact hx.hourly
  | ignored hnone hnf =>
    obtain ⟨ht, hh⟩ := reference_insert_notFound links (E := x.2.committed.toFinset) hnf
    exact ⟨hx.table, hevents, hreceipts, by rw [hset, ht]; exact hx.totals,
      by rw [hset, hh]; exact hx.hourly⟩
  | aggregated hnone hnf hk hb =>
    have hnew : e ∉ x.2.committed.toFinset := by
      intro hm
      have := (hx.receipts e.eventId).mpr ⟨e, List.mem_toFinset.mp hm, rfl⟩
      simp [hnone] at this
    rw [hx.table, links.selectIdByCode_eq (hcode e he hnf)] at hk
    refine ⟨hx.table, hevents, hreceipts, ?_, ?_⟩
    · rw [hset, referenceTotals_insert hnew hnf hk, ← hx.totals]
    · rw [hset, referenceHourly_insert hnew hnf hk hb, ← hx.hourly]

end Projection

omit [DecidableEq Tid] in
theorem writers_host {links : ShortLinksTable} {E : Finset AccessEvent}
    (hid : ∀ e ∈ E, ∀ f ∈ E, e.eventId = f.eventId → e = f)
    (hcode : ∀ e ∈ E, e.result ≠ .notFound → links.HasCode e.code) {e : AccessEvent} (he : e ∈ E)
    (src : AccessEventSourcePosition) (i : Tid) :
    Hosts (writerDiscipline links E) noteCommit i e src fun x => x.2.running i = some e where
  effect hx hrun h :=
    ⟨projected_commit hid hcode he hx hrun h,
      fun _ _ => rfl, h.receipts_grow⟩
  ready h hrun := h.1.trans hrun
  receipt h := h.2 _

theorem writers_verified {links : ShortLinksTable} {E : Finset AccessEvent}
    (hid : ∀ e ∈ E, ∀ f ∈ E, e.eventId = f.eventId → e = f)
    (hcode : ∀ e ∈ E, e.result ≠ .notFound → links.HasCode e.code) :
    (@writers Tid _ E).Verified ((writerDiscipline links E).protocol Stmt.Reply)
      (fun i w => w.store.session i = none) (fun i _ w => w.store.session i = none) := by
  -- bookkeeping about who runs what is invisible to the invariant and to other writers
  have bookkeeping : ∀ {w : WriterWorld Tid} {i e},
      ((writerDiscipline links E).protocol Stmt.Reply).inv w →
      Projected links E (w.store.db, w.ghost.setRunning i e) ∧
        ∀ j, j ≠ i → (w.ghost.setRunning i e).running j = w.ghost.running j :=
    fun hi => ⟨⟨hi.table, hi.events, hi.receipts, hi.totals, hi.hourly⟩,
      fun j hj => by simp [Calls.setRunning, hj]⟩
  constructor
  · exact fun h hr => hr.1.trans h
  · rintro i ⟨e, src⟩ w w' hi hidle ⟨he, rfl⟩
    obtain ⟨hinv, hothers⟩ := bookkeeping (i := i) (e := some e) hi
    refine ⟨⟨hinv, fun _ _ => rfl, hothers, fun _ h => h⟩, ?_⟩
    refine safe_mono (process_safe (writers_host hid hcode he src i) ?_ hidle)
      fun _ _ _ h => h.1
    simp [World.snap, Calls.setRunning]
  · rintro i a w w' hi hpost rfl
    obtain ⟨hinv, hothers⟩ := bookkeeping (i := i) (e := none) hi
    exact ⟨⟨hinv, fun _ _ => rfl, hothers, fun _ h => h⟩, hpost⟩
  · rintro i w w' hi rfl
    obtain ⟨hinv, hothers⟩ := bookkeeping (i := i) (e := none) hi
    exact ⟨⟨hinv, fun _ hj => setSession_of_ne _ _ hj, hothers, fun _ h => h⟩,
      setSession_self ..⟩
  · exact fun _ h => h.elim

omit [DecidableEq Tid] in
theorem initial_projected (links : ShortLinksTable) (E : Finset AccessEvent) :
    Projected links E (initialWorld links : WriterWorld Tid).snap := by
  refine ⟨rfl, ?_, ?_, ?_, ?_⟩ <;>
    simp [World.snap, initialWorld, Db.empty, funext_iff, referenceTotals, referenceHourly,
      aggregatedFor, summary]

/-- At every moment the tables are the reference of the events committed so far. -/
theorem tables_project {links : ShortLinksTable} {E : Finset AccessEvent}
    (hid : ∀ e ∈ E, ∀ f ∈ E, e.eventId = f.eventId → e = f)
    (hcode : ∀ e ∈ E, e.result ≠ .notFound → links.HasCode e.code)
    {s : Pool Tid (WriterWorld Tid) (SqlOp Stmt) _ _}
    (hs : (writers E).Reachable (initialWorld links) s) :
    Projected links E (s.world.store.db, s.world.ghost) :=
  ((writers_verified hid hcode).reachable (initial_projected links E) (fun _ => rfl) hs).1

/-- Effectively-once statistics: once every event of E has a committed call, the tables are
the reference computed from E as a set. -/
theorem statistics_effectively_once (links : ShortLinksTable) (E : Finset AccessEvent)
    (hvalid : ∀ e ∈ E, isValidAccessEvent e)
    (hid : ∀ e ∈ E, ∀ f ∈ E, e.eventId = f.eventId → e = f)
    (hcode : ∀ e ∈ E, e.result ≠ .notFound → links.HasCode e.code)
    (s : Pool Tid (WriterWorld Tid) (SqlOp Stmt) _ _)
    (hs : (writers E).Reachable (initialWorld links) s)
    (hall : ∀ e ∈ E, e ∈ s.world.ghost.committed) :
    s.world.store.db.totals = referenceTotals links E ∧
      s.world.store.db.hourly = referenceHourly links E ∧
      ∀ k r, (s.world.store.db.totals (k, r)).elim 0 TotalsRow.accessCount =
        ∑ᶠ b, (s.world.store.db.hourly (k, b, r)).getD 0 := by
  have hp := tables_project hid hcode hs
  have hE : s.world.ghost.committed.toFinset = E := by
    ext e
    exact ⟨fun h => hp.events e (List.mem_toFinset.mp h), fun h => List.mem_toFinset.mpr (hall e h)⟩
  have htotals : s.world.store.db.totals = referenceTotals links E := hE ▸ hp.totals
  have hhourly : s.world.store.db.hourly = referenceHourly links E := hE ▸ hp.hourly
  refine ⟨htotals, hhourly, ?_⟩
  intro k r
  rw [htotals, hhourly]
  exact referenceTotals_eq_sum (fun e he => isValidAccessEvent_occurred (hvalid e he)) k r

/-- One link and two accesses of it, in two hours. -/
def demoLinks : ShortLinksTable := ⟨[⟨1, some (ascii "a")⟩], by decide, by simp⟩
def demoEvent : AccessEvent :=
  ⟨ascii "0123456789abcdef0123456789abcdef", 3723000, ascii "r", ascii "a", .success, 302⟩
def demoLater : AccessEvent :=
  ⟨ascii "fedcba9876543210fedcba9876543210", 7323000, ascii "s", ascii "a", .success, 302⟩
def demoSource (offset : ℤ) : AccessEventSourcePosition := ⟨ascii "access", 0, offset⟩

def demoCounted (d : Db) (e : AccessEvent) (offset bucket : ℤ) : Db :=
  { d with
    processed := Function.update (Function.update d.processed e.eventId
      (some ⟨ascii "access", 0, offset, e.occurredAtMs, ascii "received"⟩)) e.eventId
      (some ⟨ascii "access", 0, offset, e.occurredAtMs, ascii "aggregated"⟩)
    totals := Function.update d.totals (1, ascii "success")
      (some (TotalsRow.upsert (d.totals (1, ascii "success")) e.occurredAtMs e.occurredAtMs))
    hourly := Function.update d.hourly (1, bucket, ascii "success")
      (some (hourlyUpsert (d.hourly (1, bucket, ascii "success")))) }

def demoOnce : Db := demoCounted (Db.empty demoLinks) demoEvent 0 3600
def demoTwice : Db := demoCounted demoOnce demoLater 2 7200

def demoWorld (d : Db) (running : Option AccessEvent) (committed : List AccessEvent) :
    WriterWorld Unit :=
  ⟨⟨d, fun _ => none⟩, ⟨fun _ => running, committed⟩⟩

abbrev DemoCalls (e : AccessEvent) (offset : ℤ) (d : Db) (committed : List AccessEvent)
    (r : Except WriterException AccessStatisticsWriteResult) (d' : Db)
    (committed' : List AccessEvent) : Prop :=
  CallSeq (WorldStep exec noteCommit) () (process e (demoSource offset)).run
    (demoWorld d (some e) committed) (.ret r) (demoWorld d' (some e) committed')

/-- The link cannot be read, and what the transaction has written is rolled back. -/
theorem demo_failed : DemoCalls demoEvent 0 (Db.empty demoLinks) []
    (.error (.database (ascii "gone"))) (Db.empty demoLinks) [] := by
  refine .call (.ok ()) (.of (.start rfl)) ?_
  refine .call (.ok (1 : ℕ)) (.of (.statement rfl)) ?_
  refine .call (.error (.database (ascii "gone"))) (.of (.failed (by simp))) ?_
  exact .call (.ok ()) (.of .rollback) (.done _ _)

theorem demo_counted : DemoCalls demoEvent 0 (Db.empty demoLinks) [] (.ok .aggregated) demoOnce
    [demoEvent] := by
  refine .call (.ok ()) (.of (.start rfl)) ?_
  refine .call (.ok (1 : ℕ)) (.of (.statement rfl)) ?_
  refine .call (.ok (some 1)) (.of (.statement rfl)) ?_
  refine .call (.ok (1 : ℕ)) (.of (.statement rfl)) ?_
  refine .call (.ok (1 : ℕ)) (.of (.statement rfl)) ?_
  refine .call (.ok (1 : ℕ)) (.of (.statement rfl)) ?_
  exact .call (.ok ()) (.of (.commit rfl
    ⟨_, rfl, _, rfl, _, rfl, _, rfl, _, rfl, rfl⟩)) (.done _ _)

theorem demo_repeated : DemoCalls demoEvent 1 demoOnce [demoEvent] (.ok .duplicate) demoOnce
    [demoEvent, demoEvent] := by
  refine .call (.ok ()) (.of (.start rfl)) ?_
  refine .call (.ok (0 : ℕ)) (.of (.statement rfl)) ?_
  exact .call (.ok ()) (.of (.commit rfl ⟨_, rfl, rfl⟩)) (.done _ _)

theorem demo_later : DemoCalls demoLater 2 demoOnce [demoEvent, demoEvent] (.ok .aggregated)
    demoTwice [demoEvent, demoEvent, demoLater] := by
  refine .call (.ok ()) (.of (.start rfl)) ?_
  refine .call (.ok (1 : ℕ)) (.of (.statement rfl)) ?_
  refine .call (.ok (some 1)) (.of (.statement rfl)) ?_
  refine .call (.ok (2 : ℕ)) (.of (.statement rfl)) ?_
  refine .call (.ok (1 : ℕ)) (.of (.statement rfl)) ?_
  refine .call (.ok (1 : ℕ)) (.of (.statement rfl)) ?_
  exact .call (.ok ()) (.of (.commit rfl
    ⟨_, rfl, _, rfl, _, rfl, _, rfl, _, rfl, rfl⟩)) (.done _ _)

/-- A failed call, the event counted, the event again and one of the next hour: a run of any
machine whose calls are those of the writer. -/
theorem demo_run {M : Machine Unit (WriterWorld Unit) (SqlOp Stmt)
    (fun op => Except WriterException (op.Reply Stmt.Reply))
    (Except WriterException AccessStatisticsWriteResult) (AccessEvent × AccessEventSourcePosition)}
    (hstep : M.step = WorldStep exec noteCommit)
    (hprog : ∀ e src, M.prog () (e, src) = (process e src).run)
    (hstart : ∀ e ∈ [demoEvent, demoLater], ∀ src d committed,
      M.start () (e, src) (demoWorld d none committed) (demoWorld d (some e) committed))
    (hfinish : ∀ r e d committed,
      M.finish () r (demoWorld d (some e) committed) (demoWorld d none committed)) :
    M.Reachable (initialWorld demoLinks)
      ⟨demoWorld demoTwice none [demoEvent, demoEvent, demoLater], fun _ => none⟩ := by
  have hcall : ∀ e ∈ [demoEvent, demoLater], ∀ offset d committed r d' committed',
      DemoCalls e offset d committed r d' committed' →
      M.Reachable (initialWorld demoLinks) ⟨demoWorld d none committed, fun _ => none⟩ →
      M.Reachable (initialWorld demoLinks) ⟨demoWorld d' none committed', fun _ => none⟩ := by
    intro e he offset d committed r d' committed' hcalls hs
    refine hs.job rfl (hstart e he (demoSource offset) d committed) ?_ (hfinish r e d' committed')
    rw [hprog, hstep]
    exact hcalls
  have hfailed := hcall _ (by simp) _ _ _ _ _ _ demo_failed .init
  have honce := hcall _ (by simp) _ _ _ _ _ _ demo_counted hfailed
  have hrepeated := hcall _ (by simp) _ _ _ _ _ _ demo_repeated honce
  exact hcall _ (by simp) _ _ _ _ _ _ demo_later hrepeated

theorem demo_reachable : (writers {demoEvent, demoLater}).Reachable (initialWorld demoLinks)
    ⟨demoWorld demoTwice none [demoEvent, demoEvent, demoLater], fun _ => none⟩ := by
  refine demo_run rfl (fun _ _ => rfl) ?_ fun _ _ _ _ => rfl
  intro e he src d committed
  exact ⟨by simpa using he, rfl⟩

theorem statistics_effectively_once_demo :
    demoTwice.totals = referenceTotals demoLinks {demoEvent, demoLater} ∧
      demoTwice.hourly = referenceHourly demoLinks {demoEvent, demoLater} ∧
      ∀ k r, (demoTwice.totals (k, r)).elim 0 TotalsRow.accessCount =
        ∑ᶠ b, (demoTwice.hourly (k, b, r)).getD 0 := by
  refine statistics_effectively_once demoLinks {demoEvent, demoLater} (by decide) (by decide) ?_ _
    demo_reachable (by simp [demoWorld])
  intro e he _
  refine ⟨⟨1, some (ascii "a")⟩, by simp [demoLinks], ?_⟩
  rcases Finset.mem_insert.mp he with rfl | he
  · rfl
  · rw [Finset.mem_singleton.mp he]
    rfl

end StatisticsProjection
