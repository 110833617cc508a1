import HaoShortLink.CachedLinks
import HaoShortLink.MySqlShortLinks

/-! Lifecycle updates that fail. The UPDATE commits before the row is read back, so a failure in
between, the loss of its reply among them, leaves the change in the table and the old record in
the cache. -/
namespace FailedUpdates

open Cpp ShortLinks Program RedisCaches CachedLinks MySqlShortLinks
open RedisStores (Connection Store)

section Calls

variable (isDatetime : ℤ → Bool) (fails : ℕ → Option (Failure RepositoryException))

/-- One call of updateLifecycle whose n-th step fails where fails says so. -/
def runUpdate (code : Bytes) (update : LifecycleUpdate) (now : ℤ) (t : LinksTable) :
    Except RepositoryException (Option ShortLinkRecord) × LinksTable :=
  (MySqlShortLinks.updateLifecycle code update).run.alone (answer isDatetime now) fails 0 t

/-- The other methods do not matter here. -/
def repository (others : ShortLinkRepository LinksTable) : ShortLinkRepository LinksTable :=
  { others with updateLifecycle := runUpdate isDatetime fails }

/-- Reading the row back from the n-th step on does not come to its end. -/
def Interrupted (n : ℕ) (row : LinkRow) : Prop :=
  fails n ≠ none ∨ fails (n + 1) ≠ none ∨ fails (n + 2) ≠ none ∨ parseStatus row.status = none

/-- There is an UPDATE, and it takes effect. -/
structure Applies (update : LifecycleUpdate) (set : Assignments) : Prop where
  asked : assignments update = some set
  connected : fails 0 = none
  executed : ∀ failure ∈ fails 1, failure.executed
  accepted : set.expiresAt.all fun expiresAt => expiresAt.all isDatetime

/-- The UPDATE takes effect and changes the row, and its reply is lost or reading the row back is
interrupted. -/
def ChangesUnseen (code : Bytes) (update : LifecycleUpdate) (now : ℤ) (t : LinksTable) : Prop :=
  ∃ set row, Applies isDatetime fails update set ∧ t.rowOf code = some row ∧
    row.selected code (update.ownerId.getD 0) ∧ set.apply now row ≠ row ∧
      (fails 1 ≠ none ∨ Interrupted fails 2 (set.apply now row))

end Calls

variable {isDatetime : ℤ → Bool} {fails : ℕ → Option (Failure RepositoryException)}
  {code : Bytes} {update : LifecycleUpdate} {now : ℤ} {t : LinksTable}

theorem readRecord_cases (isDatetime : ℤ → Bool)
    (fails : ℕ → Option (Failure RepositoryException)) (now : ℤ) (t : LinksTable) (row : LinkRow)
    (n : ℕ) :
    ∃ r, (some <$> readRecord row).run.alone (answer isDatetime now) fails n t = (r, t) ∧
      ((fails n ≠ none ∨ parseStatus row.status = none) ∧ (∃ e, r = .error e) ∨
        ¬ (fails n ≠ none ∨ parseStatus row.status = none) ∧ ∃ record, r = .ok (some record)) := by
  rw [readRecord, map_bind]
  cases hn : fails n with
  | some failure =>
    rw [alone_failed hn]
    simp only [answer, ite_self]
    exact ⟨_, rfl, .inl ⟨.inl (by simp), failure.error, rfl⟩⟩
  | none =>
    rw [alone_answered hn rfl]
    cases hstatus : parseStatus row.status with
    | none => exact ⟨_, rfl, .inl ⟨.inr rfl, _, rfl⟩⟩
    | some status => exact ⟨_, rfl, .inr ⟨by simp, _, rfl⟩⟩

theorem readBack_cases (isDatetime : ℤ → Bool) (fails : ℕ → Option (Failure RepositoryException))
    (now : ℤ) (t : LinksTable) (code : Bytes) (ownerId n : ℕ) :
    ∃ r, (readBack code ownerId).run.alone (answer isDatetime now) fails n t = (r, t) ∧
      ∀ row, t.selectByCode code ownerId = some row →
        (Interrupted fails n row ∧ ∃ e, r = .error e) ∨
        (¬ Interrupted fails n row ∧ ∃ record, r = .ok (some record)) := by
  rw [readBack]
  cases hn : fails n with
  | some failure =>
    rw [alone_failed hn]
    simp only [answer, ite_self]
    exact ⟨_, rfl, fun row _ => .inl ⟨.inl (by simp [hn]), failure.error, rfl⟩⟩
  | none =>
    rw [alone_answered hn rfl]
    cases hnext : fails (n + 1) with
    | some failure =>
      rw [alone_failed hnext]
      simp only [answer, ite_self]
      exact ⟨_, rfl, fun row _ => .inl ⟨.inr (.inl (by simp [hnext])), failure.error, rfl⟩⟩
    | none =>
      rw [alone_answered hnext rfl]
      cases hrow : t.selectByCode code ownerId with
      | none => exact ⟨_, rfl, fun row h => by cases h⟩
      | some found =>
        obtain ⟨r, hrun, hread⟩ := readRecord_cases isDatetime fails now t found (n + 2)
        refine ⟨r, hrun, ?_⟩
        intro row h
        obtain rfl := Option.some.inj h
        simpa only [Interrupted, hn, hnext, ne_eq, not_true_eq_false, false_or] using hread

/-- Without an UPDATE that takes effect the table is left alone; after it the reply is lost, or
the row is read back. -/
theorem runUpdate_cases (isDatetime : ℤ → Bool) (fails : ℕ → Option (Failure RepositoryException))
    (code : Bytes) (update : LifecycleUpdate) (now : ℤ) (t : LinksTable) :
    ((∀ set, ¬ Applies isDatetime fails update set) ∧
      (runUpdate isDatetime fails code update now t).2 = t) ∨
    ∃ set, Applies isDatetime fails update set ∧
      ((fails 1 ≠ none ∧ ∃ e, runUpdate isDatetime fails code update now t =
          (.error e, t.update set now code (update.ownerId.getD 0))) ∨
        (fails 1 = none ∧ runUpdate isDatetime fails code update now t =
          (readBack code (update.ownerId.getD 0)).run.alone (answer isDatetime now) fails 2
            (t.update set now code (update.ownerId.getD 0)))) := by
  rw [runUpdate, MySqlShortLinks.updateLifecycle]
  cases h0 : fails 0 with
  | some failure =>
    rw [alone_failed h0]
    simp only [answer, ite_self]
    exact .inl ⟨fun set h => (by cases h0.symm.trans h.connected), trivial⟩
  | none =>
    rw [alone_answered h0 rfl]
    cases hset : assignments update with
    | none =>
      obtain ⟨r, hrun, _⟩ := readBack_cases isDatetime fails now t code (update.ownerId.getD 0) 1
      refine .inl ⟨fun set h => (by cases hset.symm.trans h.asked), ?_⟩
      simp only [hrun]
    | some set =>
      by_cases hdate : set.expiresAt.all fun expiresAt => expiresAt.all isDatetime
      · obtain ⟨affected, hanswer⟩ := answer_update now t code (update.ownerId.getD 0) hdate
        cases h1 : fails 1 with
        | some failure =>
          have hfailed : (call (.execute (.update set code (update.ownerId.getD 0))) >>=
                fun _ => readBack code (update.ownerId.getD 0)).run.alone
                (answer isDatetime now) fails 1 t =
              (.error failure.error, if failure.executed then
                t.update set now code (update.ownerId.getD 0) else t) := by
            rw [alone_failed h1, hanswer]
          by_cases hexecuted : failure.executed
          · refine .inr ⟨set, ⟨hset, h0, by simpa [h1] using hexecuted, hdate⟩, .inl ⟨by simp, ?_⟩⟩
            rw [if_pos hexecuted] at hfailed
            exact ⟨failure.error, hfailed⟩
          · rw [if_neg hexecuted] at hfailed
            refine .inl ⟨fun _ h => hexecuted (h.executed failure h1), congrArg Prod.snd hfailed⟩
        | none =>
          exact .inr ⟨set, ⟨hset, h0, by simp [h1], hdate⟩, .inr ⟨rfl, alone_answered h1 hanswer⟩⟩
      · obtain ⟨e, hanswer⟩ := answer_refused now t code (update.ownerId.getD 0) hdate
        refine .inl ⟨fun set' h => hdate ?_, ?_⟩
        · obtain rfl := Option.some.inj (hset.symm.trans h.asked)
          exact h.accepted
        · cases h1 : fails 1 with
          | some failure =>
            refine (congrArg Prod.snd (alone_failed h1)).trans ?_
            rw [hanswer]
            exact ite_self t
          | none => exact congrArg Prod.snd (alone_refused h1 hanswer)

theorem updateRow_of_selected {set : Assignments} {row : LinkRow} {ownerId : ℕ}
    (h : row.selected code ownerId) :
    LinksTable.updateRow set now code ownerId row = set.apply now row := if_pos h

theorem changesUnseen_iff {set : Assignments} {row : LinkRow}
    (happlies : Applies isDatetime fails update set) (hrow : t.rowOf code = some row) :
    ChangesUnseen isDatetime fails code update now t ↔
      row.selected code (update.ownerId.getD 0) ∧ set.apply now row ≠ row ∧
        (fails 1 ≠ none ∨ Interrupted fails 2 (set.apply now row)) := by
  constructor
  · rintro ⟨set', row', happlies', hrow', h⟩
    obtain rfl := Option.some.inj (happlies.asked.symm.trans happlies'.asked)
    obtain rfl := Option.some.inj (hrow.symm.trans hrow')
    exact h
  · exact fun h => ⟨set, row, happlies, hrow, h⟩

theorem select_updated {set : Assignments} {row : LinkRow} {ownerId : ℕ}
    (hrow : t.rowOf code = some row) (h : row.selected code ownerId) :
    (t.update set now code ownerId).selectByCode code ownerId = some (set.apply now row) := by
  rw [LinksTable.selectByCode_eq, LinksTable.rowOf_update, hrow, Option.map_some,
    updateRow_of_selected h, Option.filter_some, apply_ownerId, if_pos]
  exact (Bool.and_eq_true_iff.mp h).2

/-- A call leaves the row as it was, or changes it and throws, or changes it and returns it. -/
theorem runUpdate_row (isDatetime : ℤ → Bool) (fails : ℕ → Option (Failure RepositoryException))
    (code : Bytes) (update : LifecycleUpdate) (now : ℤ) (t : LinksTable) :
    (¬ ChangesUnseen isDatetime fails code update now t ∧
      (runUpdate isDatetime fails code update now t).2.rowOf code = t.rowOf code) ∨
    ((runUpdate isDatetime fails code update now t).2.rowOf code ≠ t.rowOf code ∧
      ((ChangesUnseen isDatetime fails code update now t ∧
        ∃ e, (runUpdate isDatetime fails code update now t).1 = .error e) ∨
      (¬ ChangesUnseen isDatetime fails code update now t ∧
        ∃ record, (runUpdate isDatetime fails code update now t).1 = .ok (some record)))) := by
  rcases runUpdate_cases isDatetime fails code update now t with ⟨hno, hsame⟩ |
    ⟨set, happlies, hrun⟩
  · exact .inl ⟨fun ⟨set, _, h, _⟩ => hno set h, by rw [hsame]⟩
  have hafter : ∃ r, runUpdate isDatetime fails code update now t =
        (r, t.update set now code (update.ownerId.getD 0)) ∧
      ∀ row, t.rowOf code = some row → row.selected code (update.ownerId.getD 0) →
        ((fails 1 ≠ none ∨ Interrupted fails 2 (set.apply now row)) ∧ ∃ e, r = .error e) ∨
        (¬ (fails 1 ≠ none ∨ Interrupted fails 2 (set.apply now row)) ∧
          ∃ record, r = .ok (some record)) := by
    rcases hrun with ⟨hlost, e, hrun⟩ | ⟨hanswered, hrun⟩
    · exact ⟨_, hrun, fun row _ _ => .inl ⟨.inl hlost, e, rfl⟩⟩
    · obtain ⟨r, hread, hfound⟩ := readBack_cases isDatetime fails now
        (t.update set now code (update.ownerId.getD 0)) code (update.ownerId.getD 0) 2
      refine ⟨r, hrun.trans hread, ?_⟩
      intro row hrow hselected
      simpa only [hanswered, ne_eq, not_true_eq_false, false_or] using
        hfound _ (select_updated hrow hselected)
  obtain ⟨r, hrun, hfound⟩ := hafter
  rw [hrun, LinksTable.rowOf_update]
  cases hrow : t.rowOf code with
  | none =>
    refine .inl ⟨fun ⟨_, _, _, h, _⟩ => ?_, rfl⟩
    cases hrow.symm.trans h
  | some row =>
    rw [changesUnseen_iff happlies hrow, Option.map_some]
    by_cases hselected : row.selected code (update.ownerId.getD 0)
    · rw [updateRow_of_selected hselected]
      by_cases hchange : set.apply now row = row
      · exact .inl ⟨fun h => h.2.1 hchange, by rw [hchange]⟩
      · refine .inr ⟨fun h => hchange (Option.some.inj h), ?_⟩
        rcases hfound row hrow hselected with ⟨hunseen, he⟩ | ⟨hseen, hrecord⟩
        · exact .inl ⟨⟨hselected, hchange, hunseen⟩, he⟩
        · exact .inr ⟨fun h => hseen h.2.2, hrecord⟩
    · refine .inl ⟨fun h => hselected h.1, ?_⟩
      rw [LinksTable.updateRow, if_neg hselected]

variable {cache : RedisShortLinkCache}

theorem cachedUpdate_cases (isDatetime : ℤ → Bool)
    (fails : ℕ → Option (Failure RepositoryException)) (others : ShortLinkRepository LinksTable)
    (cache : RedisShortLinkCache) (code : Bytes) (update : LifecycleUpdate) (now : ℤ) (io : Io)
    (s : Cached LinksTable) :
    let s' := (CachedLinks.updateLifecycle (repository isDatetime fails others) cache code update
      now io s).2
    s'.source = (runUpdate isDatetime fails code update now s.source).2 ∧
      ((∃ record, (runUpdate isDatetime fails code update now s.source).1 = .ok (some record)) →
        s'.store = (cache.erase code io.erase s.store).2) := by
  simp only [CachedLinks.updateLifecycle, repository]
  rcases runUpdate isDatetime fails code update now s.source with ⟨result, source⟩
  cases result with
  | error e =>
    refine ⟨rfl, ?_⟩
    rintro ⟨_, h⟩
    cases h
  | ok answer =>
    cases answer with
    | none =>
      refine ⟨rfl, ?_⟩
      rintro ⟨_, h⟩
      cases h
    | some record => exact ⟨rfl, fun _ => rfl⟩

theorem erase_done {code : Bytes} {reply : Connection} {store : Store}
    (h : reply ≠ .unreachable) : (cache.erase code reply store).2 (cache.key code) = none := by
  cases reply with
  | unreachable => exact absurd rfl h
  | replyLost => exact Function.update_self ..
  | working => exact Function.update_self ..

/-- An update that throws has changed nothing, and one that has changed the row has deleted the
entry, exactly unless the row was changed and then the call has failed. -/
theorem failed_update_changes_nothing_iff {io : Io} (herase : io.erase ≠ .unreachable)
    (isDatetime : ℤ → Bool) (fails : ℕ → Option (Failure RepositoryException))
    (others : ShortLinkRepository LinksTable) (cache : RedisShortLinkCache) (code : Bytes)
    (update : LifecycleUpdate) (now : ℤ) (s : Cached LinksTable) :
    ((∀ e, (runUpdate isDatetime fails code update now s.source).1 = .error e →
        (runUpdate isDatetime fails code update now s.source).2.rowOf code =
          s.source.rowOf code) ∧
      let s' := (CachedLinks.updateLifecycle (repository isDatetime fails others) cache code update
        now io s).2
      (s'.source.rowOf code ≠ s.source.rowOf code → s'.store (cache.key code) = none)) ↔
    ¬ ChangesUnseen isDatetime fails code update now s.source := by
  obtain ⟨hsource, hstore⟩ := cachedUpdate_cases isDatetime fails others cache code update now io s
  simp only [hsource]
  rcases runUpdate_row isDatetime fails code update now s.source with ⟨hno, hsame⟩ |
    ⟨hchanged, ⟨hunseen, e, he⟩ | ⟨hno, hrecord⟩⟩
  · exact iff_of_true ⟨fun _ _ => hsame, fun h => absurd hsame h⟩ hno
  · exact iff_of_false (fun h => hchanged (h.1 e he)) (not_not_intro hunseen)
  · refine iff_of_true ⟨fun e he => ?_, fun _ => ?_⟩ hno
    · obtain ⟨record, hrecord⟩ := hrecord
      cases he.symm.trans hrecord
    · rw [hstore hrecord]
      exact erase_done herase

def demoTable : LinksTable where
  rows := [⟨1, 7, some (ascii "docs"), ascii "https://a.example", ascii "active", none, 0, 0⟩]
  distinct := List.pairwise_singleton _ _

def demoRecord : ShortLinkRecord :=
  ⟨1, 7, ascii "docs", ascii "https://a.example", .active, none, 0, 0⟩

def demoStore : Store :=
  ((RedisShortLinkCache.new {}).set demoRecord .working 0 fun _ => none).2

def disable : LifecycleUpdate := ⟨some .disabled, false, none, some 7⟩

def lost : RepositoryException := .std (.runtimeError (ascii "Lost connection to MySQL server"))

def failsAt (n : ℕ) (executed : Bool) : ℕ → Option (Failure RepositoryException) := fun k =>
  if k = n then some ⟨lost, executed⟩ else none

/-- A repository of which only updates are used. -/
def updatesOnly : ShortLinkRepository LinksTable where
  create _ _ _ _ _ t := (.error lost, t)
  findByCode _ _ := .error lost
  findByCodeForOwner _ _ _ := .error lost
  defaultLookupSource := .mysql
  list _ _ := .error lost
  updateLifecycle _ _ _ t := (.error lost, t)

def demoUpdate (fails : ℕ → Option (Failure RepositoryException)) :
    Except RepositoryException (Option ShortLinkRecord) × Cached LinksTable :=
  CachedLinks.updateLifecycle (repository (fun _ => true) fails updatesOnly) (.new {})
    (ascii "docs") disable 5 demoIo ⟨demoTable, demoStore⟩

/-- The UPDATE fails and is not executed. -/
theorem failed_update_changes_nothing_demo :
    (∀ e, (runUpdate (fun _ => true) (failsAt 1 false) (ascii "docs") disable 5 demoTable).1 =
        .error e →
      (runUpdate (fun _ => true) (failsAt 1 false) (ascii "docs") disable 5 demoTable).2.rowOf
        (ascii "docs") = demoTable.rowOf (ascii "docs")) ∧
    ((demoUpdate (failsAt 1 false)).2.source.rowOf (ascii "docs") ≠
        demoTable.rowOf (ascii "docs") →
      (demoUpdate (failsAt 1 false)).2.store
        ((RedisShortLinkCache.new {}).key (ascii "docs")) = none) := by
  refine (failed_update_changes_nothing_iff (show demoIo.erase ≠ .unreachable by decide)
    (fun _ => true) (failsAt 1 false) updatesOnly (.new {}) (ascii "docs") disable 5
    ⟨demoTable, demoStore⟩).mpr ?_
  rintro ⟨set, row, happlies, _⟩
  exact absurd (happlies.executed ⟨lost, false⟩ rfl) (by decide)

/-- The caller sees an error, the link is disabled, and the cache still has it as it was. -/
def StaleAfterError (fails : ℕ → Option (Failure RepositoryException)) : Prop :=
  (demoUpdate fails).1 = .error lost ∧
  (demoUpdate fails).2.source.rowOf (ascii "docs") =
    some ⟨1, 7, some (ascii "docs"), ascii "https://a.example", ascii "disabled", none, 0, 5⟩ ∧
  (demoUpdate fails).2.source.rowOf (ascii "docs") ≠ demoTable.rowOf (ascii "docs") ∧
  ((RedisShortLinkCache.new {}).get (ascii "docs") .working .working 1000
    (demoUpdate fails).2.store).1 = some demoRecord

/-- The SELECT after the UPDATE fails, or the reply to the UPDATE itself is lost. -/
theorem read_back_lost : StaleAfterError (failsAt 2 false) ∧ StaleAfterError (failsAt 1 true) :=
  ⟨⟨by decide, by decide, by decide, by decide⟩, ⟨by decide, by decide, by decide, by decide⟩⟩

end FailedUpdates
