import HaoShortLink.StatisticsSchema

/-! The idempotent statistics transaction (MySqlAccessStatisticsWriter.cpp). -/
namespace AccessStatisticsWriter

open Cpp Program Transaction StatisticsSchema
open AccessEvents
open AccessStatistics (isAggregatedAccessResult utcHourBucketStartEpochSeconds)

structure AccessEventSourcePosition where
  topic : Bytes
  partition : ℤ
  offset : ℤ
  deriving DecidableEq, Repr

inductive AccessStatisticsWriteResult where
  | aggregated
  | duplicate
  | ignoredNotFound
  deriving DecidableEq, Repr

inductive WriterException where
  | std (e : Exception)
  | database (what : Bytes)
  | orphanShortLinkEvent (code : Bytes)
  deriving DecidableEq, Repr

abbrev Writer := SqlClient Stmt.Reply WriterException

def validateSource (source : AccessEventSourcePosition) : Except Exception Unit :=
  if source.topic.isEmpty || source.topic.length > 249 || source.partition < 0 ||
      source.offset < 0 then
    .error (.invalidArgument (ascii "invalid Kafka source position"))
  else .ok ()

def liftStd {α : Type} : Except Exception α → Writer α
  | .ok a => pure a
  | .error e => throw (.std e)

theorem liftStd_ok_bind {α β : Type} (a : α) (f : α → Writer β) :
    (liftStd (.ok a) >>= f) = f a := rfl
theorem liftStd_error_bind {α β : Type} (e : Exception) (f : α → Writer β) :
    (liftStd (.error e) >>= f) = throw (.std e) := rfl

/-- The statements between START TRANSACTION and the catch-all handler. -/
def processBody (event : AccessEvent) (source : AccessEventSourcePosition) :
    Writer AccessStatisticsWriteResult := do
  let inserted : ℕ ← execute (Stmt.insertIgnoreProcessed event.eventId source.topic source.partition
    source.offset event.occurredAtMs)
  if inserted = 0 then
    commit
    pure .duplicate
  else if event.result = .notFound then
    let _ ← execute (Stmt.updateDisposition (ascii "not_found_ignored") event.eventId)
    commit
    pure .ignoredNotFound
  else if !isAggregatedAccessResult event.result then
    throw (.std (.invalidArgument (ascii "unsupported access statistics result")))
  else
    let shortLinkResult : Option ℕ ← execute (Stmt.selectLinkId event.code)
    match shortLinkResult with
    | none => throw (.orphanShortLinkEvent event.code)
    | some shortLinkId =>
      let result := accessEventResultToString event.result
      let bucketStart ← liftStd (utcHourBucketStartEpochSeconds event.occurredAtMs)
      let _ ← execute (Stmt.upsertTotals shortLinkId result event.occurredAtMs event.occurredAtMs)
      let _ ← execute (Stmt.upsertHourly shortLinkId bucketStart result)
      let _ ← execute (Stmt.updateDisposition (ascii "aggregated") event.eventId)
      commit
      pure .aggregated

def process (event : AccessEvent) (source : AccessEventSourcePosition) :
    Writer AccessStatisticsWriteResult := do
  if !isValidAccessEvent event then
    throw (.std (.invalidArgument (ascii "cannot persist invalid access event")))
  else
    liftStd (validateSource source)
    startTransaction
    tryCatch (processBody event source) fun error => do
      -- a failed ROLLBACK is logged and swallowed
      tryCatch rollback fun _ => pure ()
      throw error

inductive CallEffect (event : AccessEvent) (source : AccessEventSourcePosition) : Db → Db → Prop
  | duplicate {d} : (d.processed event.eventId).isSome → CallEffect event source d d
  | ignored {d p} : d.processed event.eventId = none → event.result = .notFound →
      CallEffect event source d { d with
        processed := Function.update d.processed event.eventId (some p) }
  | aggregated {d p k b} : d.processed event.eventId = none → event.result ≠ .notFound →
      d.shortLinks.selectIdByCode event.code = some k →
      utcHourBucketStartEpochSeconds event.occurredAtMs = .ok b →
      CallEffect event source d { d with
        processed := Function.update d.processed event.eventId (some p)
        totals := Function.update d.totals (k, accessEventResultToString event.result)
          (some (TotalsRow.upsert (d.totals (k, accessEventResultToString event.result))
            event.occurredAtMs event.occurredAtMs))
        hourly := Function.update d.hourly (k, b, accessEventResultToString event.result)
          (some (hourlyUpsert (d.hourly (k, b, accessEventResultToString event.result)))) }

theorem validateSource_ok {source : AccessEventSourcePosition}
    (h : validateSource source = .ok ()) : 0 ≤ source.partition ∧ 0 ≤ source.offset := by
  unfold validateSource at h
  split at h
  · cases h
  · rename_i hc
    simp only [Bool.or_eq_true, decide_eq_true_eq, not_or] at hc
    omega

section Effects

variable {event : AccessEvent} {source : AccessEventSourcePosition} {d d' : Db}

theorem exec_insert {n : ℕ} (hv : isValidAccessEvent event)
    (hs : validateSource source = .ok ())
    (h : exec (.insertIgnoreProcessed event.eventId source.topic source.partition source.offset
      event.occurredAtMs) d = some (n, d')) :
    (n = 0 ∧ d' = d ∧ (d.processed event.eventId).isSome) ∨
      (n ≠ 0 ∧ d.processed event.eventId = none ∧ ∃ p, d' = { d with
        processed := Function.update d.processed event.eventId (some p) }) := by
  -- the CHECKs that INSERT IGNORE would swallow hold of every validated call
  have hchecks : (ProcessedRow.mk source.topic source.partition source.offset event.occurredAtMs
      (ascii "received")).checks = true := by
    obtain ⟨hp, ho⟩ := validateSource_ok hs
    have ht := isValidAccessEvent_occurred hv
    simp [ProcessedRow.checks, hp, ho, ht]
  simp only [exec, hchecks, Bool.not_true, Bool.or_false] at h
  split at h
  · rename_i hsome
    obtain ⟨rfl, rfl⟩ := Prod.mk.inj (Option.some.inj h)
    exact .inl ⟨rfl, rfl, hsome⟩
  · rename_i hnone
    obtain ⟨rfl, rfl⟩ := Prod.mk.inj (Option.some.inj h)
    exact .inr ⟨Nat.one_ne_zero, by simpa using hnone, _, rfl⟩

theorem exec_updateDisposition {n : ℕ} {disposition id : Bytes} {p : ProcessedRow}
    (hp : d.processed id = some p)
    (h : exec (.updateDisposition disposition id) d = some (n, d')) :
    ∃ q, d' = { d with processed := Function.update d.processed id (some q) } := by
  simp only [exec, hp] at h
  split at h
  · obtain ⟨-, rfl⟩ := Prod.mk.inj (Option.some.inj h)
    exact ⟨_, rfl⟩
  · cases h

theorem exec_select {code : Bytes} {r : Option ℕ}
    (h : exec (.selectLinkId code) d = some (r, d')) :
    r = d.shortLinks.selectIdByCode code ∧ d' = d := by
  obtain ⟨rfl, rfl⟩ := Prod.mk.inj (Option.some.inj h)
  exact ⟨rfl, rfl⟩

theorem exec_upsertTotals {n k : ℕ} {r : Bytes} {a b : ℤ}
    (h : exec (.upsertTotals k r a b) d = some (n, d')) :
    d' = { d with totals :=
      Function.update d.totals (k, r) (some (TotalsRow.upsert (d.totals (k, r)) a b)) } := by
  simp only [exec] at h
  split at h
  · exact (Prod.mk.inj (Option.some.inj h)).2.symm
  · cases h

theorem exec_upsertHourly {n k : ℕ} {r : Bytes} {b : ℤ}
    (h : exec (.upsertHourly k b r) d = some (n, d')) :
    d' = { d with hourly :=
      Function.update d.hourly (k, b, r) (some (hourlyUpsert (d.hourly (k, b, r)))) } := by
  simp only [exec] at h
  split at h
  · exact (Prod.mk.inj (Option.some.inj h)).2.symm
  · cases h

abbrev insertEntry (event : AccessEvent) (source : AccessEventSourcePosition) (n : ℕ) :
    Entry Stmt.Reply :=
  ⟨.insertIgnoreProcessed event.eventId source.topic source.partition source.offset
    event.occurredAtMs, n⟩

theorem duplicate_effect (hv : isValidAccessEvent event) (hs : validateSource source = .ok ())
    (h : Replays exec [insertEntry event source 0] d d') : CallEffect event source d d' := by
  obtain ⟨d₁, h₁, rfl⟩ := h
  rcases exec_insert hv hs h₁ with ⟨-, rfl, hsome⟩ | ⟨hne, -⟩
  · exact .duplicate hsome
  · exact absurd rfl hne

theorem ignored_effect {n m : ℕ} (hv : isValidAccessEvent event)
    (hs : validateSource source = .ok ()) (hn : n ≠ 0) (hr : event.result = .notFound)
    (h : Replays exec [insertEntry event source n,
      ⟨.updateDisposition (ascii "not_found_ignored") event.eventId, m⟩] d d') :
    CallEffect event source d d' := by
  obtain ⟨d₁, h₁, d₂, h₂, rfl⟩ := h
  rcases exec_insert hv hs h₁ with ⟨rfl, -⟩ | ⟨-, hnone, p, rfl⟩
  · exact absurd rfl hn
  · obtain ⟨q, rfl⟩ := exec_updateDisposition (p := p) (by simp) h₂
    have heffect : CallEffect event source d _ := .ignored (p := q) hnone hr
    simpa using heffect

theorem aggregated_effect {n m₁ m₂ m₃ k : ℕ} {b : ℤ} (hv : isValidAccessEvent event)
    (hs : validateSource source = .ok ()) (hn : n ≠ 0) (hr : event.result ≠ .notFound)
    (hb : utcHourBucketStartEpochSeconds event.occurredAtMs = .ok b)
    (h : Replays exec [insertEntry event source n, ⟨.selectLinkId event.code, some k⟩,
      ⟨.upsertTotals k (accessEventResultToString event.result) event.occurredAtMs
        event.occurredAtMs, m₁⟩,
      ⟨.upsertHourly k b (accessEventResultToString event.result), m₂⟩,
      ⟨.updateDisposition (ascii "aggregated") event.eventId, m₃⟩] d d') :
    CallEffect event source d d' := by
  obtain ⟨d₁, h₁, d₂, h₂, d₃, h₃, d₄, h₄, d₅, h₅, rfl⟩ := h
  rcases exec_insert hv hs h₁ with ⟨rfl, -⟩ | ⟨-, hnone, p, rfl⟩
  · exact absurd rfl hn
  · obtain ⟨hk, rfl⟩ := exec_select h₂
    obtain rfl := exec_upsertTotals h₃
    obtain rfl := exec_upsertHourly h₄
    obtain ⟨q, rfl⟩ := exec_updateDisposition (p := p) (by simp) h₅
    have heffect : CallEffect event source d _ := .aggregated (p := q) hnone hr hk.symm hb
    simpa using heffect

theorem CallEffect.receipt (h : CallEffect event source d d') :
    (d'.processed event.eventId).isSome := by
  cases h with
  | duplicate h => exact h
  | ignored => simp
  | aggregated => simp

theorem CallEffect.receipts_grow (h : CallEffect event source d d') (id : Bytes)
    (hi : (d.processed id).isSome) : (d'.processed id).isSome := by
  by_cases hid : id = event.eventId
  · subst hid
    exact h.receipt
  · cases h with
    | duplicate => exact hi
    | ignored => simpa [hid] using hi
    | aggregated => simpa [hid] using hi

end Effects

/-- What a pool must offer for process to be safe in it: the effect of one committed call keeps
the invariant and the guarantee, and receipts are never taken back. -/
structure Hosts {Tid G : Type} (C : Discipline Tid Db G) (note : Tid → G → G) (i : Tid)
    (event : AccessEvent) (source : AccessEventSourcePosition) (Ready : Db × G → Prop) :
    Prop where
  effect : ∀ {x d}, C.inv x → Ready x → CallEffect event source x.1 d →
    C.inv (d, note i x.2) ∧ C.guar i x (d, note i x.2)
  ready : ∀ {x y}, C.rely i x y → Ready x → Ready y
  receipt : ∀ {x y}, C.rely i x y → (x.1.processed event.eventId).isSome →
    (y.1.processed event.eventId).isSome

section Safety

variable {Tid G : Type} [DecidableEq Tid] {C : Discipline Tid Db G} {note : Tid → G → G}
  {i : Tid} {event : AccessEvent} {source : AccessEventSourcePosition} {Ready : Db × G → Prop}

/-- After a call the session is closed, and a call that returned has left a receipt. -/
def Finished (i : Tid) (event : AccessEvent)
    (r : Except WriterException AccessStatisticsWriteResult)
    (w : World Tid Db Stmt.Reply G) : Prop :=
  w.store.session i = none ∧ ∀ a, r = .ok a → (w.store.db.processed event.eventId).isSome

private theorem commit_result {l : List (Entry Stmt.Reply)} {w : World Tid Db Stmt.Reply G}
    {res : AccessStatisticsWriteResult} (H : Hosts C note i event source Ready)
    (hready : Ready w.snap) (hl : w.store.session i = some l)
    (heff : ∀ d d', Replays exec l d d' → CallEffect event source d d') :
    Safe (C.protocol Stmt.Reply) (WorldStep exec note) i
      (fun r w => ∀ a, r = .ok a → Finished i event r w)
      (do commit; pure res : Writer AccessStatisticsWriteResult).run w := by
  apply safe_client_bind
  apply safe_commit hl
  · intro x d hr hi hrep
    exact H.effect hi (H.ready hr hready) (heff _ _ hrep)
  · intro x d w₁ _ _ hrep hs hr
    apply safe_pure
    rintro w₂ ⟨hs₂, hr₂⟩ _ a _
    exact ⟨hs₂.trans hs, fun _ _ => H.receipt (C.trans i hr hr₂) (heff _ _ hrep).receipt⟩
  · intro e w₁
    exact safe_throw fun _ _ _ _ ha => nomatch ha

private theorem fails {e : WriterException} {w : World Tid Db Stmt.Reply G} :
    Safe (C.protocol Stmt.Reply) (WorldStep exec note) i
      (fun r w => ∀ a, r = .ok a → Finished i event r w)
      (throw e : Writer AccessStatisticsWriteResult).run w :=
  safe_throw fun _ _ _ _ ha => nomatch ha

theorem processBody_safe (H : Hosts C note i event source Ready)
    (hv : isValidAccessEvent event) (hsrc : validateSource source = .ok ())
    {w : World Tid Db Stmt.Reply G} (hready : Ready w.snap)
    (hs : w.store.session i = some []) :
    Safe (C.protocol Stmt.Reply) (WorldStep exec note) i
      (fun r w => ∀ a, r = .ok a → Finished i event r w) (processBody event source).run w := by
  apply safe_client_bind
  refine safe_execute hs ?_ fun _ _ => fails
  intro (n : ℕ) w₁ hs₁ hr₁
  have hready₁ := H.ready hr₁ hready
  by_cases hn : n = 0
  · simp only [if_pos hn]
    subst hn
    exact commit_result H hready₁ hs₁ fun _ _ => duplicate_effect hv hsrc
  simp only [if_neg hn]
  by_cases hnf : event.result = .notFound
  · simp only [if_pos hnf]
    apply safe_client_bind
    refine safe_execute hs₁ ?_ fun _ _ => fails
    intro m w₂ hs₂ hr₂
    exact commit_result H (H.ready hr₂ hready₁) hs₂ fun _ _ => ignored_effect hv hsrc hn hnf
  simp only [if_neg hnf, (AccessStatistics.isAggregated_iff _).mpr hnf, Bool.not_true,
    Bool.false_eq_true, if_false]
  apply safe_client_bind
  refine safe_execute hs₁ ?_ fun _ _ => fails
  rintro (_ | k) w₂ hs₂ hr₂
  · exact fails
  have hready₂ := H.ready hr₂ hready₁
  cases hb : utcHourBucketStartEpochSeconds event.occurredAtMs with
  | error e =>
    simp only [liftStd_error_bind]
    exact fails
  | ok b =>
    simp only [liftStd_ok_bind]
    apply safe_client_bind
    refine safe_execute hs₂ ?_ fun _ _ => fails
    intro m₁ w₃ hs₃ hr₃
    apply safe_client_bind
    refine safe_execute hs₃ ?_ fun _ _ => fails
    intro m₂ w₄ hs₄ hr₄
    apply safe_client_bind
    refine safe_execute hs₄ ?_ fun _ _ => fails
    intro m₃ w₅ hs₅ hr₅
    exact commit_result H (H.ready hr₅ (H.ready hr₄ (H.ready hr₃ hready₂))) hs₅
      fun _ _ => aggregated_effect hv hsrc hn hnf hb

/-- process keeps any discipline that hosts it, whatever fails and whoever runs beside it. -/
theorem process_safe (H : Hosts C note i event source Ready) {w : World Tid Db Stmt.Reply G}
    (hready : Ready w.snap) (hs : w.store.session i = none) :
    Safe (C.protocol Stmt.Reply) (WorldStep exec note) i (Finished i event)
      (process event source).run w := by
  unfold process
  by_cases hv : isValidAccessEvent event = true
  swap
  · simp only [hv]
    exact safe_throw fun w₁ h _ => ⟨h.1.trans hs, fun _ ha => nomatch ha⟩
  simp only [hv, Bool.not_true, Bool.false_eq_true, if_false]
  cases hsrc : validateSource source with
  | error e => exact safe_throw fun w₁ h _ => ⟨h.1.trans hs, fun _ ha => nomatch ha⟩
  | ok _ =>
    rw [liftStd_ok_bind]
    apply safe_client_bind
    apply safe_startTransaction hs
    · intro w₁ hs₁ hr₁
      apply safe_catch
      apply safe_mono (processBody_safe H hv hsrc (H.ready hr₁ hready) hs₁)
      rintro (e | a) w₂ _ hq
      · -- the handler: ROLLBACK closes the session whether it succeeds or fails
        apply safe_client_bind
        apply safe_catch
        apply safe_rollback
        rintro (e' | _) w₃ hs₃
        · exact fun w₄ h₄ _ => fun w₅ h₅ _ =>
            ⟨h₅.1.trans (h₄.1.trans hs₃), fun _ ha => nomatch ha⟩
        · exact fun w₄ h₄ _ => fun w₅ h₅ _ =>
            ⟨h₅.1.trans (h₄.1.trans hs₃), fun _ ha => nomatch ha⟩
      · obtain ⟨hs₂, hrec⟩ := hq a rfl
        exact safe_pure fun w₃ h₃ _ =>
          ⟨h₃.1.trans hs₂, fun b _ => H.receipt h₃.2 (hrec a rfl)⟩
    · intro e w₁ hs₁
      exact safe_throw fun w₂ h₂ _ => ⟨h₂.1.trans hs₁, fun _ ha => nomatch ha⟩

end Safety

end AccessStatisticsWriter
