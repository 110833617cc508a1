import HaoShortLink.ConsumerConfigs
import HaoShortLink.RetryLoops

/-! How long the consumer waits between its attempts to persist an event or to publish it as a dead
letter, and how often it tries. -/
namespace RetryBackoffs

open Cpp Program CallTraces RetryLoops AccessEvents DeadLetters ConsumerConfigs
open AccessEventConsumer hiding ConsumerConfig
open AccessStatisticsWriter (WriterException AccessEventSourcePosition AccessStatisticsWriteResult
  process)
open JsonValues (JsonLibrary)

/-- The delay before the try after the k-th failed one, counted from 0. -/
def backoff (initialMs maximumMs : ℤ) (k : ℕ) : ℤ := min (initialMs * 2 ^ k) maximumMs

variable {initialMs maximumMs : ℤ}

theorem nextRetryDelayMs_eq (delayMs maximumMs : ℤ) :
    nextRetryDelayMs delayMs maximumMs = min (delayMs * 2) maximumMs := by
  rw [nextRetryDelayMs]
  split <;> omega

theorem backoff_zero (h : initialMs ≤ maximumMs) : backoff initialMs maximumMs 0 = initialMs := by
  rw [backoff, pow_zero, mul_one, min_eq_left h]

theorem backoff_pos (hinitial : 1 ≤ initialMs) (h : initialMs ≤ maximumMs) (k : ℕ) :
    1 ≤ backoff initialMs maximumMs k := by
  have hpow : (0 : ℤ) < 2 ^ k := pow_pos (by decide) k
  exact le_min (one_le_mul_of_one_le_of_one_le hinitial hpow) (hinitial.trans h)

/-- Capping before the doubling is the same as capping after it. -/
theorem nextRetryDelayMs_backoff (hinitial : 1 ≤ initialMs) (h : initialMs ≤ maximumMs) (k : ℕ) :
    nextRetryDelayMs (backoff initialMs maximumMs k) maximumMs =
      backoff initialMs maximumMs (k + 1) := by
  rw [nextRetryDelayMs_eq, backoff, backoff, pow_succ, ← mul_assoc]
  generalize initialMs * 2 ^ k = doubled
  omega

/-- Neither the subtraction nor a doubling that takes place leaves the signed int. -/
theorem nextRetryDelayMs_isInt32 {delayMs : ℤ} (hdelay : 1 ≤ delayMs) (h : delayMs ≤ maximumMs)
    (hmaximum : maximumMs ≤ 2 ^ 31 - 1) :
    IsInt32 (maximumMs - delayMs) ∧
      (delayMs < maximumMs - delayMs → IsInt32 (delayMs * 2)) := by
  unfold IsInt32
  omega

def sleepOf (c : (op : ConsumerOp) × op.Answer) : Option ℤ :=
  match c.1 with
  | .sleepFor milliseconds => some milliseconds
  | _ => none

def sleeps (l : Trace ConsumerOp.Answer) : List ℤ := l.filterMap sleepOf

/-- The loop of persistWithRetry: after each sleep it reconnects, and what is then thrown is only
logged when it is a std::exception. -/
def persistLoop (event : AccessEvent) (source : AccessEventSourcePosition) :
    Loop ConsumerOp.Answer (Except WriterException AccessStatisticsWriteResult)
      (Except WriterException AccessStatisticsWriteResult) where
  tries := Yields (writing (process event source)).run
  again outcome := ∃ error, outcome = .error error ∧ isStdException error ∧
    ∀ code, error ≠ .orphanShortLinkEvent code
  pause d p := ∃ answer : Except WriterException Unit,
    p = [⟨.sleepFor d, ()⟩, ⟨.reconnect, answer⟩] ∧ ∀ e, answer = .error e → isStdException e
  left d p result := ∃ e : WriterException,
    p = [⟨.sleepFor d, ()⟩, ⟨.reconnect, (.error e : Except WriterException Unit)⟩] ∧
      isStdException e = false ∧ result = .error e
  ends outcome result := result = outcome

def publishLoop (json : JsonLibrary) (record : DeadLetterRecord) :
    Loop ConsumerOp.Answer (Except WriterException Bool) (Except WriterException Unit) where
  tries := Yields (publish json record).run
  again outcome := outcome = .ok false
  pause d p := p = [⟨.sleepFor d, ()⟩]
  left _ _ _ := False
  ends outcome result :=
    match outcome with
    | .ok true => result = .ok ()
    | .ok false => result =
        .error (.std (.runtimeError (ascii "failed to publish access event to DLQ")))
    | .error e => result = .error e

variable {l : Trace ConsumerOp.Answer}

theorem yields_sleepFor {milliseconds : ℤ} {r : Except WriterException Unit}
    (h : Yields (sleepFor milliseconds).run l r) :
    l = [⟨.sleepFor milliseconds, ()⟩] ∧ r = .ok () := by
  obtain ⟨_, rfl, rfl⟩ := yields_perform.mp h
  exact ⟨rfl, rfl⟩

theorem yields_reconnect {r : Except WriterException Unit} (h : Yields reconnect.run l r) :
    l = [⟨.reconnect, r⟩] := by
  obtain ⟨_, _, rfl, rfl, rfl⟩ := h
  rfl

theorem yields_reconnecting {r : Except WriterException Unit}
    (h : Yields (tryCatch reconnect fun reconnectError => do
      if isStdException reconnectError then pure () else throw reconnectError).run l r) :
    (∃ answer : Except WriterException Unit, l = [⟨.reconnect, answer⟩] ∧
      (∀ e, answer = .error e → isStdException e) ∧ r = .ok ()) ∨
    ∃ e : WriterException, l = [⟨.reconnect, (.error e : Except WriterException Unit)⟩] ∧
      isStdException e = false ∧ r = .error e := by
  rcases yields_catch.mp h with ⟨a, hok, rfl⟩ | ⟨e, l₁, l₂, rfl, herror, hhandled⟩
  · refine .inl ⟨.ok a, yields_reconnect hok, ?_, rfl⟩
    intro e he
    cases he
  · obtain rfl := yields_reconnect herror
    by_cases hstd : isStdException e
    · rw [if_pos hstd] at hhandled
      obtain ⟨rfl, rfl⟩ := hhandled
      refine .inl ⟨.error e, rfl, ?_, rfl⟩
      intro e' he
      rwa [← Except.error.inj he]
    · rw [if_neg hstd] at hhandled
      obtain ⟨rfl, rfl⟩ := hhandled
      exact .inr ⟨e, rfl, Bool.eq_false_of_not_eq_true hstd, rfl⟩

variable {config : AccessEventConsumer.ConsumerConfig}

def persistAgain (config : AccessEventConsumer.ConsumerConfig) (event : AccessEvent)
    (source : AccessEventSourcePosition) (remaining : ℕ) (delayMs : ℤ) :
    Consumer AccessStatisticsWriteResult := do
  sleepFor delayMs
  tryCatch reconnect fun reconnectError => do
    if isStdException reconnectError then pure () else throw reconnectError
  persistAttempts config event source remaining (nextRetryDelayMs delayMs config.retryMaxMs)

theorem persistAttempts_step {event : AccessEvent} {source : AccessEventSourcePosition}
    {remaining : ℕ} {delayMs : ℤ} {r : Except WriterException AccessStatisticsWriteResult}
    (h : Yields (persistAttempts config event source (remaining + 1) delayMs).run l r) :
    Yields (writing (process event source)).run l r ∨
    remaining ≠ 0 ∧ ∃ e l₁ l₂, l = l₁ ++ l₂ ∧
      Yields (writing (process event source)).run l₁ (.error e) ∧
      (isStdException e ∧ ∀ code, e ≠ .orphanShortLinkEvent code) ∧
      Yields (persistAgain config event source remaining delayMs).run l₂ r := by
  rcases yields_catch.mp h with ⟨a, hok, rfl⟩ | ⟨e, l₁, l₂, rfl, herror, hhandled⟩
  · exact .inl hok
  · by_cases hagain : (isStdException e ∧ ∀ code, e ≠ .orphanShortLinkEvent code) ∧ remaining ≠ 0
    · obtain ⟨⟨hstd, horphan⟩, hremaining⟩ := hagain
      refine .inr ⟨hremaining, e, l₁, l₂, rfl, herror, ⟨hstd, horphan⟩, ?_⟩
      cases e with
      | orphanShortLinkEvent code => exact absurd rfl (horphan code)
      | _ => rwa [if_neg (by simp [hstd, hremaining])] at hhandled
    · have hstop (horphan : ∀ code, e ≠ .orphanShortLinkEvent code) :
          (!isStdException e || decide (remaining = 0)) = true := by
        by_cases hstd : isStdException e
        · have hzero : remaining = 0 := by
            by_contra hremaining
            exact hagain ⟨⟨hstd, horphan⟩, hremaining⟩
          simp [hzero]
        · simp [hstd]
      have hthrown : Yields (throw e : Consumer AccessStatisticsWriteResult).run l₂ r := by
        cases e with
        | orphanShortLinkEvent code => exact hhandled
        | _ => rwa [if_pos (hstop (by simp))] at hhandled
      obtain ⟨rfl, rfl⟩ := hthrown
      rw [List.append_nil]
      exact .inl herror

theorem persistAttempts_runs {event : AccessEvent} {source : AccessEventSourcePosition}
    (remaining : ℕ) {delayMs : ℤ} {r : Except WriterException AccessStatisticsWriteResult}
    (h : Yields (persistAttempts config event source (remaining + 1) delayMs).run l r) :
    ∃ os ds, (persistLoop event source).Runs l os ds r ∧ os.length ≤ remaining + 1 ∧
      ds.length ≤ remaining ∧
      ds = delaysFrom (nextRetryDelayMs · config.retryMaxMs) ds.length delayMs := by
  induction remaining generalizing delayMs l with
  | zero =>
    rcases persistAttempts_step h with htry | ⟨hne, -⟩
    · exact ⟨[r], [], .last htry rfl, le_refl 1, le_refl 0, rfl⟩
    · exact absurd rfl hne
  | succ remaining ih =>
    rcases persistAttempts_step h with htry | ⟨-, e, l₁, l₂, rfl, herror, hagain, hrest⟩
    · exact ⟨[r], [], .last htry rfl, by simp, by simp, rfl⟩
    · rcases yields_client_bind.mp hrest with ⟨e', hsleep, rfl⟩ | ⟨_, l₃, l₄, rfl, hsleep, hafter⟩
      · cases (yields_sleepFor hsleep).2
      · obtain ⟨rfl, -⟩ := yields_sleepFor hsleep
        rcases yields_client_bind.mp hafter with
          ⟨e', hreconnect, rfl⟩ | ⟨_, l₅, l₆, rfl, hreconnect, hnext⟩
        · rcases yields_reconnecting hreconnect with ⟨_, -, -, hr⟩ | ⟨e'', rfl, hforeign, hr⟩
          · cases hr
          · obtain rfl := Except.error.inj hr
            exact ⟨[.error e], [delayMs], .left herror ⟨e, rfl, hagain⟩ ⟨_, rfl, hforeign, rfl⟩,
              by simp, by simp, rfl⟩
        · rcases yields_reconnecting hreconnect with ⟨answer, rfl, hanswer, -⟩ | ⟨_, -, -, hr⟩
          · obtain ⟨os, ds, hruns, hos, hds, hdelays⟩ := ih hnext
            have hall := Loop.Runs.next (L := persistLoop event source) herror ⟨e, rfl, hagain⟩
              (d := delayMs) ⟨answer, rfl, hanswer⟩ hruns
            refine ⟨.error e :: os, delayMs :: ds, hall, Nat.succ_le_succ hos,
              Nat.succ_le_succ hds, ?_⟩
            rw [List.length_cons, delaysFrom, ← hdelays]
          · cases hr

theorem publishAttempts_step {json : JsonLibrary} {record : DeadLetterRecord} {remaining : ℕ}
    {delayMs : ℤ} {r : Except WriterException Unit}
    (h : Yields (publishAttempts json config record (remaining + 1) delayMs).run l r) :
    (∃ outcome, Yields (publish json record).run l outcome ∧
      (publishLoop json record).ends outcome r) ∨
    remaining ≠ 0 ∧ ∃ l₁ l₂, l = l₁ ++ l₂ ∧ Yields (publish json record).run l₁ (.ok false) ∧
      Yields (do
        sleepFor delayMs
        publishAttempts json config record remaining
          (nextRetryDelayMs delayMs config.retryMaxMs)).run l₂ r := by
  rcases yields_client_bind.mp h with ⟨e, htry, rfl⟩ | ⟨published, l₁, l₂, rfl, htry, hrest⟩
  · exact .inl ⟨.error e, htry, rfl⟩
  · cases published with
    | true =>
      obtain ⟨rfl, rfl⟩ := hrest
      rw [List.append_nil]
      exact .inl ⟨.ok true, htry, rfl⟩
    | false =>
      rw [if_neg (by decide)] at hrest
      by_cases hremaining : remaining = 0
      · subst hremaining
        obtain ⟨rfl, rfl⟩ := hrest
        rw [List.append_nil]
        exact .inl ⟨.ok false, htry, rfl⟩
      · rw [if_neg hremaining] at hrest
        exact .inr ⟨hremaining, l₁, l₂, rfl, htry, hrest⟩

theorem publishAttempts_runs {json : JsonLibrary} {record : DeadLetterRecord} (remaining : ℕ)
    {delayMs : ℤ} {r : Except WriterException Unit}
    (h : Yields (publishAttempts json config record (remaining + 1) delayMs).run l r) :
    ∃ os ds, (publishLoop json record).Runs l os ds r ∧ os.length ≤ remaining + 1 ∧
      ds.length ≤ remaining ∧
      ds = delaysFrom (nextRetryDelayMs · config.retryMaxMs) ds.length delayMs := by
  induction remaining generalizing delayMs l with
  | zero =>
    rcases publishAttempts_step h with ⟨o, htry, hends⟩ | ⟨hne, -⟩
    · exact ⟨[o], [], .last htry hends, le_refl 1, le_refl 0, rfl⟩
    · exact absurd rfl hne
  | succ remaining ih =>
    rcases publishAttempts_step h with ⟨o, htry, hends⟩ | ⟨-, l₁, l₂, rfl, htry, hrest⟩
    · exact ⟨[o], [], .last htry hends, by simp, by simp, rfl⟩
    · rcases yields_client_bind.mp hrest with ⟨e, hsleep, rfl⟩ | ⟨_, l₃, l₄, rfl, hsleep, hnext⟩
      · cases (yields_sleepFor hsleep).2
      · obtain ⟨rfl, -⟩ := yields_sleepFor hsleep
        obtain ⟨os, ds, hruns, hos, hds, hdelays⟩ := ih hnext
        refine ⟨.ok false :: os, delayMs :: ds, .next htry rfl rfl hruns, Nat.succ_le_succ hos,
          Nat.succ_le_succ hds, ?_⟩
        rw [List.length_cons, delaysFrom, ← hdelays]

def NoSleep (op : ConsumerOp) : Prop := ∀ milliseconds, op ≠ .sleepFor milliseconds

theorem sleeps_eq_nil (h : ∀ c ∈ l, NoSleep c.1) : sleeps l = [] := by
  rw [sleeps, List.filterMap_eq_nil_iff]
  rintro ⟨op, answer⟩ hc
  cases op with
  | sleepFor milliseconds => exact absurd rfl (h _ hc milliseconds)
  | _ => rfl

theorem persistLoop_sleeps {event : AccessEvent} {source : AccessEventSourcePosition}
    {os : List (Except WriterException AccessStatisticsWriteResult)} {ds : List ℤ}
    {r : Except WriterException AccessStatisticsWriteResult}
    (h : (persistLoop event source).Runs l os ds r) : sleeps l = ds := by
  refine h.filterMap_eq ?_ ?_ ?_
  · intro l o htry
    have hsql (op : Transaction.SqlOp StatisticsSchema.Stmt) : NoSleep (.sql op) := by
      intro milliseconds hop
      cases hop
    exact sleeps_eq_nil (asks_yields (asks_lift _ hsql) htry)
  · rintro d _ ⟨answer, rfl, -⟩
    rfl
  · rintro d _ _ ⟨e, rfl, -⟩
    rfl

theorem publish_asks (json : JsonLibrary) (record : DeadLetterRecord) :
    (publish json record).run.Asks NoSleep := by
  refine asks_client_bind (asks_perform (by intro _ hop; cases hop)) ?_
  intro failedAtMs
  split
  · exact trivial
  · refine asks_client_bind (asks_perform (by intro _ hop; cases hop)) ?_
    intro result
    split
    · exact trivial
    · exact asks_client_bind (asks_perform (by intro _ hop; cases hop)) fun _ => trivial

theorem publishLoop_sleeps {json : JsonLibrary} {record : DeadLetterRecord}
    {os : List (Except WriterException Bool)} {ds : List ℤ} {r : Except WriterException Unit}
    (h : (publishLoop json record).Runs l os ds r) : sleeps l = ds := by
  refine h.filterMap_eq ?_ ?_ ?_
  · intro l o htry
    exact sleeps_eq_nil (asks_yields (publish_asks json record) htry)
  · rintro d _ rfl
    rfl
  · intro d p r hleft
    exact hleft.elim

/-- A run with these outcomes of its tries backs off: as many tries as the settings allow, all but
the last failed, and between two of them the next delay. -/
structure BacksOff {ρ β : Type} (c : ConsumerConfig) (L : Loop ConsumerOp.Answer ρ β)
    (l : Trace ConsumerOp.Answer) (r : β) (outcomes : List ρ) : Prop where
  runs : L.Runs l outcomes (sleeps l) r
  attempts : outcomes.length ≤ c.processingMaxAttempts
  /-- The counter of the loop goes one further than its last round. -/
  counter : IsInt32 (outcomes.length + 1)
  stops : ∀ o ∈ outcomes.dropLast, L.again o
  between : (sleeps l).length + 1 = outcomes.length ∨ ∃ d p, p <:+ l ∧ L.left d p r
  beforeLast : (sleeps l).length < c.processingMaxAttempts
  delays : sleeps l =
    (List.range (sleeps l).length).map (backoff c.retryInitialMs c.retryMaxMs)

variable {c : ConsumerConfig}

theorem backsOff_of_runs {ρ β : Type} {L : Loop ConsumerOp.Answer ρ β} {r : β} {os : List ρ}
    {ds : List ℤ} {remaining : ℕ} (hbounds : RetryBounds c)
    (hmax : c.processingMaxAttempts < 2 ^ 31 - 1)
    (hattempts : c.processingMaxAttempts.toNat = remaining + 1) (hruns : L.Runs l os ds r)
    (hos : os.length ≤ remaining + 1) (hds : ds.length ≤ remaining) (hsleeps : sleeps l = ds)
    (hdelays : ds = delaysFrom (nextRetryDelayMs · c.retryMaxMs) ds.length c.retryInitialMs) :
    BacksOff c L l r os := by
  subst hsleeps
  refine ⟨hruns, by omega, ?_, hruns.again_before_last, ?_, by omega, ?_⟩
  · unfold IsInt32
    omega
  · rcases hruns.sleeps_between with hlength | ⟨-, hleft⟩
    · exact .inl hlength
    · exact .inr hleft
  · have hnext := delaysFrom_eq (nextRetryDelayMs · c.retryMaxMs)
      (nextRetryDelayMs_backoff hbounds.initial hbounds.ordered) (sleeps l).length 0
    rw [backoff_zero hbounds.ordered] at hnext
    refine hdelays.trans (hnext.trans (List.map_congr_left ?_))
    intro k _
    rw [Nat.zero_add]

/-- For every configuration that is accepted, and whatever the calls are answered, the delays are
the doubled first one up to the longest, computed within an int, and each loop stops at its first
success or after the attempts it has. -/
theorem retries_back_off {path : Bytes} {content : Option Bytes} {config : ConsumerConfig}
    (h : loadConsumerConfig path content = .ok config)
    (hmax : config.processingMaxAttempts < 2 ^ 31 - 1) :
    (1 ≤ config.retryInitialMs ∧ config.retryInitialMs ≤ config.retryMaxMs ∧
      config.retryMaxMs ≤ 2 ^ 31 - 1) ∧
    (∀ k, let delayMs := backoff config.retryInitialMs config.retryMaxMs k
      nextRetryDelayMs delayMs config.retryMaxMs =
          backoff config.retryInitialMs config.retryMaxMs (k + 1) ∧
        IsInt32 delayMs ∧ IsInt32 (config.retryMaxMs - delayMs) ∧
        (delayMs < config.retryMaxMs - delayMs → IsInt32 (delayMs * 2))) ∧
    (∀ event message l r,
      Yields (persistWithRetry config.handling event message).run l r → ∃ outcomes,
        BacksOff config (persistLoop event ⟨config.topic, message.partition, message.offset⟩) l r
          outcomes) ∧
    ∀ json message reason l r,
      Yields (publishToDeadLetter json config.handling message reason).run l r → ∃ outcomes,
        BacksOff config (publishLoop json ⟨config.topic, message.partition, message.offset,
          message.key, message.payload, reason⟩) l r outcomes := by
  have hbounds := retryBounds h
  obtain ⟨remaining, hattempts⟩ : ∃ remaining, config.processingMaxAttempts.toNat = remaining + 1 :=
    ⟨config.processingMaxAttempts.toNat - 1, by have := hbounds.attempts; omega⟩
  refine ⟨⟨hbounds.initial, hbounds.ordered, hbounds.maximum⟩, ?_, ?_, ?_⟩
  · intro k
    have hpos := backoff_pos hbounds.initial hbounds.ordered k
    have hle : backoff config.retryInitialMs config.retryMaxMs k ≤ config.retryMaxMs :=
      min_le_right _ _
    obtain ⟨hdifference, hdouble⟩ := nextRetryDelayMs_isInt32 hpos hle hbounds.maximum
    refine ⟨nextRetryDelayMs_backoff hbounds.initial hbounds.ordered k, ?_, hdifference, hdouble⟩
    have hmaximum := hbounds.maximum
    unfold IsInt32
    omega
  · intro event message l r hrun
    rw [persistWithRetry, ConsumerConfig.handling, hattempts] at hrun
    obtain ⟨os, ds, hruns, hos, hds, hdelays⟩ := persistAttempts_runs remaining hrun
    exact ⟨os, backsOff_of_runs hbounds hmax hattempts hruns hos hds (persistLoop_sleeps hruns)
      hdelays⟩
  · intro json message reason l r hrun
    rw [publishToDeadLetter, ConsumerConfig.handling, hattempts] at hrun
    obtain ⟨os, ds, hruns, hos, hds, hdelays⟩ := publishAttempts_runs remaining hrun
    exact ⟨os, backsOff_of_runs hbounds hmax hattempts hruns hos hds (publishLoop_sleeps hruns)
      hdelays⟩

/-- An event that the writer refuses each time. -/
def demoEvent : AccessEvent := ⟨[], 0, [], [], .success, 302⟩

def demoMessage : KafkaMessage := ⟨0, 0, [], []⟩

def demoPause (milliseconds : ℤ) : Trace ConsumerOp.Answer :=
  [⟨.sleepFor milliseconds, ()⟩, ⟨.reconnect, (.ok () : Except WriterException Unit)⟩]

def demoRun : Trace ConsumerOp.Answer :=
  demoPause 100 ++ demoPause 200 ++ demoPause 400 ++ demoPause 800

def demoResult : Except WriterException AccessStatisticsWriteResult :=
  .error (.std (.invalidArgument (ascii "cannot persist invalid access event")))

theorem demoConfig_loaded : loadConsumerConfig [] (some []) = .ok {} := by decide

theorem demoRun_yields :
    Yields (persistWithRetry (ConsumerConfig.handling {}) demoEvent demoMessage).run demoRun
      demoResult :=
  ⟨(), _, rfl, .ok (), _, rfl, (), _, rfl, .ok (), _, rfl, (), _, rfl, .ok (), _, rfl, (), _, rfl,
    .ok (), _, rfl, rfl, rfl⟩

theorem retries_back_off_demo : nextRetryDelayMs (backoff 100 5000 5) 5000 = backoff 100 5000 6 ∧
    backoff 100 5000 6 = 5000 ∧ sleeps demoRun = [100, 200, 400, 800] ∧ ∃ outcomes,
      BacksOff {} (persistLoop demoEvent ⟨ascii "hao-shortlink.access-events.v1", 0, 0⟩) demoRun
        demoResult outcomes := by
  obtain ⟨-, hdelays, hpersist, -⟩ := retries_back_off demoConfig_loaded (by decide)
  exact ⟨(hdelays 5).1, by decide, by decide, hpersist _ _ _ _ demoRun_yields⟩

end RetryBackoffs
