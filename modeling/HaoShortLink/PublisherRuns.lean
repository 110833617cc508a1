import HaoShortLink.EventFormats
import HaoShortLink.PublishTallies

/-! Runs of the access event publisher: what the counters come to once its calls have returned,
what the topic holds, and how the destructor leaves it. -/
namespace PublisherRuns

open AtomicCounters (drawn)
open Cpp AccessEvents Deliveries Histories Ledgers KafkaAccessEventPublisher PublishTallies
open EventFormats
open JsonValues (JsonLibrary)
open ShortLinkCounters (AccessEventEnqueueResult)

def published : Event → Option AccessEvent
  | .publish event => some event
  | _ => none

/-- A call of publish reaches librdkafka, or fails before it. -/
def tried : Event → Option AccessEvent
  | .run (.publish event) _ => some event
  | _ => none

def waiting : Call → Option AccessEvent
  | .publish event => some event
  | _ => none

def isClientError : Event → Bool
  | .clientError _ _ => true
  | _ => false

/-- The delivery callback is run for a message that was stored, or that was not. -/
def reports (stored : Bool) : Event → Bool
  | .report _ o => decide (o = .stored) == stored
  | _ => false

def begun (lib : Librdkafka) : Event → Option Call
  | .report _ o => some (deliveryCallback lib o)
  | .clientError error reason => some (errorCallback lib error reason)
  | _ => none

section Outcomes

variable (json : JsonLibrary) (lib : Librdkafka)

def accepted : Event → Option Message
  | .run (.publish event) code => produced json event code
  | _ => none

def resultOf : Call → Option AccessEventEnqueueResult
  | .enqueued result _ _ => some result
  | _ => none

def ended : Event → Option AccessEventEnqueueResult
  | .run (.publish event) code => resultOf (enqueue json lib event code)
  | _ => none

end Outcomes

variable {json : JsonLibrary} {lib : Librdkafka} {s s' : State} {e : Event} {events : List Event}

/-- Exactly what librdkafka takes is counted as accepted, and all else as a failure. -/
theorem enqueue_spec (json : JsonLibrary) (lib : Librdkafka) (event : AccessEvent) (code : ℤ) :
    ∃ result failure sized, enqueue json lib event code = .enqueued result failure sized ∧
      (result = .accepted ↔ failure = none) ∧
      (result = .accepted ↔ (produced json event code).isSome) := by
  rw [enqueue, produced]
  cases serializeAccessEvent json event with
  | error e => exact ⟨_, _, _, rfl, by simp, by simp⟩
  | ok payload =>
    by_cases hcode : code = 0
    · exact ⟨.accepted, none, true, by simp [hcode], by simp, by simp [hcode]⟩
    · simp only [if_neg hcode]
      by_cases hfull : code = kQueueFull
      · rw [if_pos hfull]
        exact ⟨_, _, _, rfl, by simp, by simp⟩
      · rw [if_neg hfull]
        exact ⟨_, _, _, rfl, by simp, by simp⟩

theorem amount_enqueue (e : Event) (result : AccessEventEnqueueResult) :
    amount (entry json lib e) (.metric (.accessEventEnqueue result)) =
      if ended json lib e = some result then 1 else 0 := by
  cases e with
  | run c code =>
    cases c with
    | publish event =>
      obtain ⟨result', failure, sized, henqueue, -, -⟩ := enqueue_spec json lib event code
      cases failure <;>
        simp [entry, replyPosts, ended, resultOf, henqueue, todo, failurePosts]
    | _ => simp [entry, replyPosts, ended]
  | report i o => cases o <;> simp [entry, deliveryCallback, todo, failurePosts, ended]
  | _ => simp [entry, errorCallback, todo, ended]

theorem amount_enqueueFailures (e : Event) :
    amount (entry json lib e) (.failures .enqueue) =
      if (ended json lib e).any (fun result => !decide (result = .accepted)) then 1 else 0 := by
  cases e with
  | run c code =>
    cases c with
    | publish event =>
      obtain ⟨result, failure, sized, henqueue, hfailure, -⟩ := enqueue_spec json lib event code
      cases failure with
      | none =>
        simp [entry, replyPosts, ended, resultOf, henqueue, todo, failurePosts, hfailure.mpr]
      | some reason =>
        have hresult : result ≠ .accepted := fun h => by cases hfailure.mp h
        simp [entry, replyPosts, ended, resultOf, henqueue, todo, failurePosts, hresult]
    | _ => simp [entry, replyPosts, ended]
  | report i o => cases o <;> simp [entry, deliveryCallback, todo, failurePosts, ended]
  | _ => simp [entry, errorCallback, todo, ended]

theorem todo_enqueue (json : JsonLibrary) (lib : Librdkafka) (event : AccessEvent) (code : ℤ)
    {x : Counter} (hmetric : ∀ result, x ≠ .metric (.accessEventEnqueue result))
    (hstage : x ≠ .failures .enqueue) : amount (todo (enqueue json lib event code)) x = 0 := by
  obtain ⟨result, failure, sized, henqueue, -, -⟩ := enqueue_spec json lib event code
  rw [henqueue]
  cases failure <;>
    simp [todo, failurePosts, (hmetric result).symm, hstage.symm]

theorem amount_delivery (e : Event) :
    amount (entry json lib e) (.metric (.accessEventDelivery .success)) =
        (if reports true e then 1 else 0) ∧
      amount (entry json lib e) (.metric (.accessEventDelivery .failure)) =
        (if reports false e then 1 else 0) ∧
      amount (entry json lib e) (.failures .delivery) = if reports false e then 1 else 0 := by
  cases e with
  | run c code =>
    cases c with
    | publish event =>
      simp only [entry, replyPosts, reports]
      refine ⟨?_, ?_, ?_⟩ <;> exact todo_enqueue _ _ _ _ (by simp) (by simp)
    | _ => simp [entry, replyPosts, reports]
  | report i o => cases o <;> simp [entry, deliveryCallback, todo, failurePosts, reports]
  | _ => simp [entry, errorCallback, todo, reports]

theorem amount_clientFailures (e : Event) :
    amount (entry json lib e) (.failures .client) = if isClientError e then 1 else 0 := by
  cases e with
  | run c code =>
    cases c with
    | publish event => exact todo_enqueue _ _ _ _ (by simp) (by simp)
    | _ => simp [entry, replyPosts, isClientError]
  | report i o =>
    cases o <;> simp [entry, deliveryCallback, todo, failurePosts, isClientError]
  | _ => simp [entry, errorCallback, todo, isClientError]

theorem ended_accepted (e : Event) :
    ended json lib e = some .accepted ↔ (accepted json e).isSome := by
  cases e with
  | run c code =>
    cases c with
    | publish event =>
      obtain ⟨result, failure, sized, henqueue, -, hproduced⟩ := enqueue_spec json lib event code
      simp [ended, accepted, henqueue, resultOf, hproduced]
    | _ => simp [ended, accepted]
  | _ => simp [ended, accepted]

theorem ended_isSome (e : Event) : (ended json lib e).isSome = (tried e).isSome := by
  cases e with
  | run c code =>
    cases c with
    | publish event =>
      obtain ⟨result, failure, sized, henqueue, -, -⟩ := enqueue_spec json lib event code
      simp [ended, tried, henqueue, resultOf]
    | _ => simp [ended, tried]
  | _ => simp [ended, tried]

theorem ended_results (json : JsonLibrary) (lib : Librdkafka) (events : List Event) :
    events.countP (fun e => ended json lib e = some .accepted) +
        events.countP (fun e => ended json lib e = some .queueFull) +
        events.countP (fun e => ended json lib e = some .error) =
      (events.filterMap tried).length ∧
    events.countP (fun e => ended json lib e = some .queueFull) +
        events.countP (fun e => ended json lib e = some .error) =
      events.countP fun e => (ended json lib e).any fun result => !decide (result = .accepted) := by
  induction events with
  | nil => simp
  | cons e events ih =>
    obtain ⟨htried, hfailed⟩ := ih
    have hsome : (ended json lib e).isSome = (tried e).isSome := ended_isSome e
    cases hended : ended json lib e with
    | none =>
      rw [hended] at hsome
      have hnone : tried e = none := by simpa using hsome.symm
      simpa [hended, hnone] using ⟨htried, hfailed⟩
    | some result =>
      rw [hended] at hsome
      obtain ⟨event, hevent⟩ := Option.isSome_iff_exists.mp hsome.symm
      cases result <;> simp [hended, hevent] <;> omega

/-- Between callbacks the poll thread and the destructor begin a callback, or look at the size of
the queue, and take no message. -/
theorem proceed_eq (h : proceed lib s e = some s') (hserving : s.serving = none) :
    ∃ client phase serving, s' = { s with client := client, phase := phase, serving := serving } ∧
      client.taken = s.client.taken ∧ client.topic = s.client.topic ∧
      client.succeeded.card = s.client.succeeded.card + (if reports true e then 1 else 0) ∧
      client.failed.card = s.client.failed.card + (if reports false e then 1 else 0) ∧
      (serving = begun lib e ∨ begun lib e = none ∧ serving = some .size) := by
  cases e with
  | report i o =>
    simp only [proceed] at h
    split_ifs at h
    obtain ⟨⟨o', client⟩, htell, h⟩ := Option.bind_eq_some_iff.mp h
    split_ifs at h with ho
    obtain rfl := ho
    obtain rfl := Option.some.inj h
    obtain ⟨htaken, htopic, hsucceeded, hfailed⟩ := Client.tell_eq htell
    refine ⟨client, s.phase, _, rfl, htaken, htopic, ?_, ?_, .inl rfl⟩
    · simpa [reports] using hsucceeded
    · rw [hfailed]
      by_cases hstored : o' = .stored <;> simp [reports, hstored]
  | clientError error reason =>
    simp only [proceed] at h
    split_ifs at h
    obtain rfl := Option.some.inj h
    exact ⟨s.client, s.phase, _, rfl, rfl, rfl, by simp [reports], by simp [reports], .inl rfl⟩
  | test =>
    simp only [proceed] at h
    split_ifs at h <;> obtain rfl := Option.some.inj h <;>
      exact ⟨s.client, _, s.serving, rfl, rfl, rfl, by simp [reports], by simp [reports],
        .inl hserving⟩
  | pollReturns =>
    simp only [proceed] at h
    split at h
    · obtain rfl := Option.some.inj h
      exact ⟨s.client, _, _, rfl, rfl, rfl, by simp [reports], by simp [reports], .inr ⟨rfl, rfl⟩⟩
    · obtain rfl := Option.some.inj h
      exact ⟨s.client, _, s.serving, rfl, rfl, rfl, by simp [reports], by simp [reports],
        .inl hserving⟩
    · cases h
  | flushReturns result =>
    simp only [proceed, flushed] at h
    split at h
    · split_ifs at h
      · obtain rfl := Option.some.inj h
        have htallies : (s.client.purge lib.purgeError).succeeded = s.client.succeeded ∧
            (s.client.purge lib.purgeError).failed = s.client.failed :=
          Client.tallies_congr rfl fun i => Client.purge_outcome lib.purgeError
        obtain ⟨hsucceeded, hfailed⟩ := htallies
        refine ⟨_, _, s.serving, rfl, rfl, rfl, ?_, ?_, .inl hserving⟩
        · simp [reports, hsucceeded]
        · simp [reports, hfailed]
      · obtain rfl := Option.some.inj h
        exact ⟨s.client, _, _, rfl, rfl, rfl, by simp [reports], by simp [reports],
          .inr ⟨rfl, rfl⟩⟩
    · split_ifs at h
      obtain rfl := Option.some.inj h
      exact ⟨s.client, _, _, rfl, rfl, rfl, by simp [reports], by simp [reports],
        .inr ⟨rfl, rfl⟩⟩
    · cases h
  | destroy =>
    simp only [proceed] at h
    split_ifs at h
    obtain rfl := Option.some.inj h
    exact ⟨s.client, _, s.serving, rfl, rfl, rfl, by simp [reports], by simp [reports],
      .inl hserving⟩
  | _ => cases h

theorem step_run_iff {c : Call} {reply : ℤ} : Step json lib s (.run c reply) s' ↔
    ∃ rest, s.calls = c ::ₘ rest ∧ s' = { (perform json lib s reply c).1 with
      calls := ↑(perform json lib s reply c).2.toList + rest } := by
  rw [Step, next, advance_eq_some]
  simp only [Option.some.injEq, eq_comm]

theorem step_serve_iff {reply : ℤ} : Step json lib s (.serve reply) s' ↔
    ∃ c, s.serving = some c ∧ s' = { (perform json lib s reply c).1 with
      serving := (perform json lib s reply c).2 } := by
  rw [Step, next, Option.map_eq_some_iff]
  simp only [eq_comm]

theorem perform_frame (json : JsonLibrary) (lib : Librdkafka) (s : State) (reply : ℤ) (c : Call) :
    (perform json lib s reply c).1.calls = s.calls ∧
      (perform json lib s reply c).1.serving = s.serving ∧
      (perform json lib s reply c).1.stopping = s.stopping ∧
      (perform json lib s reply c).1.phase = s.phase := by
  cases c <;> exact ⟨rfl, rfl, rfl, rfl⟩

theorem perform_client (json : JsonLibrary) (lib : Librdkafka) (s : State) (reply : ℤ) (c : Call) :
    (perform json lib s reply c).1.client.taken =
        s.client.taken ++ (accepted json (.run c reply)).toList ∧
      (perform json lib s reply c).1.client.topic = s.client.topic ∧
      (perform json lib s reply c).1.client.succeeded = s.client.succeeded ∧
      (perform json lib s reply c).1.client.failed = s.client.failed := by
  cases c with
  | publish event =>
    simp only [perform, accepted]
    cases produced json event reply with
    | some m => exact ⟨rfl, rfl, rfl, rfl⟩
    | none => exact ⟨(List.append_nil _).symm, rfl, rfl, rfl⟩
  | _ => exact ⟨(List.append_nil _).symm, rfl, rfl, rfl⟩

theorem perform_next (s : State) (reply : ℤ) (c : Call) (event : AccessEvent) :
    (perform json lib s reply c).2 ≠ some (.publish event) := by
  have hafter : ∀ stage failure sized, afterRecord stage failure sized ≠ some (.publish event) := by
    intro stage failure sized
    cases failure <;> cases sized <;> simp [afterRecord]
  cases c with
  | publish event' =>
    obtain ⟨result, failure, sized, henqueue, -, -⟩ := enqueue_spec json lib event' reply
    simp [perform, henqueue]
  | enqueued result failure sized => exact hafter _ _ _
  | delivered result failure => exact hafter _ _ _
  | log line sized => cases sized <;> simp [perform]
  | _ => simp [perform]

variable (json lib) in
structure Inv (events : List Event) (s : State) : Prop where
  tallied : ∃ N, Tallied (events.flatMap (entry json lib)) N (underWay s) s
  served : ∀ event, s.serving ≠ some (.publish event)
  taken : s.client.taken = events.filterMap (accepted json)
  reached : ↑(events.filterMap tried) + s.calls.filterMap waiting =
    (↑(events.filterMap published) : Multiset AccessEvent)
  succeeded : s.client.succeeded.card = events.countP (reports true)
  failed : s.client.failed.card = events.countP (reports false)

theorem waiting_next (s : State) (reply : ℤ) (c : Call) :
    Multiset.filterMap waiting ↑(perform json lib s reply c).2.toList = 0 := by
  cases hnext : (perform json lib s reply c).2 with
  | none => rfl
  | some c' =>
    cases c' with
    | publish event => exact absurd hnext (perform_next s reply c event)
    | _ => simp [waiting]

theorem tried_run (reply : ℤ) (c : Call) : tried (.run c reply) = waiting c := by
  cases c <;> rfl

theorem filterMap_snoc {A B : Type} (f : A → Option B) (l : List A) (a : A) :
    (l ++ [a]).filterMap f = l.filterMap f ++ (f a).toList := by
  rw [List.filterMap_append]
  cases h : f a <;> simp [h]

theorem Inv.run_step {c : Call} {rest : Multiset Call} {reply : ℤ} (h : Inv json lib events s)
    (hcalls : s.calls = c ::ₘ rest) : Inv json lib (events ++ [.run c reply])
      { (perform json lib s reply c).1 with
        calls := ↑(perform json lib s reply c).2.toList + rest } := by
  obtain ⟨hframe, hserving, -⟩ := perform_frame json lib s reply c
  obtain ⟨htaken, -, hsucceeded, hfailed⟩ := perform_client json lib s reply c
  refine ⟨?_, ?_, ?_, ?_, ?_, ?_⟩
  · obtain ⟨N, hN⟩ := h.tallied
    have hunder : underWay s = c ::ₘ (↑s.serving.toList + rest) := by
      rw [underWay, hcalls, Multiset.add_cons]
    rw [hunder] at hN
    refine ⟨raise (posted c) N, ?_⟩
    rw [List.flatMap_append, List.flatMap_singleton, underWay, hserving, add_left_comm]
    exact (hN.perform json lib reply).frame rfl rfl rfl
  · simpa only [hserving] using h.served
  · rw [filterMap_snoc, ← h.taken]
    exact htaken
  · have hnone : published (.run c reply) = none := rfl
    have hreached := h.reached
    rw [hcalls, ← Multiset.singleton_add, Multiset.filterMap_add, ← add_assoc,
      filterMap_singleton] at hreached
    rw [filterMap_snoc, filterMap_snoc, Multiset.filterMap_add, waiting_next, zero_add, tried_run,
      ← Multiset.coe_add, hreached, hnone, Option.toList_none, List.append_nil]
  · simp [reports, hsucceeded, h.succeeded]
  · simp [reports, hfailed, h.failed]

theorem Inv.serve_step {c : Call} {reply : ℤ} (h : Inv json lib events s)
    (hserving : s.serving = some c) : Inv json lib (events ++ [.serve reply])
      { (perform json lib s reply c).1 with serving := (perform json lib s reply c).2 } := by
  have hpublish : ∀ event, c ≠ .publish event := by
    rintro event rfl
    exact h.served event hserving
  obtain ⟨hcalls, -, -⟩ := perform_frame json lib s reply c
  obtain ⟨htaken, -, hsucceeded, hfailed⟩ := perform_client json lib s reply c
  have hnone : accepted json (.run c reply) = none ∧ replyPosts json lib reply c = [] := by
    cases c with
    | publish event => exact absurd rfl (hpublish event)
    | _ => exact ⟨rfl, rfl⟩
  refine ⟨?_, perform_next s reply c, ?_, ?_, ?_, ?_⟩
  · obtain ⟨N, hN⟩ := h.tallied
    have hunder : underWay s = c ::ₘ s.calls := by
      rw [underWay, hserving, Option.toList_some, Multiset.coe_singleton, Multiset.singleton_add]
    rw [hunder] at hN
    have hnext := hN.perform json lib reply
    rw [hnone.2] at hnext
    refine ⟨raise (posted c) N, ?_⟩
    rw [List.flatMap_append, List.flatMap_singleton, underWay, hcalls]
    exact hnext.frame rfl rfl rfl
  · rw [filterMap_snoc, ← h.taken, htaken, hnone.1]
    rfl
  · rw [filterMap_snoc, filterMap_snoc, hcalls]
    simpa [tried, published] using h.reached
  · simp [reports, hsucceeded, h.succeeded]
  · simp [reports, hfailed, h.failed]

theorem Inv.proceed_step (h : Inv json lib events s) (hserving : s.serving = none)
    (hstep : proceed lib s e = some s') : Inv json lib (events ++ [e]) s' := by
  obtain ⟨client, phase, serving, rfl, htaken, -, hsucceeded, hfailed, hbegun⟩ :=
    proceed_eq hstep hserving
  have hquiet : accepted json e = none ∧ tried e = none ∧ published e = none ∧
      entry json lib e = (begun lib e).elim [] todo := by
    cases e with
    | run c reply => cases hstep
    | publish event => cases hstep
    | _ => exact ⟨rfl, rfl, rfl, rfl⟩
  obtain ⟨haccepted, htried, hpublished, hentry⟩ := hquiet
  have hcallback : ∀ c, begun lib e = some c → (∀ stage, lineOf stage c = none) ∧
      ∀ event, c ≠ .publish event := by
    intro c hc
    cases e with
    | report i o =>
      obtain rfl := Option.some.inj hc
      cases o <;> exact ⟨fun _ => rfl, fun _ h => by cases h⟩
    | clientError error reason =>
      obtain rfl := Option.some.inj hc
      exact ⟨fun _ => rfl, fun _ h => by cases h⟩
    | _ => cases hc
  refine ⟨?_, ?_, ?_, ?_, ?_, ?_⟩
  · obtain ⟨N, hN⟩ := h.tallied
    have hunder : underWay s = s.calls := by
      rw [underWay, hserving, Option.toList_none, Multiset.coe_nil, zero_add]
    rw [hunder] at hN
    refine ⟨N, ?_⟩
    rw [List.flatMap_append, List.flatMap_singleton, hentry, underWay]
    rcases hbegun with rfl | ⟨hnone, rfl⟩
    · cases hc : begun lib e with
      | none =>
        have hframe : Tallied (events.flatMap (entry json lib)) N s.calls
            { s with client := client, phase := phase, serving := none } := hN.frame rfl rfl rfl
        simpa using hframe
      | some c => exact (hN.begin (hcallback c hc).1).frame rfl rfl rfl
    · rw [hnone]
      exact (hN.begin (c := .size) fun _ => rfl).frame rfl rfl rfl
  · rcases hbegun with rfl | ⟨-, rfl⟩
    · exact fun event hc => (hcallback _ hc).2 event rfl
    · simp
  · rw [filterMap_snoc, haccepted, Option.toList_none, List.append_nil, ← h.taken]
    exact htaken
  · rw [filterMap_snoc, filterMap_snoc, htried, hpublished]
    simpa using h.reached
  · rw [List.countP_append, List.countP_singleton, ← h.succeeded]
    exact hsucceeded
  · rw [List.countP_append, List.countP_singleton, ← h.failed]
    exact hfailed

theorem Inv.quiet_step {client : Client Message ℤ} {stopping : Bool} (h : Inv json lib events s)
    (hquiet : entry json lib e = [] ∧ accepted json e = none ∧ tried e = none ∧
      published e = none ∧ ∀ stored, reports stored e = false)
    (htaken : client.taken = s.client.taken) (hsucceeded : client.succeeded = s.client.succeeded)
    (hfailed : client.failed = s.client.failed) :
    Inv json lib (events ++ [e]) { s with client := client, stopping := stopping } := by
  obtain ⟨hentry, haccepted, htried, hpublished, hreports⟩ := hquiet
  refine ⟨?_, h.served, ?_, ?_, ?_, ?_⟩
  · obtain ⟨N, hN⟩ := h.tallied
    refine ⟨N, ?_⟩
    rw [List.flatMap_append, List.flatMap_singleton, hentry, List.append_nil]
    exact hN.frame rfl rfl rfl
  · rw [filterMap_snoc, haccepted, Option.toList_none, List.append_nil, ← h.taken, htaken]
  · rw [filterMap_snoc, filterMap_snoc, htried, hpublished]
    simpa using h.reached
  · rw [List.countP_append, List.countP_singleton, hreports, hsucceeded, h.succeeded]
    rfl
  · rw [List.countP_append, List.countP_singleton, hreports, hfailed, h.failed]
    rfl

theorem Inv.next_step (h : Inv json lib events s) (hstep : Step json lib s e s') :
    Inv json lib (events ++ [e]) s' := by
  cases e with
  | run c reply =>
    obtain ⟨rest, hcalls, rfl⟩ := step_run_iff.mp hstep
    exact h.run_step hcalls
  | serve reply =>
    obtain ⟨c, hserving, rfl⟩ := step_serve_iff.mp hstep
    exact h.serve_step hserving
  | publish event =>
    simp only [Step, next] at hstep
    split_ifs at hstep
    obtain rfl := Option.some.inj hstep
    refine ⟨?_, h.served, ?_, ?_, ?_, ?_⟩
    · obtain ⟨N, hN⟩ := h.tallied
      refine ⟨N, ?_⟩
      rw [List.flatMap_append, List.flatMap_singleton, underWay, Multiset.add_cons]
      exact (hN.begin (c := .publish event) fun _ => rfl).frame rfl rfl rfl
    · rw [filterMap_snoc, ← h.taken]
      exact (List.append_nil _).symm
    · have hsome : waiting (.publish event) = some event := rfl
      have hreached := h.reached
      have htried : tried (.publish event) = none := rfl
      rw [filterMap_snoc, filterMap_snoc, htried, Option.toList_none, List.append_nil,
        Multiset.filterMap_cons_some _ _ _ hsome, Multiset.add_cons, hreached]
      simp [published, ← Multiset.coe_add, ← Multiset.singleton_add, add_comm]
    · simp [reports, h.succeeded]
    · simp [reports, h.failed]
  | stop =>
    simp only [Step, next] at hstep
    split_ifs at hstep
    obtain rfl := Option.some.inj hstep
    exact h.quiet_step ⟨rfl, rfl, rfl, rfl, fun _ => rfl⟩ rfl rfl rfl
  | store partition i =>
    obtain ⟨client, hstore, rfl⟩ := Option.map_eq_some_iff.mp hstep
    obtain ⟨htaken, htold, houtcome⟩ := Client.store_eq hstore
    obtain ⟨hsucceeded, hfailed⟩ := Client.tallies_congr htold fun _ _ => by rw [houtcome]
    exact h.quiet_step ⟨rfl, rfl, rfl, rfl, fun _ => rfl⟩ htaken hsucceeded hfailed
  | settle i o =>
    obtain ⟨client, hsettle, rfl⟩ := Option.map_eq_some_iff.mp hstep
    obtain ⟨htaken, -, htold, houtcome⟩ := Client.settle_eq hsettle
    obtain ⟨hsucceeded, hfailed⟩ := Client.tallies_congr htold houtcome
    exact h.quiet_step ⟨rfl, rfl, rfl, rfl, fun _ => rfl⟩ htaken hsucceeded hfailed
  | _ =>
    simp only [Step, next] at hstep
    split_ifs at hstep with hserving
    exact h.proceed_step hserving hstep

theorem Inv.run (h : Run (Step json lib) initial events s) : Inv json lib events s := by
  induction h with
  | start =>
    refine ⟨⟨fun _ => 0, ?_, Balanced.initial, fun _ => rfl⟩, by simp [initial], rfl, rfl, rfl, rfl⟩
    intro x
    cases x <;> rfl
  | snoc _ hlast ih => exact ih.next_step hlast

/-- The counters are those of what was published, taken and told, and the log has the lines of the
failures that are logged, each once. -/
structure Exact (events : List Event) (s : State) (N : Counter → ℕ) : Prop where
  counted : ∀ x, counter s x = UInt64.ofNat (N x)
  accepted : N (.metric (.accessEventEnqueue .accepted)) = s.client.taken.length
  enqueued : N (.metric (.accessEventEnqueue .accepted)) +
      N (.metric (.accessEventEnqueue .queueFull)) + N (.metric (.accessEventEnqueue .error)) =
    (events.filterMap published).length
  enqueueFailures : N (.failures .enqueue) =
    N (.metric (.accessEventEnqueue .queueFull)) + N (.metric (.accessEventEnqueue .error))
  success : N (.metric (.accessEventDelivery .success)) = s.client.succeeded.card
  failure : N (.metric (.accessEventDelivery .failure)) = s.client.failed.card
  deliveryFailures : N (.failures .delivery) = s.client.failed.card
  clientFailures : N (.failures .client) = events.countP isClientError
  settled : N (.metric (.accessEventEnqueue .accepted)) =
    N (.metric (.accessEventDelivery .success)) + N (.metric (.accessEventDelivery .failure)) +
      s.client.outstanding
  written : ∀ stage, (lines s stage : Multiset UInt64) =
    (drawn (N (.failures stage))).filter fun n => shouldLog n

theorem Inv.exact (h : Inv json lib events s) (hcalls : s.calls = 0) (hserving : s.serving = none) :
    ∃ N, Exact events s N := by
  obtain ⟨N, hcounted, hbalanced, hwritten⟩ := h.tallied
  have hnone : underWay s = 0 := by simp [underWay, hcalls, hserving]
  rw [hnone] at hbalanced hwritten
  have hN : ∀ x, N x = amount (events.flatMap (entry json lib)) x := fun x =>
    hbalanced.settled fun _ hc => absurd hc (Multiset.notMem_zero _)
  have henqueue : ∀ result, N (.metric (.accessEventEnqueue result)) =
      events.countP fun e => ended json lib e = some result := fun result =>
    (hN _).trans (amount_countP (fun e => by simpa using amount_enqueue e result) events)
  have hfailures : N (.failures .enqueue) = events.countP fun e =>
      (ended json lib e).any fun result => !decide (result = .accepted) :=
    (hN _).trans (amount_countP amount_enqueueFailures events)
  have hsuccess : N (.metric (.accessEventDelivery .success)) = s.client.succeeded.card := by
    rw [hN, amount_countP fun e => (amount_delivery e).1, h.succeeded]
  have hfailure : N (.metric (.accessEventDelivery .failure)) = s.client.failed.card := by
    rw [hN, amount_countP fun e => (amount_delivery e).2.1, h.failed]
  have haccepted : N (.metric (.accessEventEnqueue .accepted)) = s.client.taken.length := by
    rw [henqueue, h.taken, List.length_filterMap_eq_countP]
    congr 1
    funext e
    rw [Bool.eq_iff_iff, decide_eq_true_eq, ended_accepted]
  have hreached : events.filterMap tried = (events.filterMap published : Multiset AccessEvent) := by
    have hreached := h.reached
    rwa [hcalls, Multiset.filterMap_zero, add_zero] at hreached
  obtain ⟨htotal, hrefused⟩ := ended_results json lib events
  refine ⟨N, hcounted, haccepted, ?_, ?_, hsuccess, hfailure, ?_, ?_, ?_, ?_⟩
  · rw [henqueue, henqueue, henqueue, htotal]
    exact congrArg Multiset.card hreached
  · rw [hfailures, henqueue, henqueue, hrefused]
  · rw [hN, amount_countP fun e => (amount_delivery e).2.2, h.failed]
  · rw [hN, amount_countP amount_clientFailures]
  · rw [haccepted, hsuccess, hfailure, s.client.accounted]
  · intro stage
    rw [← hwritten stage, Multiset.filterMap_zero, add_zero]

/-- Once no thread is in the middle of a call, however the calls of publish, the callbacks and the
polls were interleaved, the counters and the log are exact. -/
theorem counters_exact (h : Run (Step json lib) initial events s) (hcalls : s.calls = 0)
    (hserving : s.serving = none) : ∃ N, Exact events s N :=
  (Inv.run h).exact hcalls hserving

def Phase.Over (phase : Phase) : Prop := phase = .closing ∨ phase = .destroyed

section LastLook

variable (json : JsonLibrary) (lib : Librdkafka)

/-- The destructor's call of rd_kafka_outq_len behind its flushes found this many messages
outstanding, and counted so much beside them: reports and errors that no callback has been run
for. -/
def LastLook (events : List Event) (outstanding beside : ℕ) : Prop :=
  ∃ before reply after s, events = before ++ .serve reply :: after ∧
    Run (Step json lib) initial before s ∧ s.phase = .closing ∧ s.serving = some .size ∧
    s.client.outstanding = outstanding ∧ reply.toNat = beside

/-- The gauge has the size of the queue, or is about to get it. -/
def Gauged (events : List Event) (s : State) : Prop :=
  match s.serving with
  | some .size => s.phase = .closing
  | some (.gauge size) => ∃ beside,
    LastLook json lib events s.client.outstanding beside ∧ size = s.client.outstanding + beside
  | some _ => False
  | none => ∃ beside, LastLook json lib events s.client.outstanding beside ∧
    s.metrics.accessEventQueueSize = UInt64.ofNat (s.client.outstanding + beside)

end LastLook

theorem LastLook.snoc {outstanding beside : ℕ}
    (h : LastLook json lib events outstanding beside) (e : Event) :
    LastLook json lib (events ++ [e]) outstanding beside := by
  obtain ⟨before, reply, after, s, rfl, hlook⟩ := h
  exact ⟨before, reply, after ++ [e], s, by simp, hlook⟩

theorem Gauged.snoc (h : Gauged json lib events s) (e : Event) (hserving : s'.serving = s.serving)
    (houtstanding : s'.client.outstanding = s.client.outstanding)
    (hmetrics : s'.metrics = s.metrics)
    (hphase : s.serving = some .size → s'.phase = s.phase) :
    Gauged json lib (events ++ [e]) s' := by
  rw [Gauged] at h ⊢
  rw [hserving, houtstanding, hmetrics]
  cases hs : s.serving with
  | none =>
    rw [hs] at h
    obtain ⟨beside, hlook, hgauge⟩ := h
    exact ⟨beside, hlook.snoc e, hgauge⟩
  | some c =>
    rw [hs] at h
    cases c with
    | size => exact (hphase hs).trans h
    | gauge size =>
      obtain ⟨beside, hlook, hsize⟩ := h
      exact ⟨beside, hlook.snoc e, hsize⟩
    | _ => exact h.elim

/-- The poll thread goes on until the destructor stops it, no call of publish is left then, and
a flush that succeeds leaves nothing to wait for. -/
structure Closing (json : JsonLibrary) (lib : Librdkafka) (events : List Event) (s : State) :
    Prop where
  calls : s.stopping → s.calls = 0
  polling : s.stopping = false → s.phase = .test ∨ s.phase = .polling
  gauged : Phase.Over s.phase → Gauged json lib events s
  destroyed : s.phase = .destroyed → s.serving = none
  drained : .flushReturns 0 ∈ events → Phase.Over s.phase ∧ s.client.outstanding = 0

namespace Closing

theorem not_over (h : Closing json lib events s) (hstopping : s.stopping = false) :
    ¬ Phase.Over s.phase := by
  rintro (hover | hover) <;> rcases h.polling hstopping with hphase | hphase <;>
    (rw [hphase] at hover; cases hover)

theorem of_not_over (hcalls : s.stopping → s.calls = 0)
    (hpolling : s.stopping = false → s.phase = .test ∨ s.phase = .polling)
    (hover : ¬ Phase.Over s.phase) (hflush : .flushReturns 0 ∉ events) :
    Closing json lib events s :=
  ⟨hcalls, hpolling, fun h => absurd h hover, fun h => absurd (.inr h) hover,
    fun h => absurd h hflush⟩

theorem not_flushed (h : Closing json lib events s) (hover : ¬ Phase.Over s.phase)
    (he : e ≠ .flushReturns 0) : .flushReturns 0 ∉ events ++ [e] := by
  intro hmem
  rcases List.mem_append.mp hmem with hmem | hmem
  · exact hover (h.drained hmem).1
  · exact he (List.mem_singleton.mp hmem).symm

theorem to_closing {result : ℤ} (h : Closing json lib events s)
    (hphase : s.phase = .flushing ∨ s.phase = .purged)
    (hresult : result = 0 → s.client.outstanding = 0) :
    Closing json lib (events ++ [.flushReturns result])
      { s with phase := .closing, serving := some .size } := by
  refine ⟨h.calls, ?_, fun _ => rfl, (fun hdestroyed => by cases hdestroyed), ?_⟩
  · intro hstopping
    rcases h.polling hstopping with hpolling | hpolling <;>
      (rw [hpolling] at hphase; rcases hphase with hphase | hphase <;> cases hphase)
  · intro hflush
    refine ⟨.inl rfl, ?_⟩
    rcases List.mem_append.mp hflush with hflush | hflush
    · exact (h.drained hflush).2
    · rw [List.mem_singleton, Event.flushReturns.injEq] at hflush
      exact hresult hflush.symm

theorem flush_step {result : ℤ} (h : Closing json lib events s)
    (hstep : flushed lib s result = some s') :
    Closing json lib (events ++ [.flushReturns result]) s' := by
  simp only [flushed] at hstep
  split at hstep
  · next hphase =>
    split_ifs at hstep with hresult houtstanding <;> obtain rfl := Option.some.inj hstep
    · have hover : ¬ Phase.Over s.phase := by simp [Phase.Over, hphase]
      refine of_not_over h.calls ?_ (by simp [Phase.Over])
        (h.not_flushed hover (by simpa using hresult))
      intro hstopping
      rcases h.polling hstopping with hpolling | hpolling <;>
        (rw [hphase] at hpolling; cases hpolling)
    · exact h.to_closing (.inl hphase) fun _ => houtstanding
  · next hphase =>
    split_ifs at hstep with hresult
    obtain rfl := Option.some.inj hstep
    exact h.to_closing (.inr hphase) fun hzero => hresult.resolve_left (not_not.mpr hzero)
  · cases hstep

theorem proceed_step (h : Closing json lib events s) (hserving : s.serving = none)
    (hstep : proceed lib s e = some s') : Closing json lib (events ++ [e]) s' := by
  cases e with
  | report i o =>
    simp only [proceed] at hstep
    split_ifs at hstep with hphase
    obtain ⟨⟨o', client⟩, -, hstep⟩ := Option.bind_eq_some_iff.mp hstep
    split_ifs at hstep
    obtain rfl := Option.some.inj hstep
    have hover : ¬ Phase.Over s.phase := by
      rintro (hover | hover) <;> (rw [hover] at hphase; cases hphase)
    exact of_not_over h.calls h.polling hover (h.not_flushed hover (by simp))
  | clientError error reason =>
    simp only [proceed] at hstep
    split_ifs at hstep with hphase
    obtain rfl := Option.some.inj hstep
    have hover : ¬ Phase.Over s.phase := by
      rintro (hover | hover) <;> (rw [hover] at hphase; cases hphase)
    exact of_not_over h.calls h.polling hover (h.not_flushed hover (by simp))
  | test =>
    simp only [proceed] at hstep
    split_ifs at hstep with hphase hstopping <;> obtain rfl := Option.some.inj hstep
    all_goals
      have hover : ¬ Phase.Over s.phase := by simp [Phase.Over, hphase]
      refine of_not_over h.calls ?_ ?_ (h.not_flushed hover (by simp))
      · simp [hstopping]
      · simp [Phase.Over]
  | pollReturns =>
    simp only [proceed] at hstep
    split at hstep
    · next hphase =>
      obtain rfl := Option.some.inj hstep
      have hover : ¬ Phase.Over s.phase := by simp [Phase.Over, hphase]
      exact of_not_over h.calls (fun _ => .inl rfl) (by simp [Phase.Over])
        (h.not_flushed hover (by simp))
    · next hphase =>
      obtain rfl := Option.some.inj hstep
      have hover : ¬ Phase.Over s.phase := by simp [Phase.Over, hphase]
      refine of_not_over h.calls ?_ (by simp [Phase.Over]) (h.not_flushed hover (by simp))
      intro hstopping
      rcases h.polling hstopping with hpolling | hpolling <;>
        (rw [hphase] at hpolling; cases hpolling)
    · cases hstep
  | flushReturns result => exact h.flush_step hstep
  | destroy =>
    simp only [proceed] at hstep
    split_ifs at hstep with hphase
    obtain rfl := Option.some.inj hstep
    refine ⟨h.calls, ?_, ?_, fun _ => hserving, ?_⟩
    · intro hstopping
      exact absurd (.inl hphase) (h.not_over hstopping)
    · intro _
      exact (h.gauged (.inl hphase)).snoc _ rfl rfl rfl fun hsize => by
        rw [hserving] at hsize
        cases hsize
    · intro hflush
      rw [List.mem_append, or_iff_left (by simp)] at hflush
      exact ⟨.inr rfl, (h.drained hflush).2⟩
  | _ => cases hstep

theorem serve_step {c : Call} {reply : ℤ} (h : Closing json lib events s)
    (hrun : Run (Step json lib) initial events s) (hserving : s.serving = some c) :
    Closing json lib (events ++ [.serve reply])
      { (perform json lib s reply c).1 with serving := (perform json lib s reply c).2 } := by
  obtain ⟨hcalls, -, hstopping, hphase⟩ := perform_frame json lib s reply c
  refine ⟨?_, ?_, ?_, ?_, ?_⟩
  · rw [hstopping, hcalls]
    exact h.calls
  · rw [hstopping, hphase]
    exact h.polling
  · rw [hphase]
    intro hover
    have hgauged := h.gauged hover
    rw [Gauged, hserving] at hgauged
    cases c with
    | size =>
      exact ⟨reply.toNat, ⟨events, reply, [], s, rfl, hrun, hgauged, hserving, rfl, rfl⟩, rfl⟩
    | gauge size =>
      obtain ⟨beside, hlook, rfl⟩ := hgauged
      exact ⟨beside, hlook.snoc _, rfl⟩
    | _ => exact hgauged.elim
  · rw [hphase]
    intro hdestroyed
    rw [h.destroyed hdestroyed] at hserving
    cases hserving
  · intro hflush
    rw [List.mem_append, or_iff_left (by simp)] at hflush
    obtain ⟨hover, houtstanding⟩ := h.drained hflush
    have hgauged := h.gauged hover
    rw [hphase]
    refine ⟨hover, ?_⟩
    rw [Gauged, hserving] at hgauged
    cases c with
    | size => exact houtstanding
    | gauge size => exact houtstanding
    | _ => exact hgauged.elim

theorem client_step {client : Client Message ℤ} (h : Closing json lib events s)
    (he : e ≠ .flushReturns 0) (houtstanding : client.outstanding = s.client.outstanding) :
    Closing json lib (events ++ [e]) { s with client := client } := by
  refine ⟨h.calls, h.polling, ?_, h.destroyed, ?_⟩
  · intro hover
    exact (h.gauged hover).snoc e rfl houtstanding rfl fun _ => rfl
  · intro hflush
    rw [List.mem_append, List.mem_singleton, or_iff_left he.symm] at hflush
    obtain ⟨hover, hzero⟩ := h.drained hflush
    exact ⟨hover, houtstanding.trans hzero⟩

theorem next_step (h : Closing json lib events s) (hrun : Run (Step json lib) initial events s)
    (hstep : Step json lib s e s') : Closing json lib (events ++ [e]) s' := by
  cases e with
  | run c reply =>
    obtain ⟨rest, hcalls, rfl⟩ := step_run_iff.mp hstep
    obtain ⟨-, -, hstopping, hphase⟩ := perform_frame json lib s reply c
    have hrunning : s.stopping = false := by
      rw [← Bool.not_eq_true]
      intro hstop
      rw [h.calls hstop] at hcalls
      exact Multiset.zero_ne_cons hcalls
    have hover := h.not_over hrunning
    refine of_not_over ?_ ?_ ?_ (h.not_flushed hover (by simp))
    · intro hstop
      rw [hstopping, hrunning] at hstop
      cases hstop
    · intro _
      rw [hphase]
      exact h.polling hrunning
    · rw [hphase]
      exact hover
  | serve reply =>
    obtain ⟨c, hserving, rfl⟩ := step_serve_iff.mp hstep
    exact h.serve_step hrun hserving
  | publish event =>
    simp only [Step, next] at hstep
    split_ifs at hstep with hstopping
    obtain rfl := Option.some.inj hstep
    have hrunning : s.stopping = false := by simpa using hstopping
    have hover := h.not_over hrunning
    exact of_not_over (by simp [hrunning]) h.polling hover (h.not_flushed hover (by simp))
  | stop =>
    simp only [Step, next] at hstep
    split_ifs at hstep with hstop
    obtain rfl := Option.some.inj hstep
    have hover := h.not_over hstop.2
    exact of_not_over (fun _ => hstop.1) (by simp) hover (h.not_flushed hover (by simp))
  | store partition i =>
    obtain ⟨client, hstore, rfl⟩ := Option.map_eq_some_iff.mp hstep
    obtain ⟨htaken, htold, -⟩ := Client.store_eq hstore
    exact h.client_step (by simp) (by rw [Client.outstanding, Client.outstanding, htaken, htold])
  | settle i o =>
    obtain ⟨client, hsettle, rfl⟩ := Option.map_eq_some_iff.mp hstep
    obtain ⟨htaken, -, htold, -⟩ := Client.settle_eq hsettle
    exact h.client_step (by simp) (by rw [Client.outstanding, Client.outstanding, htaken, htold])
  | _ =>
    simp only [Step, next] at hstep
    split_ifs at hstep with hserving
    exact h.proceed_step hserving hstep

theorem run (h : Run (Step json lib) initial events s) : Closing json lib events s := by
  induction h with
  | start =>
    exact of_not_over (by simp [initial]) (by simp [initial]) (by simp [initial, Phase.Over])
      List.not_mem_nil
  | snoc hrun hlast ih => exact ih.next_step hrun hlast

end Closing

def demoLib : Librdkafka := ⟨fun _ => ascii "error", fun _ => -152⟩

/-- One call is accepted and its message stored, for another the queue is full, and the publisher
is destroyed. -/
def demoEvents : List Event :=
  [.publish demoEvent, .publish demoEvent, .run (.publish demoEvent) 0,
    .run (.publish demoEvent) kQueueFull, .run (.enqueued .accepted none true) 0,
    .run (.enqueued .queueFull (some (ascii "queue_full")) true) 0,
    .run (.fail .enqueue (ascii "queue_full") true) 0,
    .run (.log ⟨.enqueue, 1, ascii "queue_full"⟩ true) 0, .run .size 0, .run .size 0,
    .run (.gauge 1) 0, .run (.gauge 1) 0, .store 0 0, .settle 0 .stored, .stop, .test, .pollReturns,
    .report 0 .stored, .serve 0, .serve 0, .serve 0, .flushReturns 0, .serve 0, .serve 0, .destroy]

theorem demo_run : ∃ s, Run (Step demoJson demoLib) initial demoEvents s ∧ s.phase = .destroyed ∧
    s.calls = 0 ∧ s.serving = none ∧ s.client.taken.length = 1 := by
  have hview : (demoEvents.foldlM (next demoJson demoLib) initial).map (fun s =>
      (s.phase, s.calls, s.serving, s.client.taken.length)) = some (.destroyed, 0, none, 1) := by
    decide +kernel
  obtain ⟨s, hs, hsame⟩ := Option.map_eq_some_iff.mp hview
  simp only [Prod.mk.injEq] at hsame
  exact ⟨s, Run.of_foldlM hs, hsame⟩

theorem counters_exact_demo : ∃ s N, s.client.taken.length = 1 ∧ Exact demoEvents s N := by
  obtain ⟨s, hrun, -, hcalls, hserving, htaken⟩ := demo_run
  obtain ⟨N, hN⟩ := counters_exact hrun hcalls hserving
  exact ⟨s, N, htaken, hN⟩

/-- When the destructor has returned, nothing is under way, the gauge has the size that it last
read, with every message that was left, and if a flush succeeded the outcome of every message was
told. -/
theorem destroyed_settled (h : Run (Step json lib) initial events s)
    (hdestroyed : s.phase = .destroyed) : s.calls = 0 ∧ (∃ N, Exact events s N) ∧
      (∃ beside, LastLook json lib events s.client.outstanding beside ∧
        (s.client.outstanding + beside < 2 ^ 64 →
          s.metrics.accessEventQueueSize.toNat = s.client.outstanding + beside)) ∧
      (.flushReturns 0 ∈ events → ∀ i < s.client.taken.length, i ∈ s.client.told) := by
  have hclosing := Closing.run h
  have hserving := hclosing.destroyed hdestroyed
  have hcalls : s.calls = 0 := by
    apply hclosing.calls
    rw [← Bool.not_eq_false]
    intro hstopping
    exact hclosing.not_over hstopping (.inr hdestroyed)
  have hgauged := hclosing.gauged (.inr hdestroyed)
  rw [Gauged, hserving] at hgauged
  obtain ⟨beside, hlook, hgauge⟩ := hgauged
  refine ⟨hcalls, (Inv.run h).exact hcalls hserving, ⟨beside, hlook, ?_⟩, ?_⟩
  · intro hsmall
    rw [hgauge, UInt64.toNat_ofNat_of_lt' hsmall]
  · intro hflush i hi
    exact s.client.told_of_outstanding (hclosing.drained hflush).2 hi

theorem destroyed_settled_demo : ∃ (s : State) (beside : ℕ), s.client.taken.length = 1 ∧
    0 ∈ s.client.told ∧ (∃ N, Exact demoEvents s N) ∧
    LastLook demoJson demoLib demoEvents s.client.outstanding beside ∧
    (s.client.outstanding + beside < 2 ^ 64 →
      s.metrics.accessEventQueueSize.toNat = s.client.outstanding + beside) := by
  obtain ⟨s, hrun, hdestroyed, -, -, htaken⟩ := demo_run
  obtain ⟨-, hexact, ⟨beside, hlook, hgauge⟩, htold⟩ := destroyed_settled hrun hdestroyed
  exact ⟨s, beside, htaken, htold (by decide +kernel) 0 (by omega), hexact, hlook, hgauge⟩

def handed (json : JsonLibrary) : Event → Option (AccessEvent × Message)
  | .run (.publish event) code => (produced json event code).map fun m => (event, m)
  | _ => none

/-- The message is that of the event, and is read back as this event. -/
structure Carries (json : JsonLibrary) (event : AccessEvent) (m : Message) : Prop where
  key : m.key = event.code
  timestamp : m.timestamp = event.occurredAtMs
  parses : parseAccessEventDetailed json m.value = .ok event

theorem produced_carries {event : AccessEvent} {code : ℤ} {m : Message}
    (h : produced json event code = some m) (htime : event.occurredAtMs < 2 ^ 63)
    (hjson : DumpsBack json (accessEventPayload event).items) : Carries json event m := by
  rw [produced] at h
  split at h
  · cases h
  · next payload hpayload =>
    split_ifs at h
    obtain rfl := Option.some.inj h
    refine ⟨rfl, rfl, ?_⟩
    by_cases hvalid : isValidAccessEvent event
    · rw [serializeAccessEvent, hvalid, Bool.not_true, if_neg Bool.false_ne_true] at hpayload
      have hpositive := isValidAccessEvent_occurred hvalid
      have hstatus := valid_httpStatus hvalid
      have hsmall := expectedHttpStatus_small event.result
      exact parse_eq_ok.mpr ⟨_, _, _, _, hjson.parses payload hpayload, payload_members event,
        by decide, toInt64_eq (by omega), toInt32_eq (by omega), hvalid⟩
    · rw [serializeAccessEvent, if_pos (by simpa using hvalid)] at hpayload
      cases hpayload

theorem handed_spec {x : AccessEvent × Message} (h : handed json e = some x) :
    tried e = some x.1 ∧ ∃ code, produced json x.1 code = some x.2 := by
  cases e with
  | run c code =>
    cases c with
    | publish event =>
      obtain ⟨m, hm, rfl⟩ := Option.map_eq_some_iff.mp h
      exact ⟨rfl, code, hm⟩
    | _ => cases h
  | _ => cases h

theorem handed_taken (e : Event) : (handed json e).map Prod.snd = accepted json e := by
  cases e with
  | run c code =>
    cases c with
    | publish event =>
      rw [handed, Option.map_map]
      exact Option.map_id'
    | _ => rfl
  | _ => rfl

theorem handed_sublist (json : JsonLibrary) (events : List Event) :
    ((events.filterMap (handed json)).map Prod.fst).Sublist (events.filterMap tried) := by
  induction events with
  | nil => exact .slnil
  | cons e events ih =>
    cases hhanded : handed json e with
    | some x =>
      rw [List.filterMap_cons_some hhanded, List.filterMap_cons_some (handed_spec hhanded).1]
      exact ih.cons_cons _
    | none =>
      rw [List.filterMap_cons_none hhanded]
      cases htried : tried e with
      | none => rwa [List.filterMap_cons_none htried]
      | some event =>
        rw [List.filterMap_cons_some htried]
        exact ih.cons _

/-- Whatever the broker has stored so far: each partition has messages of accepted calls, each once
and in the order of acceptance, and each is read back as the event of a call of its own. -/
theorem topic_holds_published (h : Run (Step json lib) initial events s)
    (htime : ∀ event ∈ events.filterMap published, event.occurredAtMs < 2 ^ 63)
    (hjson : ∀ event ∈ events.filterMap published,
      DumpsBack json (accessEventPayload event).items) :
    ∃ pairs : List (AccessEvent × Message), pairs.map Prod.snd = s.client.taken ∧
      (pairs.map Prod.fst : Multiset AccessEvent) ≤ events.filterMap published ∧
      (∀ x ∈ pairs, Carries json x.1 x.2) ∧
      (∀ partition, (s.client.log partition).Sublist s.client.taken) ∧
      s.client.topic.length ≤ s.client.taken.length ∧
      s.client.succeeded.card ≤ s.client.topic.length := by
  have hinv := Inv.run h
  have hpublished : (events.filterMap tried : Multiset AccessEvent) ≤
      events.filterMap published := by
    rw [← hinv.reached]
    exact Multiset.le_add_right _ _
  refine ⟨events.filterMap (handed json), ?_, ?_, ?_, s.client.log_sublist,
    s.client.topic_length_le, s.client.succeeded_card_le⟩
  · rw [hinv.taken, List.map_filterMap]
    exact List.filterMap_congr fun e _ => handed_taken e
  · exact (Multiset.coe_le.mpr (handed_sublist json events).subperm).trans hpublished
  · intro x hx
    obtain ⟨e, he, hhanded⟩ := List.mem_filterMap.mp hx
    obtain ⟨htried, code, hproduced⟩ := handed_spec hhanded
    have hmem : x.1 ∈ events.filterMap published :=
      Multiset.mem_of_le hpublished (List.mem_filterMap.mpr ⟨e, he, htried⟩)
    exact produced_carries hproduced (htime _ hmem) (hjson _ hmem)

theorem topic_holds_published_demo : ∃ (s : State) (pairs : List (AccessEvent × Message)),
    pairs.map Prod.snd = s.client.taken ∧ s.client.taken.length = 1 ∧
      ∀ x ∈ pairs, Carries demoJson x.1 x.2 := by
  have hpublished : demoEvents.filterMap published = [demoEvent, demoEvent] := rfl
  have hback : DumpsBack demoJson (accessEventPayload demoEvent).items := by
    constructor
    · rw [payload_strings (by decide)]
      exact ⟨fun _ => by decide, fun _ => ⟨demoPayload (ascii "1"), rfl⟩⟩
    · intro text h
      obtain rfl : demoPayload (ascii "1") = text := Except.ok.inj h
      simp only [demoJson, if_true]
      rfl
  obtain ⟨s, hrun, -, -, -, htaken⟩ := demo_run
  obtain ⟨pairs, hpairs, -, hcarries, -⟩ := topic_holds_published hrun
    (by rw [hpublished]; decide) (by rw [hpublished]; simpa using hback)
  exact ⟨s, pairs, hpairs, htaken, hcarries⟩

end PublisherRuns
