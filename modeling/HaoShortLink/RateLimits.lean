import HaoShortLink.RateLimiters

/-! What the shared counter guarantees over any sequence of checks. -/
namespace RateLimits

open Cpp Histories RedisStores FixedWindows RateLimiters
open ServerStates (RateLimitResult RateLimitStatus)

variable {config : Config} {k : Bytes} {s s' : State} {e : Event}

/-- A step of the system, with the states around it. -/
abbrev Transition := State × Event × State

def returns (k : Bytes) (status : RateLimitStatus) (t : Transition) : Bool :=
  match t.2.1 with
  | .check call => call.key = k && call.result.status = status
  | .others => false

/-- The script of the call let it pass, whether or not the reply arrived. -/
def admits (k : Bytes) (t : Transition) : Bool :=
  match t.2.1 with
  | .check call => call.key = k && call.reply.any (·.allowed = 1)
  | .others => false

/-- The script of the call created the counter. -/
def Opens (config : Config) (k : Bytes) (t : Transition) : Prop :=
  ∃ call, t.2.1 = .check call ∧ call.key = k ∧ call.reply.isSome ∧
    live t.1.store call.now (config.key k) = none

def expiry (config : Config) (k : Bytes) (t : Transition) : Option ℤ :=
  (t.2.2.store (config.key k)).bind Entry.deadline

structure FixedWindow (config : Config) (k : Bytes) (steps : List Transition) : Prop where
  allowed_le : ∀ before w after, steps = before ++ w :: after → Opens config k w →
    ∀ deadline ∈ expiry config k w, ((w :: after).countP fun t =>
      returns k .allowed t && decide (t.2.2.time < deadline)) ≤ config.requests
  limited : ∀ before t after, steps = before ++ t :: after → returns k .limited t →
    ∃ before' w mid, before = before' ++ w :: mid ∧ Opens config k w ∧
      (∃ deadline ∈ expiry config k w, t.2.2.time < deadline) ∧
      config.requests ≤ (w :: mid).countP (admits k)
  expires : ∀ t ∈ steps, returns k .allowed t ∨ returns k .limited t →
    ∃ deadline ∈ expiry config k t, t.2.2.time < deadline ∧
      deadline ≤ t.2.2.time + config.windowSeconds * 1000
  retry : ∀ s call s', (s, .check call, s') ∈ steps → call.key = k →
    call.result.status = .limited → 1 ≤ call.result.retryAfterSeconds ∧
      call.result.retryAfterSeconds ≤ config.windowSeconds
  stretch_le : ∀ x : ℤ, (steps.countP fun t => returns k .allowed t &&
    decide (x ≤ t.2.2.time ∧ t.2.2.time < x + config.windowSeconds * 1000)) ≤ 2 * config.requests

def hitAt (config : Config) (now : ℤ) (entry : Entry) : Option Hit :=
  entry.deadline.map fun deadline =>
    ⟨now, deadline - config.length, Decimals.value entry.value⟩

def hitOf (config : Config) (k : Bytes) (t : Transition) : Option Hit :=
  match t.2.1 with
  | .check call =>
    if call.key = k ∧ call.reply.isSome then
      (t.2.2.store (config.key k)).bind (hitAt config call.now)
    else none
  | .others => none

theorem hitAt_counter (h : Hit) : hitAt config h.time (counter config.length h) = some h := by
  simp [hitAt, counter, Decimals.value_toDecimal]

theorem expire_frame {store : Store} {now seconds : ℤ} {key other : Bytes} (h : other ≠ key) :
    expire store now key seconds other = store other := by
  rw [expire]
  cases live store now key with
  | none => rfl
  | some entry =>
    simp only
    by_cases hseconds : seconds ≤ 0
    · rw [if_pos hseconds]
      exact Function.update_of_ne h _ _
    · rw [if_neg hseconds]
      exact Function.update_of_ne h _ _

theorem incr_frame {store store' : Store} {now n : ℤ} {key other : Bytes}
    (hincr : incr store now key = some (n, store')) (h : other ≠ key) :
    store' other = store other := by
  rw [incr] at hincr
  split at hincr
  · obtain ⟨_, rfl⟩ := Prod.mk.inj (Option.some.inj hincr)
    exact Function.update_of_ne h _ _
  · split at hincr
    · cases hincr
    · split at hincr
      · cases hincr
      · obtain ⟨_, rfl⟩ := Prod.mk.inj (Option.some.inj hincr)
        exact Function.update_of_ne h _ _

theorem script_frame {store : Store} {now windowSeconds requests : ℤ} {key other : Bytes}
    (h : other ≠ key) :
    (fixedWindowScript key windowSeconds requests now store).2 other = store other := by
  rw [fixedWindowScript]
  cases hincr : incr store now key with
  | none => rfl
  | some result =>
    obtain ⟨current, store'⟩ := result
    simp only
    have hstart : (if current = 1 then expire store' now key windowSeconds else store') other =
        store other := by
      by_cases hone : current = 1
      · rw [if_pos hone, expire_frame h, incr_frame hincr h]
      · rw [if_neg hone, incr_frame hincr h]
    generalize (if current = 1 then expire store' now key windowSeconds else store') = opened
      at hstart ⊢
    by_cases httl : ttl opened now key < 0
    · rw [if_pos httl]
      exact (expire_frame h).trans hstart
    · rw [if_neg httl]
      exact hstart

theorem counted_later {last : Option Hit} (h : Counted config k s last) (htime : s.time ≤ s'.time)
    (hstore : s'.store (config.key k) = s.store (config.key k)) : Counted config k s' last := by
  cases last with
  | none =>
    have hlive : live s'.store s'.time (config.key k) = live s.store s'.time (config.key k) := by
      rw [live, live, hstore]
    exact hlive.trans (live_none_mono h htime)
  | some hit =>
    obtain ⟨hentry, hproper, hlt, hle⟩ := h
    exact ⟨hstore.trans hentry, hproper, hlt, Int.le_trans hle htime⟩

theorem key_injective {k' : Bytes} (h : k ≠ k') : config.key k ≠ config.key k' := fun heq =>
  h (List.append_cancel_left heq)

theorem counted_opens {last : Option Hit} {now : ℤ} (h : Counted config k s last)
    (hnow : s.time ≤ now) : live s.store now (config.key k) = none ↔
      (hit config.length last now).number = 1 := by
  cases last with
  | none => exact ⟨fun _ => rfl, fun _ => live_none_mono h hnow⟩
  | some b =>
    obtain ⟨hstore, ⟨hpos, _⟩, _⟩ := h
    rw [live_counter hstore, hit]
    by_cases hlt : now < b.opened + config.length
    · rw [if_pos hlt, if_pos hlt]
      simp only [reduceCtorEq, false_iff]
      omega
    · rw [if_neg hlt, if_neg hlt]
      exact ⟨fun _ => rfl, fun _ => rfl⟩

/-- A step runs the script on the counter of k, and this is one hit; or it leaves it alone. -/
theorem step_hit {last : Option Hit} (hwindow : 1 ≤ config.windowSeconds)
    (h : Step config s e s') (hcounted : Counted config k s last) :
    ((∀ call, e = .check call → call.key = k → call.reply = none) ∧ Counted config k s' last) ∨
    ∃ call reply, e = .check call ∧ call.key = k ∧ call.reply = some reply ∧ s.time ≤ call.now ∧
      s'.time = call.now ∧
      Counts config k s.store (hit config.length last call.now) reply s'.store := by
  cases h with
  | others _ htime hstore =>
    exact .inl ⟨fun call he => (by cases he), counted_later hcounted htime (hstore k)⟩
  | check call store htime hcheck =>
    by_cases hk : call.key = k
    · rcases check_cases hcheck with ⟨_, hreply, rfl⟩ | ⟨hscript, _⟩
      · refine .inl ⟨?_, counted_later hcounted htime rfl⟩
        rintro _ ⟨⟩ _
        exact hreply
      · rw [hk] at hscript
        rcases script_hit hwindow hcounted htime with hnone | ⟨reply, s', hsome, hcounts⟩
        · obtain ⟨hreply, rfl⟩ := Prod.mk.inj (hscript.symm.trans hnone)
          refine .inl ⟨?_, counted_later hcounted htime rfl⟩
          rintro _ ⟨⟩ _
          exact hreply
        · obtain ⟨hreply, rfl⟩ := Prod.mk.inj (hscript.symm.trans hsome)
          exact .inr ⟨call, reply, rfl, hk, hreply, htime, rfl, hcounts⟩
    · refine .inl ⟨?_, counted_later hcounted htime ?_⟩
      · rintro _ ⟨⟩ hk'
        exact absurd hk' hk
      · rcases check_cases hcheck with ⟨_, _, rfl⟩ | ⟨hscript, _⟩
        · rfl
        · have hframe : (fixedWindowScript (config.key call.key) config.windowSeconds
              config.requests call.now s.store).2 (config.key k) = s.store (config.key k) :=
            script_frame (key_injective (Ne.symm hk))
          rwa [hscript] at hframe

structure Faithful (config : Config) (k : Bytes) (t : Transition) (h : Hit) : Prop where
  hitOf : hitOf config k t = some h
  time : t.2.2.time = h.time
  counted : Counted config k t.2.2 (some h)
  opens : live t.1.store h.time (config.key k) = none ↔ h.number = 1
  reply : ∃ call reply, t.2.1 = .check call ∧ call.key = k ∧ call.reply = some reply ∧
    call.now = h.time ∧ reply.allowed = (if (h.number : ℤ) ≤ config.requests then 1 else 0) ∧
    0 ≤ reply.ttl ∧ reply.ttl ≤ config.windowSeconds

structure Tracked (config : Config) (k : Bytes) (steps : List Transition) (s : State) : Prop where
  log : Log config.length (steps.filterMap (hitOf config k))
  counted : Counted config k s (steps.filterMap (hitOf config k)).getLast?
  faithful : ∀ t ∈ steps, ∀ call, t.2.1 = .check call → call.key = k → call.reply.isSome →
    ∃ h, Faithful config k t h

theorem step_tracked {steps : List Transition} (hwindow : 1 ≤ config.windowSeconds)
    (h : Step config s e s') (hsteps : Tracked config k steps s) :
    Tracked config k (steps ++ [(s, e, s')]) s' := by
  rcases step_hit hwindow h hsteps.counted with ⟨hsilent, hcounted⟩ |
    ⟨call, reply, rfl, hk, hreply, htime, htime', hcounts⟩
  · have hnone : hitOf config k (s, e, s') = none := by
      cases e with
      | others => rfl
      | check call =>
        apply if_neg
        rintro ⟨hk, hsome⟩
        rw [hsilent call rfl hk] at hsome
        cases hsome
    have hsame : (steps ++ [(s, e, s')]).filterMap (hitOf config k) =
        steps.filterMap (hitOf config k) := by
      simp [hnone]
    refine ⟨hsame ▸ hsteps.log, hsame ▸ hcounted, ?_⟩
    intro t ht call he hk hsome
    rcases List.mem_append.mp ht with ht | ht
    · exact hsteps.faithful t ht call he hk hsome
    · rw [List.mem_singleton.mp ht] at he
      rw [hsilent call he hk] at hsome
      cases hsome
  · obtain ⟨hallowed, hnonneg, hle, hcounted, hstore⟩ := hcounts
    have htime_hit := hit_time config.length (steps.filterMap (hitOf config k)).getLast? call.now
    have hopens := counted_opens hsteps.counted htime
    have hbefore : ∀ b ∈ (steps.filterMap (hitOf config k)).getLast?, b.time ≤ call.now := by
      intro b hb
      have hcounted := hsteps.counted
      rw [hb] at hcounted
      exact Int.le_trans hcounted.2.2.2 htime
    have hlog := hsteps.log.snoc hbefore
    generalize hit config.length (steps.filterMap (hitOf config k)).getLast? call.now = b at *
    have hcounted' : Counted config k s' (some b) := by
      obtain ⟨hentry, hproper, hlt, _⟩ := hcounted
      exact ⟨hentry, hproper, hlt, by omega⟩
    have hhit : hitOf config k (s, Event.check call, s') = some b := by
      have hif : call.key = k ∧ call.reply.isSome := ⟨hk, by rw [hreply]; rfl⟩
      simp only [hitOf, if_pos hif, hcounted'.1, Option.bind_some]
      rw [← htime_hit]
      exact hitAt_counter b
    have hsnoc : (steps ++ [(s, Event.check call, s')]).filterMap (hitOf config k) =
        steps.filterMap (hitOf config k) ++ [b] := by
      simp [hhit]
    refine ⟨hsnoc ▸ hlog, ?_, fun t ht call' he hk' hsome => ?_⟩
    · rw [hsnoc, List.getLast?_concat]
      exact hcounted'
    · rcases List.mem_append.mp ht with ht | ht
      · exact hsteps.faithful t ht call' he hk' hsome
      · rw [List.mem_singleton.mp ht]
        refine ⟨b, hhit, htime'.trans htime_hit.symm, hcounted', ?_, ?_⟩
        · rw [htime_hit]
          exact hopens
        · exact ⟨call, reply, rfl, hk, hreply, htime_hit.symm, hallowed, hnonneg, hle⟩

theorem path_tracked {s₀ : State} {steps : List Transition} (hwindow : 1 ≤ config.windowSeconds)
    (h : Path (Step config) s₀ steps s) (hstart : live s₀.store s₀.time (config.key k) = none) :
    Tracked config k steps s := by
  induction h with
  | start => exact ⟨.nil, hstart, by simp⟩
  | snoc _ hlast ih => exact step_tracked hwindow hlast ih

theorem step_result {call : Call} (h : Step config s (.check call) s')
    (hok : call.result.status ≠ .error) : ∃ reply, call.reply = some reply ∧ call.result =
      ⟨if reply.allowed = 1 then .allowed else .limited, max 1 (toInt reply.ttl)⟩ := by
  cases h with
  | check call store htime hcheck =>
    rcases check_cases hcheck with ⟨hresult, _, _⟩ | ⟨_, hresult | hreply⟩
    · exact absurd (congrArg RateLimitResult.status hresult) hok
    · exact absurd (congrArg RateLimitResult.status hresult) hok
    · exact hreply

theorem toInt_of_lt {n : ℤ} (hnonneg : 0 ≤ n) (hlt : n < 2 ^ 31) : toInt n = n := by
  rw [toInt, Int.bmod_eq_of_le (by omega) (by omega)]

variable {steps : List Transition}

/-- An answered call counted one hit, and its answer says whether it was within the limit. -/
theorem returned_hit {status : RateLimitStatus} {t : Transition}
    (htracked : Tracked config k steps s) (hstep : Step config t.1 t.2.1 t.2.2) (ht : t ∈ steps)
    (hreturns : returns k status t) (hok : status ≠ .error) :
    ∃ h, Faithful config k t h ∧ status = if (h.number : ℤ) ≤ config.requests then .allowed
      else .limited := by
  obtain ⟨s, e, s'⟩ := t
  cases e with
  | others => cases hreturns
  | check call =>
    simp only [returns, Bool.and_eq_true, decide_eq_true_eq] at hreturns
    obtain ⟨hk, rfl⟩ := hreturns
    obtain ⟨reply, hreply, hresult⟩ := step_result hstep hok
    obtain ⟨h, hfaithful⟩ := htracked.faithful _ ht call rfl hk (by rw [hreply]; rfl)
    refine ⟨h, hfaithful, ?_⟩
    obtain ⟨call', reply', he, _, hreply', _, hallowed, _⟩ := hfaithful.reply
    obtain rfl := Event.check.inj he
    obtain rfl := Option.some.inj (hreply.symm.trans hreply')
    rw [hresult, hallowed]
    by_cases hle : (h.number : ℤ) ≤ config.requests
    · rw [if_pos hle, if_pos hle, if_pos rfl]
    · rw [if_neg hle, if_neg hle, if_neg (by decide)]

theorem allowed_hit {t : Transition} (htracked : Tracked config k steps s)
    (hstep : Step config t.1 t.2.1 t.2.2) (ht : t ∈ steps) (hallowed : returns k .allowed t) :
    ∃ h, Faithful config k t h ∧ (h.number : ℤ) ≤ config.requests := by
  obtain ⟨h, hh, hstatus⟩ := returned_hit htracked hstep ht hallowed (by decide)
  refine ⟨h, hh, ?_⟩
  by_contra hnot
  rw [if_neg hnot] at hstatus
  cases hstatus

theorem faithful_expiry {t : Transition} {h : Hit} (hfaithful : Faithful config k t h) :
    expiry config k t = some (h.opened + config.length) := by
  rw [expiry, hfaithful.counted.1]
  rfl

theorem countP_le_filterMap {α β : Type} {l : List α} {f : α → Option β} {p : α → Bool}
    {q : β → Bool} (h : ∀ a ∈ l, p a → ∃ b, f a = some b ∧ q b) :
    l.countP p ≤ (l.filterMap f).countP q := by
  rw [List.countP_filterMap]
  apply List.countP_mono_left
  intro a ha hp
  obtain ⟨b, hb, hq⟩ := h a ha hp
  simp [hb, hq]

theorem filterMap_countP_le {α β : Type} {l : List α} {f : α → Option β} {p : α → Bool}
    {q : β → Bool} (h : ∀ a ∈ l, ∀ b, f a = some b → q b → p a) :
    (l.filterMap f).countP q ≤ l.countP p := by
  rw [List.countP_filterMap]
  apply List.countP_mono_left
  intro a ha hq
  cases hb : f a with
  | none => simp [hb] at hq
  | some b => exact h a ha b hb (by simpa [hb] using hq)

theorem Faithful.mem {t : Transition} {h : Hit} (hfaithful : Faithful config k t h)
    (ht : t ∈ steps) : h ∈ steps.filterMap (RateLimits.hitOf config k) :=
  List.mem_filterMap.mpr ⟨t, ht, hfaithful.hitOf⟩

theorem faithful_of_hitOf {t : Transition} {h : Hit} (htracked : Tracked config k steps s)
    (ht : t ∈ steps) (hhit : hitOf config k t = some h) : Faithful config k t h := by
  obtain ⟨s, e, s'⟩ := t
  cases e with
  | others => cases hhit
  | check call =>
    by_cases hcall : call.key = k ∧ call.reply.isSome
    · obtain ⟨h', hfaithful⟩ := htracked.faithful _ ht call rfl hcall.1 hcall.2
      obtain rfl := Option.some.inj (hfaithful.hitOf.symm.trans hhit)
      exact hfaithful
    · simp only [hitOf, if_neg hcall] at hhit
      cases hhit

theorem opens_hit {t : Transition} (htracked : Tracked config k steps s) (ht : t ∈ steps)
    (hopens : Opens config k t) : ∃ h, Faithful config k t h ∧ h.number = 1 := by
  obtain ⟨call, he, hk, hsome, hlive⟩ := hopens
  obtain ⟨h, hfaithful⟩ := htracked.faithful t ht call he hk hsome
  obtain ⟨call', _, he', _, _, hnow, _⟩ := hfaithful.reply
  obtain rfl := Event.check.inj (he.symm.trans he')
  exact ⟨h, hfaithful, hfaithful.opens.mp (hnow ▸ hlive)⟩

theorem hit_opens {t : Transition} {h : Hit} (hfaithful : Faithful config k t h)
    (hone : h.number = 1) : Opens config k t := by
  obtain ⟨call, reply, he, hk, hreply, hnow, _⟩ := hfaithful.reply
  exact ⟨call, he, hk, by rw [hreply]; rfl, hnow ▸ hfaithful.opens.mpr hone⟩

theorem window_allowed_le (hlength : 0 < config.length) (hreq : 1 ≤ config.requests)
    (htracked : Tracked config k steps s) (hsteps : ∀ t ∈ steps, Step config t.1 t.2.1 t.2.2)
    {before after : List Transition} {w : Transition} (heq : steps = before ++ w :: after)
    (hopens : Opens config k w) {deadline : ℤ} (hdeadline : deadline ∈ expiry config k w) :
    ((w :: after).countP fun t => returns k .allowed t && decide (t.2.2.time < deadline)) ≤
      config.requests := by
  obtain ⟨b, hb, _⟩ := opens_hit htracked (heq ▸ by simp) hopens
  obtain rfl := Option.some.inj ((faithful_expiry hb).symm.trans hdeadline)
  have hpairwise := htracked.log.pairwise hlength
  have hproper := htracked.log.proper hlength
  rw [heq, List.filterMap_append, List.filterMap_cons_some hb.hitOf] at hpairwise hproper
  have htail := (List.pairwise_append.mp hpairwise).2.1
  have hcount : ((w :: after).countP fun t => returns k .allowed t &&
      decide (t.2.2.time < b.opened + config.length)) ≤
      ((w :: after).filterMap (hitOf config k)).countP fun h =>
        decide (h.opened = b.opened) && decide (h.number ≤ config.requests.toNat) := by
    apply countP_le_filterMap
    intro t ht hallowed
    simp only [Bool.and_eq_true, decide_eq_true_eq] at hallowed
    have hmem : t ∈ steps := heq ▸ List.mem_append_right _ ht
    obtain ⟨h, hh, hwithin⟩ := allowed_hit htracked (hsteps t hmem) hmem hallowed.1
    refine ⟨h, hh.hitOf, ?_⟩
    have hopened : h.opened = b.opened := by
      have hmem := hh.mem ht
      rw [List.filterMap_cons_some hb.hitOf] at hmem
      rcases List.mem_cons.mp hmem with rfl | hmem
      · rfl
      · have htime := hh.time
        have hproper := hproper h (List.mem_append_right _ (List.mem_cons_of_mem _ hmem))
        rcases ((List.pairwise_cons.mp htail).1 h hmem).2 with ⟨hsame, _⟩ | hlater
        · exact hsame.symm
        · have hopened := hproper.2.1
          omega
    simp only [Bool.and_eq_true, decide_eq_true_eq]
    exact ⟨hopened, by omega⟩
  have hle : ((w :: after).filterMap (hitOf config k)).countP (fun h =>
      decide (h.opened = b.opened) && decide (h.number ≤ config.requests.toNat)) ≤
      config.requests.toNat := by
    rw [List.filterMap_cons_some hb.hitOf]
    refine countP_le (p := fun h => decide (h.opened = b.opened)) htail
      (fun a ha => hproper a (List.mem_append_right _ ha)) fun a _ c _ ha hc => ?_
    simp only [decide_eq_true_eq] at ha hc
    omega
  omega

/-- A call is limited only after the limit was used up in its window. -/
theorem limited_after (hlength : 0 < config.length) (hreq : 1 ≤ config.requests)
    (htracked : Tracked config k steps s) (hsteps : ∀ t ∈ steps, Step config t.1 t.2.1 t.2.2)
    {before after : List Transition} {t : Transition} (heq : steps = before ++ t :: after)
    (hlimited : returns k .limited t) :
    ∃ before' w mid, before = before' ++ w :: mid ∧ Opens config k w ∧
      (∃ deadline ∈ expiry config k w, t.2.2.time < deadline) ∧
      config.requests ≤ (w :: mid).countP (admits k) := by
  have ht : t ∈ steps := heq ▸ by simp
  obtain ⟨h, hh, hstatus⟩ := returned_hit htracked (hsteps t ht) ht hlimited (by decide)
  have hover : config.requests < h.number := by
    by_contra hnot
    rw [if_pos (by omega)] at hstatus
    cases hstatus
  have hlog := htracked.log
  have hpairwise := hlog.pairwise hlength
  have hproper := hlog.proper hlength
  rw [heq, List.filterMap_append, List.filterMap_cons_some hh.hitOf] at hlog hpairwise hproper
  obtain ⟨b, hb, hopened, hone⟩ := hlog.numbered (Nat.le_refl 1) (by omega)
  obtain ⟨w, hw, hwb⟩ := List.mem_filterMap.mp hb
  obtain ⟨before', mid, rfl⟩ := List.append_of_mem hw
  have hsub : ∀ t' ∈ w :: mid, t' ∈ steps := fun t' ht' => heq ▸ by
    simp only [List.mem_append]
    exact .inl (.inr ht')
  have hwb' := faithful_of_hitOf htracked (hsub w List.mem_cons_self) hwb
  refine ⟨before', w, mid, rfl, hit_opens hwb' hone, ⟨_, faithful_expiry hwb', ?_⟩, ?_⟩
  · have htime := (hproper h (by simp)).2.2
    rw [hh.time, hopened]
    exact htime
  · have hle := hlog.le_countP (show config.requests.toNat < h.number by omega)
    rw [List.filterMap_append, List.countP_append] at hle
    have hbefore : (before'.filterMap (hitOf config k)).countP (fun a =>
        decide (a.opened = h.opened) && decide (a.number ≤ config.requests.toNat)) = 0 := by
      apply List.countP_eq_zero.mpr
      intro a ha
      rw [List.filterMap_append, List.filterMap_cons_some hwb] at hpairwise hproper
      have hpos := (hproper a (by simp [ha])).1
      have hprecedes := ((List.pairwise_append.mp (List.pairwise_append.mp hpairwise).1).2.2
        a ha b List.mem_cons_self).2
      simp only [Bool.and_eq_true, decide_eq_true_eq]
      omega
    have hadmits : ((w :: mid).filterMap (hitOf config k)).countP (fun a =>
        decide (a.opened = h.opened) && decide (a.number ≤ config.requests.toNat)) ≤
        (w :: mid).countP (admits k) := by
      apply filterMap_countP_le
      intro t' ht' a ha hwithin
      simp only [Bool.and_eq_true, decide_eq_true_eq] at hwithin
      obtain ⟨call, reply, he, hk, hreply, _, hallowed, _⟩ :=
        (faithful_of_hitOf htracked (hsub t' ht') ha).reply
      rw [if_pos (by omega)] at hallowed
      simp [admits, he, hk, hreply, hallowed]
    omega

/-- An answered call leaves a deadline, and a limited one tells how long to wait. -/
theorem answered_expires {t : Transition} {status : RateLimitStatus}
    (htracked : Tracked config k steps s) (hsteps : ∀ t ∈ steps, Step config t.1 t.2.1 t.2.2)
    (ht : t ∈ steps) (hreturns : returns k status t) (hok : status ≠ .error) :
    ∃ deadline ∈ expiry config k t, t.2.2.time < deadline ∧
      deadline ≤ t.2.2.time + config.length := by
  obtain ⟨h, hh, _⟩ := returned_hit htracked (hsteps t ht) ht hreturns hok
  obtain ⟨_, ⟨_, hopened, hbefore⟩, _, _⟩ := hh.counted
  have htime := hh.time
  exact ⟨_, faithful_expiry hh, by omega, by omega⟩

theorem limited_retry {call : Call} (hwindow : 1 ≤ config.windowSeconds)
    (htracked : Tracked config k steps s) (hsteps : ∀ t ∈ steps, Step config t.1 t.2.1 t.2.2)
    {s₁ s₂ : State} (ht : (s₁, .check call, s₂) ∈ steps) (hk : call.key = k)
    (hlimited : call.result.status = .limited) :
    1 ≤ call.result.retryAfterSeconds ∧
      call.result.retryAfterSeconds ≤ config.windowSeconds := by
  obtain ⟨reply, hreply, hresult⟩ := step_result (hsteps _ ht) (by rw [hlimited]; decide)
  obtain ⟨h, hh⟩ := htracked.faithful _ ht call rfl hk (by rw [hreply]; rfl)
  obtain ⟨call', reply', he, _, hreply', _, _, hnonneg, hle⟩ := hh.reply
  obtain rfl := Event.check.inj he
  obtain rfl := Option.some.inj (hreply.symm.trans hreply')
  have hint := toInt_of_lt hnonneg (Int.lt_of_le_of_lt hle config.windowSeconds_lt)
  rw [hresult]
  simp only [hint]
  omega

theorem stretch_allowed_le (hlength : 0 < config.length) (hreq : 1 ≤ config.requests)
    (htracked : Tracked config k steps s) (hsteps : ∀ t ∈ steps, Step config t.1 t.2.1 t.2.2)
    (x : ℤ) : (steps.countP fun t => returns k .allowed t &&
      decide (x ≤ t.2.2.time ∧ t.2.2.time < x + config.length)) ≤ 2 * config.requests := by
  have hcount : (steps.countP fun t => returns k .allowed t &&
      decide (x ≤ t.2.2.time ∧ t.2.2.time < x + config.length)) ≤
      (steps.filterMap (hitOf config k)).countP fun h =>
        decide (x ≤ h.time ∧ h.time < x + config.length) &&
          decide (h.number ≤ config.requests.toNat) := by
    apply countP_le_filterMap
    intro t ht hallowed
    simp only [Bool.and_eq_true, decide_eq_true_eq] at hallowed
    obtain ⟨h, hh, hwithin⟩ := allowed_hit htracked (hsteps t ht) ht hallowed.1
    have htime := hh.time
    refine ⟨h, hh.hitOf, ?_⟩
    simp only [Bool.and_eq_true, decide_eq_true_eq]
    exact ⟨by omega, by omega⟩
  have hle := htracked.log.countP_stretch_le hlength config.requests.toNat x
  omega

/-- The limiter over any sequence of checks, from a key that does not exist. -/
theorem fixed_window {s₀ : State} (hreq : 1 ≤ config.requests) (hwindow : 1 ≤ config.windowSeconds)
    (h : Path (Step config) s₀ steps s) (hstart : live s₀.store s₀.time (config.key k) = none) :
    FixedWindow config k steps := by
  have hlength : 0 < config.length := by
    rw [Config.length]
    omega
  have htracked := path_tracked hwindow h hstart
  have hsteps : ∀ t ∈ steps, Step config t.1 t.2.1 t.2.2 := fun t ht =>
    ((h.invariant (P := fun _ => True) (Q := fun _ _ => True) trivial (fun _ _ _ _ _ _ => trivial)
      fun _ _ => trivial).2 t ht).2
  constructor
  · exact fun before w after heq hopens deadline hdeadline =>
      window_allowed_le hlength hreq htracked hsteps heq hopens hdeadline
  · exact fun before t after heq hlimited =>
      limited_after hlength hreq htracked hsteps heq hlimited
  · intro t ht hanswered
    rcases hanswered with hallowed | hlimited
    · exact answered_expires htracked hsteps ht hallowed (by decide)
    · exact answered_expires htracked hsteps ht hlimited (by decide)
  · exact fun s₁ call s₂ ht hk hlimited => limited_retry hwindow htracked hsteps ht hk hlimited
  · exact stretch_allowed_le hlength hreq htracked hsteps

def checked (config : Config) (s : State) (key : Bytes) (connection : Connection) (now : ℤ) :
    Event × State :=
  let (result, reply, store) := check config key connection now s.store
  (.check ⟨key, connection, now, result, reply⟩, ⟨now, store⟩)

theorem step_checked (config : Config) (s : State) (key : Bytes) (connection : Connection)
    {now : ℤ} (hnow : s.time ≤ now) : Step config s (checked config s key connection now).1
      (checked config s key connection now).2 :=
  .check s ⟨key, connection, now, _, _⟩ _ hnow rfl

/-- One call a second: the second one comes too early, the third one opens a new window. -/
theorem fixed_window_demo :
    let config : Config := { requests := 1, windowSeconds := 1 }
    ∃ steps s, Path (Step config) ⟨0, fun _ => none⟩ steps s ∧
      steps.map (fun t => returns (ascii "global") .allowed t) = [true, false, true] ∧
      steps.map (fun t => returns (ascii "global") .limited t) = [false, true, false] ∧
      FixedWindow config (ascii "global") steps := by
  intro config
  let first := checked config ⟨0, fun _ => none⟩ (ascii "global") .working 0
  let second := checked config first.2 (ascii "global") .working 700
  have hfirst := step_checked config ⟨0, fun _ => none⟩ (ascii "global") .working
    (show (0 : ℤ) ≤ 0 by decide)
  have hsecond := step_checked config first.2 (ascii "global") .working
    (show (0 : ℤ) ≤ 700 by decide)
  have hthird := step_checked config second.2 (ascii "global") .working
    (show (700 : ℤ) ≤ 1000 by decide)
  have hpath := ((Path.start.snoc hfirst).snoc hsecond).snoc hthird
  exact ⟨_, _, hpath, by decide, by decide, fixed_window (by decide) (by decide) hpath rfl⟩

end RateLimits
