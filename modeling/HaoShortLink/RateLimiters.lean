import HaoShortLink.FixedWindows
import HaoShortLink.Histories
import HaoShortLink.RedisStores
import HaoShortLink.ServerStates

/-! RedisFixedWindowRateLimiter.cpp: a counter in Redis that the instances of the server share. -/
namespace RateLimiters

open Cpp Histories RedisStores FixedWindows
open ServerStates (RateLimitResult RateLimitStatus)

/-- The settings that a check uses after it has connected. -/
structure Config where
  requests : ℤ := 100
  windowSeconds : ℤ := 60
  keyPrefix : Bytes := ascii "rate-limit:create:"
  /-- windowSeconds is an int. -/
  windowSeconds_lt : windowSeconds < 2 ^ 31 := by decide

structure Reply where
  allowed : ℤ
  ttl : ℤ
  deriving DecidableEq, Repr

/-- kFixedWindowScript, with the numbers of its arguments; INCR may end it with an error. -/
def fixedWindowScript (key : Bytes) (windowSeconds requests : ℤ) (now : ℤ) (s : Store) :
    Option Reply × Store :=
  match incr s now key with
  | none => (none, s)
  | some (current, s) =>
    let s := if current = 1 then expire s now key windowSeconds else s
    let ttl := RedisStores.ttl s now key
    let (s, ttl) := if ttl < 0 then (expire s now key windowSeconds, windowSeconds) else (s, ttl)
    let allowed := if current ≤ requests then 1 else 0
    (some ⟨allowed, ttl⟩, s)

/-- static_cast<int>(value) -/
def toInt (value : ℤ) : ℤ := value.bmod (2 ^ 32)

/-- The result, what the script returned if it ran, and the database afterwards. -/
def check (config : Config) (key : Bytes) (connection : Connection) (now : ℤ) (s : Store) :
    RateLimitResult × Option Reply × Store :=
  match connection with
  | .unreachable => (⟨.error, 0⟩, none, s)
  | .replyLost =>
    let (reply, s) := fixedWindowScript (config.keyPrefix ++ key) config.windowSeconds
      config.requests now s
    (⟨.error, 0⟩, reply, s)
  | .working =>
    let (reply, s) := fixedWindowScript (config.keyPrefix ++ key) config.windowSeconds
      config.requests now s
    match reply with
    | none => (⟨.error, 0⟩, none, s)
    | some reply =>
      (⟨if reply.allowed = 1 then .allowed else .limited, max 1 (toInt reply.ttl)⟩, some reply, s)

structure State where
  time : ℤ
  store : Store

structure Call where
  key : Bytes
  connection : Connection
  now : ℤ
  result : RateLimitResult
  reply : Option Reply

inductive Event where
  | check (call : Call)
  | others

/-- A check by any instance, or anything that others do to other keys. -/
inductive Step (config : Config) : State → Event → State → Prop where
  | check (s : State) (call : Call) (store : Store) : s.time ≤ call.now →
      RateLimiters.check config call.key call.connection call.now s.store =
        (call.result, call.reply, store) →
      Step config s (.check call) ⟨call.now, store⟩
  | others (s s' : State) : s.time ≤ s'.time →
      (∀ key, s'.store (config.keyPrefix ++ key) = s.store (config.keyPrefix ++ key)) →
      Step config s .others s'

def Config.length (config : Config) : ℤ := config.windowSeconds * 1000

/-- The counter of a window: the number of its last hit, until the window ends. -/
def counter (length : ℤ) (h : Hit) : Entry := ⟨toDecimal h.number, some (h.opened + length)⟩

theorem live_counter {s : Store} {key : Bytes} {length now : ℤ} {h : Hit}
    (hs : s key = some (counter length h)) :
    live s now key = if now < h.opened + length then some (counter length h) else none :=
  live_of_deadline hs

theorem ttl_counter {s : Store} {key : Bytes} {length now : ℤ} {h : Hit}
    (hs : s key = some (counter length h)) (hnow : now < h.opened + length) :
    ttl s now key = (h.opened + length - now + 500) / 1000 := by
  rw [ttl, live_counter hs, if_pos hnow]
  rfl

theorem script_opens {s : Store} {key : Bytes} {now windowSeconds : ℤ} (requests : ℤ)
    (hwindow : 1 ≤ windowSeconds) (hlive : live s now key = none) :
    fixedWindowScript key windowSeconds requests now s =
      (some ⟨if 1 ≤ requests then 1 else 0, windowSeconds⟩,
        Function.update s key (some (counter (windowSeconds * 1000) ⟨now, now, 1⟩))) := by
  have hexpire : expire (Function.update s key (some ⟨signedToDecimal 1, none⟩)) now key
      windowSeconds =
      Function.update s key (some (counter (windowSeconds * 1000) ⟨now, now, 1⟩)) := by
    have hset : live (Function.update s key (some ⟨signedToDecimal 1, none⟩)) now key =
        some ⟨signedToDecimal 1, none⟩ := by
      simp [live]
    rw [expire, hset]
    simp only [if_neg (show ¬ windowSeconds ≤ 0 by omega), Function.update_idem]
    rfl
  have httl : ttl (Function.update s key (some (counter (windowSeconds * 1000) ⟨now, now, 1⟩)))
      now key = windowSeconds := by
    rw [ttl_counter (Function.update_self ..) (by simp only; omega)]
    simp only
    omega
  simp only [fixedWindowScript, incr, hlive, if_true, hexpire, httl,
    if_neg (show ¬ windowSeconds < 0 by omega)]

theorem script_counts {s : Store} {key : Bytes} {now windowSeconds : ℤ} {h : Hit} (requests : ℤ)
    (hs : s key = some (counter (windowSeconds * 1000) h)) (hpos : 1 ≤ h.number)
    (hlt : h.number < 2 ^ 63) (hopened : h.opened ≤ now)
    (hlive : now < h.opened + windowSeconds * 1000) :
    (fixedWindowScript key windowSeconds requests now s = (none, s) ∧ h.number = 2 ^ 63 - 1) ∨
    ∃ ttl, 0 ≤ ttl ∧ ttl ≤ windowSeconds ∧ h.number + 1 < 2 ^ 63 ∧
      fixedWindowScript key windowSeconds requests now s =
        (some ⟨if ((h.number + 1 : ℕ) : ℤ) ≤ requests then 1 else 0, ttl⟩,
          Function.update s key
            (some (counter (windowSeconds * 1000) ⟨now, h.opened, h.number + 1⟩))) := by
  have hentry : live s now key = some (counter (windowSeconds * 1000) h) := by
    rw [live_counter hs, if_pos hlive]
  by_cases hmax : (h.number : ℤ) = 2 ^ 63 - 1
  · left
    refine ⟨?_, by omega⟩
    simp only [fixedWindowScript, incr, hentry, counter, string2ll_toDecimal hlt, if_pos hmax]
  · right
    refine ⟨(h.opened + windowSeconds * 1000 - now + 500) / 1000, by omega, by omega, by omega, ?_⟩
    have httl : ttl (Function.update s key
        (some (counter (windowSeconds * 1000) ⟨now, h.opened, h.number + 1⟩))) now key =
        (h.opened + windowSeconds * 1000 - now + 500) / 1000 :=
      ttl_counter (h := ⟨now, h.opened, h.number + 1⟩) (Function.update_self ..) hlive
    have hnext : signedToDecimal ((h.number : ℤ) + 1) = toDecimal (h.number + 1) :=
      Decimals.signedToDecimal_natCast (h.number + 1)
    have hincr : incr s now key = some ((h.number : ℤ) + 1, Function.update s key
        (some (counter (windowSeconds * 1000) ⟨now, h.opened, h.number + 1⟩))) := by
      simp only [incr, hentry, counter, string2ll_toDecimal hlt, if_neg hmax, hnext]
    simp only [fixedWindowScript, hincr, if_neg (show ¬ (h.number : ℤ) + 1 = 1 by omega), httl,
      if_neg (show ¬ (h.opened + windowSeconds * 1000 - now + 500) / 1000 < 0 by omega)]
    rfl

def deadlineOf (s : Store) (key : Bytes) : Option ℤ := (s key).bind Entry.deadline

theorem deadlineOf_live {s : Store} {key : Bytes} {now : ℤ} {e : Entry}
    (h : live s now key = some e) :
    deadlineOf s key = e.deadline ∧ ∀ deadline ∈ e.deadline, now < deadline := by
  obtain ⟨hstands, hcomes⟩ := Option.filter_eq_some_iff.mp h
  refine ⟨by rw [deadlineOf, hstands, Option.bind_some], ?_⟩
  simpa [Option.all_eq_true] using hcomes

theorem live_update {s : Store} {key value : Bytes} {now : ℤ} {deadline : Option ℤ}
    (h : ∀ d ∈ deadline, now < d) :
    live (Function.update s key (some ⟨value, deadline⟩)) now key = some ⟨value, deadline⟩ := by
  rw [live, Function.update_self, Option.filter_some, if_pos]
  simpa [Option.all_eq_true] using h

theorem live_expire {s : Store} {key : Bytes} {now seconds : ℤ} {e : Entry}
    (hlive : live s now key = some e) (hseconds : 1 ≤ seconds) :
    live (expire s now key seconds) now key =
      some ⟨e.value, some (now + seconds * 1000)⟩ := by
  rw [expire, hlive]
  simp only [if_neg (show ¬ seconds ≤ 0 by omega)]
  apply live_update
  rintro d ⟨⟩
  omega

theorem deadlineOf_ensured {s : Store} {key : Bytes} {now seconds : ℤ} {e : Entry}
    (hlive : live s now key = some e) (hseconds : 1 ≤ seconds) :
    deadlineOf (if ttl s now key < 0 then expire s now key seconds else s) key =
      some (e.deadline.getD (now + seconds * 1000)) := by
  cases hdeadline : e.deadline with
  | none =>
    have httl : ttl s now key = -1 := by simp [ttl, hlive, hdeadline]
    rw [httl, if_pos (by decide), (deadlineOf_live (live_expire hlive hseconds)).1]
    rfl
  | some deadline =>
    obtain ⟨hstands, hcomes⟩ := deadlineOf_live hlive
    have hnow := hcomes deadline hdeadline
    have httl : ttl s now key = (deadline - now + 500) / 1000 := by simp [ttl, hlive, hdeadline]
    rw [httl, if_neg (by omega), hstands, hdeadline]
    rfl

theorem live_incr {s counted : Store} {key : Bytes} {now current : ℤ}
    (h : incr s now key = some (current, counted)) : ∃ e, live counted now key = some e ∧
      ∀ deadline ∈ e.deadline, deadlineOf s key = some deadline := by
  rw [incr] at h
  split at h
  · obtain ⟨_, rfl⟩ := Prod.mk.inj (Option.some.inj h)
    exact ⟨_, live_update (by simp), by simp⟩
  · next e hlive =>
    obtain ⟨hstands, hcomes⟩ := deadlineOf_live hlive
    split at h
    · cases h
    · split at h
      · cases h
      · obtain ⟨_, rfl⟩ := Prod.mk.inj (Option.some.inj h)
        exact ⟨_, live_update hcomes, fun deadline hd => hstands.trans hd⟩

/-- From whatever stands at its key, a run of the script that returns leaves an expiry to come: of
the window from now on, unless it keeps the one that stood there before. -/
theorem script_expires {s s' : Store} {key : Bytes} {now windowSeconds requests : ℤ} {reply : Reply}
    (hwindow : 1 ≤ windowSeconds)
    (h : fixedWindowScript key windowSeconds requests now s = (some reply, s')) :
    ∃ deadline, deadlineOf s' key = some deadline ∧ now < deadline ∧
      (deadline = now + windowSeconds * 1000 ∨ deadlineOf s key = some deadline) := by
  have hensured : ∀ {opened : Store} {e : Entry}, live opened now key = some e →
      s' = (if ttl opened now key < 0 then expire opened now key windowSeconds else opened) →
      (∀ d ∈ e.deadline, d = now + windowSeconds * 1000 ∨ deadlineOf s key = some d) →
      ∃ deadline, deadlineOf s' key = some deadline ∧ now < deadline ∧
        (deadline = now + windowSeconds * 1000 ∨ deadlineOf s key = some deadline) := by
    intro opened e hlive hs' hfrom
    refine ⟨_, hs' ▸ deadlineOf_ensured hlive hwindow, ?_⟩
    cases hdeadline : e.deadline with
    | none => exact ⟨by simp only [Option.getD_none]; omega, .inl rfl⟩
    | some d => exact ⟨(deadlineOf_live hlive).2 d hdeadline, hfrom d hdeadline⟩
  rw [fixedWindowScript] at h
  cases hincr : incr s now key with
  | none => simp [hincr] at h
  | some result =>
    obtain ⟨current, counted⟩ := result
    obtain ⟨e, hlive, hkept⟩ := live_incr hincr
    simp only [hincr] at h
    by_cases hone : current = 1
    · rw [if_pos hone] at h
      refine hensured (live_expire hlive hwindow) ?_ ?_
      · refine (Prod.mk.inj h).2.symm.trans ?_
        split <;> rfl
      · rintro d ⟨⟩
        exact .inl rfl
    · rw [if_neg hone] at h
      refine hensured hlive ?_ fun d hd => .inr (hkept d hd)
      refine (Prod.mk.inj h).2.symm.trans ?_
      split <;> rfl

variable {config : Config} {k : Bytes} {s s' : State}

def Config.key (config : Config) (k : Bytes) : Bytes := config.keyPrefix ++ k

/-- The counter of a key stands for its last hit; where there was none, or an older run has left
something, it has expired. -/
def Counted (config : Config) (k : Bytes) (s : State) : Option Hit → Prop
  | none => live s.store s.time (config.key k) = none
  | some h => s.store (config.key k) = some (counter config.length h) ∧ h.Proper config.length ∧
      h.number < 2 ^ 63 ∧ h.time ≤ s.time

/-- The script returns whether the hit is within the limit, and leaves the counter at it. -/
def Counts (config : Config) (k : Bytes) (s : Store) (h : Hit) (reply : Reply) (s' : Store) :
    Prop :=
  reply.allowed = (if (h.number : ℤ) ≤ config.requests then 1 else 0) ∧
    0 ≤ reply.ttl ∧ reply.ttl ≤ config.windowSeconds ∧ Counted config k ⟨h.time, s'⟩ (some h) ∧
    s' = Function.update s (config.key k) (some (counter config.length h))

theorem script_hit {last : Option Hit} {now : ℤ} (hwindow : 1 ≤ config.windowSeconds)
    (hcounted : Counted config k s last) (hnow : s.time ≤ now) :
    fixedWindowScript (config.key k) config.windowSeconds config.requests now s.store =
      (none, s.store) ∨
    ∃ reply s', fixedWindowScript (config.key k) config.windowSeconds config.requests now s.store =
      (some reply, s') ∧ Counts config k s.store (hit config.length last now) reply s' := by
  have hopens : live s.store now (config.key k) = none →
      hit config.length last now = ⟨now, now, 1⟩ → ∃ reply s',
        fixedWindowScript (config.key k) config.windowSeconds config.requests now s.store =
          (some reply, s') ∧
        Counts config k s.store (hit config.length last now) reply s' := by
    intro hlive hhit
    rw [hhit]
    refine ⟨_, _, script_opens config.requests hwindow hlive, rfl, ?_, Int.le_refl _, ?_, rfl⟩
    · simp only
      omega
    · refine ⟨Function.update_self .., ⟨Nat.le_refl 1, Int.le_refl _, ?_⟩, by simp, Int.le_refl _⟩
      simp only [Config.length]
      omega
  cases last with
  | none => exact .inr (hopens (live_none_mono hcounted hnow) rfl)
  | some h =>
    obtain ⟨hstore, ⟨hpos, hopened, _⟩, hlt, htime⟩ := hcounted
    by_cases hlive : now < h.opened + config.length
    · rcases script_counts config.requests hstore hpos hlt (by omega) hlive with
        ⟨herror, _⟩ | ⟨ttl, hnonneg, hle, hnext, hscript⟩
      · exact .inl herror
      · have hhit : hit config.length (some h) now = ⟨now, h.opened, h.number + 1⟩ := by
          rw [hit, if_pos hlive]
        rw [hhit]
        refine .inr ⟨_, _, hscript, rfl, hnonneg, hle, ?_, rfl⟩
        exact ⟨Function.update_self .., ⟨by simp, by simp only; omega, hlive⟩, hnext,
          Int.le_refl _⟩
    · refine .inr (hopens ?_ (by rw [hit, if_neg hlive]))
      rw [live_counter hstore, if_neg hlive]

theorem check_cases {key : Bytes} {connection : Connection} {now : ℤ} {store store' : Store}
    {result : RateLimitResult} {reply : Option Reply}
    (h : check config key connection now store = (result, reply, store')) :
    (result = ⟨.error, 0⟩ ∧ reply = none ∧ store' = store) ∨
    (fixedWindowScript (config.key key) config.windowSeconds config.requests now store =
      (reply, store') ∧
      (result = ⟨.error, 0⟩ ∨ ∃ r, reply = some r ∧
        result = ⟨if r.allowed = 1 then .allowed else .limited, max 1 (toInt r.ttl)⟩)) := by
  cases connection with
  | unreachable =>
    simp only [check, Prod.mk.injEq] at h
    exact .inl ⟨h.1.symm, h.2.1.symm, h.2.2.symm⟩
  | replyLost =>
    simp only [check, Prod.mk.injEq] at h
    exact .inr ⟨Prod.ext h.2.1 h.2.2, .inl h.1.symm⟩
  | working =>
    right
    simp only [check] at h
    split at h
    · next hreply =>
      simp only [Prod.mk.injEq] at h
      exact ⟨Prod.ext (hreply.trans h.2.1) h.2.2, .inl h.1.symm⟩
    · next r hreply =>
      simp only [Prod.mk.injEq] at h
      exact ⟨Prod.ext (hreply.trans h.2.1) h.2.2, .inr ⟨r, h.2.1.symm, h.1.symm⟩⟩

/-- An answered call leaves an expiry at its key, whatever stood there before. -/
theorem check_expires {key : Bytes} {connection : Connection} {now : ℤ} {store store' : Store}
    {result : RateLimitResult} {reply : Option Reply} (hwindow : 1 ≤ config.windowSeconds)
    (h : check config key connection now store = (result, reply, store'))
    (hanswered : result.status ≠ .error) :
    ∃ deadline, deadlineOf store' (config.key key) = some deadline ∧ now < deadline ∧
      (deadline = now + config.length ∨ deadlineOf store (config.key key) = some deadline) := by
  rcases check_cases h with ⟨hresult, _⟩ | ⟨hscript, hresult | ⟨r, hreply, _⟩⟩
  · exact absurd (congrArg RateLimitResult.status hresult) hanswered
  · exact absurd (congrArg RateLimitResult.status hresult) hanswered
  · rw [hreply] at hscript
    exact script_expires hwindow hscript

end RateLimiters
