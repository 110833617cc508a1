import HaoShortLink.CachedLinks

/-! The query cache under calls that overlap: every access to the source or to Redis is a step of
its own, at one reading of the clock in milliseconds. -/
namespace CacheStaleness

open Cpp ShortLinks RedisStores RedisCaches Histories CachedLinks
open MemoryShortLinks (CreateCall)

/-- What findByCode read from the source, and how many steps there had been by then. -/
structure Read where
  record : ShortLinkRecord
  fits : Fits record
  readAt : ℕ
  deriving DecidableEq

/-- A call between two steps, by what it does next. -/
inductive Client where
  | missed (code : Bytes)
  | fetched (read : Read)
  | wrote (code : Bytes)
  deriving DecidableEq

structure Origin where
  read : Read
  setAt : ℤ
  deriving DecidableEq

/-- origins is written beside the entries, and nothing reads it. -/
structure State (S : Type) where
  time : ℤ
  count : ℕ
  cached : Cached S
  origins : Bytes → Option Origin
  clients : Multiset Client

inductive Action where
  | get (code : Bytes) (reply deleteReply : Connection)
  | findSource (code : Bytes)
  | set (read : Read) (reply : Connection)
  | updateSource (code : Bytes) (update : LifecycleUpdate) (epochSeconds : ℤ)
  | erase (code : Bytes) (reply : Connection)
  | create (c : CreateCall)
  | evict (key : Bytes)
  | abandon (client : Client)

structure Event where
  now : ℤ
  action : Action

section Machine

variable {S : Type} (sourceRepository : ShortLinkRepository S) (cache : RedisShortLinkCache)

def noteOrigin (read : Read) (reply : Connection) (now : ℤ)
    (origins : Bytes → Option Origin) : Bytes → Option Origin :=
  if reply ≠ .unreachable ∧ (cache.ttlFor read.record (now.tdiv 1000)).isSome then
    Function.update origins read.record.code (some ⟨read, now⟩)
  else origins

def act (now : ℤ) (s : State S) : Action → Option (State S)
  | .get code reply deleteReply =>
    let found := cache.get code reply deleteReply now s.cached.store
    some { s with
      cached := { s.cached with store := found.2 }
      clients := if found.1.isSome then s.clients else .missed code ::ₘ s.clients }
  | .findSource code => advance s.clients (.missed code) fun rest =>
    match sourceRepository.findByCode code s.cached.source with
    | .ok ⟨some record, _⟩ =>
      -- the fields of a record are in the ranges of their types
      if h : Fits record then some { s with clients := .fetched ⟨record, h, s.count⟩ ::ₘ rest }
      else none
    | _ => some { s with clients := rest }
  | .set read reply => advance s.clients (.fetched read) fun rest =>
    some { s with
      cached := { s.cached with store := (cache.set read.record reply now s.cached.store).2 }
      origins := noteOrigin cache read reply now s.origins
      clients := rest }
  | .updateSource code update epochSeconds =>
    match sourceRepository.updateLifecycle code update epochSeconds s.cached.source with
    | (.ok (some _), source) =>
      some { s with
        cached := { s.cached with source := source }
        clients := .wrote code ::ₘ s.clients }
    | (_, source) => some { s with cached := { s.cached with source := source } }
  | .erase code reply => advance s.clients (.wrote code) fun rest =>
    some { s with
      cached := { s.cached with store := (cache.erase code reply s.cached.store).2 }
      clients := rest }
  | .create c => some { s with cached := (CachedLinks.create sourceRepository c s.cached).2 }
  | .evict key => some { s with cached := { s.cached with store := del s.cached.store key } }
  | .abandon client => advance s.clients client fun rest => some { s with clients := rest }

def next (s : State S) (e : Event) : Option (State S) :=
  if s.time ≤ e.now then
    (act sourceRepository cache e.now s e.action).map fun s' =>
      { s' with time := e.now, count := s.count + 1 }
  else none

def Step (s : State S) (e : Event) (s' : State S) : Prop :=
  next sourceRepository cache s e = some s'

/-- Nobody has called yet, and what Redis holds under the keys is no record. -/
structure Start (s : State S) : Prop where
  clients : s.clients = 0
  origins : ∀ code, s.origins code = none
  store : ∀ code entry, s.cached.store (cache.key code) = some entry →
    ¬ (ascii "v2|").isPrefixOf entry.value

def ReadBy (read : Read) (s : State S) (e : Event) : Prop :=
  s.count = read.readAt ∧ ∃ code found, e.action = .findSource code ∧
    sourceRepository.findByCode code s.cached.source = .ok ⟨some read.record, found⟩

inductive Change (s : State S) (e : Event) (s' : State S) : Prop where
  | quiet : (∀ read reply, e.action ≠ .set read reply) →
      (∀ P, cache.Holds P s.cached.store → cache.Holds P s'.cached.store) →
      s'.origins = s.origins →
      (∀ read, .fetched read ∈ s'.clients →
        .fetched read ∈ s.clients ∨ ReadBy sourceRepository read s e) → Change s e s'
  | sets (read : Read) (reply : Connection) : e.action = .set read reply →
      .fetched read ∈ s.clients →
      s'.cached.store = (cache.set read.record reply e.now s.cached.store).2 →
      s'.origins = noteOrigin cache read reply e.now s.origins →
      (∀ read', .fetched read' ∈ s'.clients → .fetched read' ∈ s.clients) → Change s e s'

end Machine

variable {S : Type} {sourceRepository : ShortLinkRepository S} {cache : RedisShortLinkCache}
  {s s' : State S} {e : Event}

theorem step_eq (h : Step sourceRepository cache s e s') :
    s.time ≤ e.now ∧ s'.time = e.now ∧ s'.count = s.count + 1 ∧
      ∃ t, act sourceRepository cache e.now s e.action = some t ∧ s'.cached = t.cached ∧
        s'.origins = t.origins ∧ s'.clients = t.clients := by
  simp only [Step, next, Option.ite_none_right_eq_some] at h
  obtain ⟨htime, h⟩ := h
  obtain ⟨t, hact, rfl⟩ := Option.map_eq_some_iff.mp h
  exact ⟨htime, rfl, rfl, t, hact, rfl, rfl, rfl⟩

theorem step_of_act {now : ℤ} {action : Action} {t : State S} (htime : s.time ≤ now)
    (hact : act sourceRepository cache now s action = some t) :
    Step sourceRepository cache s ⟨now, action⟩ { t with time := now, count := s.count + 1 } := by
  simp only [Step, next, hact, Option.map_some]
  rw [if_pos htime]

theorem findSource_none {code : Bytes} {now : ℤ} {rest : Multiset Client} (htime : s.time ≤ now)
    (hclients : s.clients = .missed code ::ₘ rest)
    (h : ∀ record found, sourceRepository.findByCode code s.cached.source ≠
      .ok ⟨some record, found⟩) :
    Step sourceRepository cache s ⟨now, .findSource code⟩
      { s with time := now, count := s.count + 1, clients := rest } := by
  apply step_of_act (t := { s with clients := rest }) htime
  -- by h the branch with a record is out
  simp only [act, hclients, advance_cons]

theorem findSource_some {code : Bytes} {now : ℤ} {rest : Multiset Client}
    {record : ShortLinkRecord} {found : LookupSource} (htime : s.time ≤ now)
    (hclients : s.clients = .missed code ::ₘ rest) (hfits : Fits record)
    (h : sourceRepository.findByCode code s.cached.source = .ok ⟨some record, found⟩) :
    Step sourceRepository cache s ⟨now, .findSource code⟩
      { s with
        time := now
        count := s.count + 1
        clients := .fetched ⟨record, hfits, s.count⟩ ::ₘ rest } := by
  apply step_of_act (t := { s with clients := .fetched ⟨record, hfits, s.count⟩ ::ₘ rest }) htime
  simp only [act, hclients, advance_cons, h, dif_pos hfits]

theorem set_step (sourceRepository : ShortLinkRepository S) (cache : RedisShortLinkCache)
    {read : Read} {now : ℤ} {rest : Multiset Client} (reply : Connection)
    (htime : s.time ≤ now) (hclients : s.clients = .fetched read ::ₘ rest) :
    ∃ t : State S, t.cached = { s.cached with
        store := (cache.set read.record reply now s.cached.store).2 } ∧ t.clients = rest ∧
      Step sourceRepository cache s ⟨now, .set read reply⟩ t := by
  have hact : act sourceRepository cache now s (.set read reply) = some { s with
      cached := { s.cached with store := (cache.set read.record reply now s.cached.store).2 }
      origins := noteOrigin cache read reply now s.origins
      clients := rest } := by
    simp only [act, hclients, advance_cons]
  exact ⟨_, rfl, rfl, step_of_act htime hact⟩

theorem erase_step (sourceRepository : ShortLinkRepository S) (cache : RedisShortLinkCache)
    {code : Bytes} {now : ℤ} {rest : Multiset Client} (reply : Connection)
    (htime : s.time ≤ now) (hclients : s.clients = .wrote code ::ₘ rest) :
    ∃ t : State S, t.cached = { s.cached with
        store := (cache.erase code reply s.cached.store).2 } ∧ t.clients = rest ∧
      Step sourceRepository cache s ⟨now, .erase code reply⟩ t := by
  have hact : act sourceRepository cache now s (.erase code reply) = some { s with
      cached := { s.cached with store := (cache.erase code reply s.cached.store).2 }
      clients := rest } := by
    simp only [act, hclients, advance_cons]
  exact ⟨_, rfl, rfl, step_of_act htime hact⟩

theorem findByCode_steps (code : Bytes) (io : Io) (htime : s.time ≤ io.getNow)
    (hio : io.getNow ≤ io.setNow)
    (hfits : ∀ record found, sourceRepository.findByCode code s.cached.source =
      .ok ⟨some record, found⟩ → Fits record) :
    ∃ events s', Run (Step sourceRepository cache) s events s' ∧
      s'.cached = (findByCode sourceRepository cache code io s.cached).2 ∧
      s'.clients = s.clients := by
  have hget : Step sourceRepository cache s ⟨io.getNow, .get code io.get io.deleteInvalid⟩ _ :=
    step_of_act htime rfl
  cases hfound : (cache.get code io.get io.deleteInvalid io.getNow s.cached.store).1 with
  | some record =>
    simp only [hfound, Option.isSome_some, if_true] at hget
    refine ⟨_, _, .snoc .start hget, ?_, rfl⟩
    simp only [findByCode, hfound]
  | none =>
    simp only [hfound, Option.isSome_none, Bool.false_eq_true, if_false] at hget
    obtain ⟨t, hnow, hclients, hcached, hmissed⟩ : ∃ t : State S, t.time = io.getNow ∧
        t.clients = .missed code ::ₘ s.clients ∧
        t.cached = { s.cached with
          store := (cache.get code io.get io.deleteInvalid io.getNow s.cached.store).2 } ∧
        Run (Step sourceRepository cache) s [⟨io.getNow, .get code io.get io.deleteInvalid⟩] t :=
      ⟨_, rfl, rfl, rfl, .snoc .start hget⟩
    by_cases hrecord : ∃ record found,
        sourceRepository.findByCode code s.cached.source = .ok ⟨some record, found⟩
    · obtain ⟨record, found, hfind⟩ := hrecord
      have hread : Step sourceRepository cache t ⟨io.getNow, .findSource code⟩ _ :=
        findSource_some hnow.le hclients (hfits record found hfind) (by rw [hcached]; exact hfind)
      obtain ⟨u, hfilled, hrest, hset⟩ := set_step sourceRepository cache (s := { t with
        time := io.getNow
        count := t.count + 1
        clients := .fetched ⟨record, hfits record found hfind, t.count⟩ ::ₘ s.clients })
        io.set hio rfl
      refine ⟨_, u, .snoc (.snoc hmissed hread) hset, ?_, hrest⟩
      simp only [hfilled, findByCode, hfound, hfind, hcached, fill]
    · have hread : Step sourceRepository cache t ⟨io.getNow, .findSource code⟩ _ :=
        findSource_none hnow.le hclients (fun record found hfind => hrecord ⟨record, found, by
          rw [hcached] at hfind
          exact hfind⟩)
      refine ⟨_, _, .snoc hmissed hread, ?_, rfl⟩
      simp only [findByCode, hfound, hcached]
      cases hfind : sourceRepository.findByCode code s.cached.source with
      | error e => rfl
      | ok result =>
        have hnone : result.record = none := by
          by_contra hsome
          obtain ⟨record, hrecord'⟩ := Option.ne_none_iff_exists'.mp hsome
          exact hrecord ⟨record, result.source, by rw [hfind, ← hrecord']⟩
        simp only [hnone, fill]

theorem updateLifecycle_steps (code : Bytes) (update : LifecycleUpdate) (epochSeconds : ℤ)
    (io : Io) :
    ∃ events s', Run (Step sourceRepository cache) s events s' ∧
      s'.cached =
        (updateLifecycle sourceRepository cache code update epochSeconds io s.cached).2 ∧
      s'.clients = s.clients := by
  have hupdate : ∀ {t}, act sourceRepository cache s.time s
      (.updateSource code update epochSeconds) = some t → _ := step_of_act le_rfl
  simp only [act] at hupdate
  simp only [updateLifecycle]
  rcases hresult : sourceRepository.updateLifecycle code update epochSeconds s.cached.source with
    ⟨result, source⟩
  simp only [hresult] at hupdate
  cases result with
  | error e => exact ⟨_, _, .snoc .start (hupdate rfl), rfl, rfl⟩
  | ok answer =>
    cases answer with
    | none => exact ⟨_, _, .snoc .start (hupdate rfl), rfl, rfl⟩
    | some record =>
      have hwrote := hupdate rfl
      obtain ⟨t, hwritten, hrest, herase⟩ := erase_step sourceRepository cache (s := { s with
        count := s.count + 1
        cached := { s.cached with source := source }
        clients := .wrote code ::ₘ s.clients })
        io.erase (le_refl s.time) rfl
      exact ⟨_, t, .snoc (.snoc .start hwrote) herase, hwritten, hrest⟩

/-- A step after which no call has read more, and no entry is new. -/
theorem quiet_step {t : State S} (hact : ∀ read reply, e.action ≠ .set read reply)
    (hcached : s'.cached = t.cached) (horigins : s'.origins = t.origins)
    (hclients : s'.clients = t.clients) (ht : t.origins = s.origins)
    (hstore : ∀ P, cache.Holds P s.cached.store → cache.Holds P t.cached.store)
    (hfetched : ∀ read, .fetched read ∈ t.clients → .fetched read ∈ s.clients) :
    Change sourceRepository cache s e s' := by
  refine .quiet hact ?_ (horigins.trans ht) ?_
  · rw [hcached]
    exact hstore
  · rw [hclients]
    exact fun read hread => .inl (hfetched read hread)

theorem step_change (h : Step sourceRepository cache s e s') :
    Change sourceRepository cache s e s' := by
  obtain ⟨_, _, _, t, hact, hcached, horigins, hclients⟩ := step_eq h
  obtain ⟨now, action⟩ := e
  simp only at hact
  cases action with
  | get code reply deleteReply =>
    obtain rfl := Option.some.inj hact
    refine quiet_step (by simp) hcached horigins hclients rfl
      (fun P hP => RedisShortLinkCache.holds_get hP code reply deleteReply now) fun read hread => ?_
    by_cases hfound : (cache.get code reply deleteReply now s.cached.store).1.isSome
    · simpa only [if_pos hfound] using hread
    · simp only [if_neg hfound] at hread
      exact (Multiset.mem_cons.mp hread).resolve_left (by simp)
  | findSource code =>
    simp only [act] at hact
    obtain ⟨rest, hrest, hact⟩ := advance_eq_some.mp hact
    split at hact
    · next record found hfind =>
      split at hact
      · next hfits =>
        obtain rfl := Option.some.inj hact
        refine .quiet (by simp) (by rw [hcached]; exact fun P hP => hP) horigins ?_
        intro read hread
        rw [hclients, Multiset.mem_cons] at hread
        rcases hread with hread | hread
        · obtain rfl := Client.fetched.inj hread
          exact .inr ⟨rfl, code, found, rfl, hfind⟩
        · rw [hrest]
          exact .inl (Multiset.mem_cons_of_mem hread)
      · cases hact
    · obtain rfl := Option.some.inj hact
      refine quiet_step (by simp) hcached horigins hclients rfl (fun P hP => hP) ?_
      intro read hread
      rw [hrest]
      exact Multiset.mem_cons_of_mem hread
  | set read reply =>
    simp only [act] at hact
    obtain ⟨rest, hrest, hact⟩ := advance_eq_some.mp hact
    obtain rfl := Option.some.inj hact
    refine .sets read reply rfl (by simp [hrest]) (by rw [hcached]) horigins ?_
    intro read' hread
    rw [hclients] at hread
    rw [hrest]
    exact Multiset.mem_cons_of_mem hread
  | updateSource code update epochSeconds =>
    simp only [act] at hact
    split at hact
    · obtain rfl := Option.some.inj hact
      refine quiet_step (by simp) hcached horigins hclients rfl (fun P hP => hP) ?_
      intro read hread
      exact (Multiset.mem_cons.mp hread).resolve_left (by simp)
    · obtain rfl := Option.some.inj hact
      exact quiet_step (by simp) hcached horigins hclients rfl (fun P hP => hP)
        fun read hread => hread
  | erase code reply =>
    simp only [act] at hact
    obtain ⟨rest, hrest, hact⟩ := advance_eq_some.mp hact
    obtain rfl := Option.some.inj hact
    refine quiet_step (by simp) hcached horigins hclients rfl
      (fun P hP => RedisShortLinkCache.holds_run_del hP reply _) fun read hread => ?_
    rw [hrest]
    exact Multiset.mem_cons_of_mem hread
  | create c =>
    obtain rfl := Option.some.inj hact
    exact quiet_step (by simp) hcached horigins hclients rfl (fun P hP => hP)
      fun read hread => hread
  | evict key =>
    obtain rfl := Option.some.inj hact
    exact quiet_step (by simp) hcached horigins hclients rfl
      (fun P hP => RedisShortLinkCache.holds_del hP key) fun read hread => hread
  | abandon client =>
    simp only [act] at hact
    obtain ⟨rest, hrest, hact⟩ := advance_eq_some.mp hact
    obtain rfl := Option.some.inj hact
    refine quiet_step (by simp) hcached horigins hclients rfl (fun P hP => hP) ?_
    intro read hread
    rw [hrest]
    exact Multiset.mem_cons_of_mem hread

def SetBy (origin : Origin) (e : Event) : Prop :=
  e.now = origin.setAt ∧ ∃ reply, e.action = .set origin.read reply

/-- Every entry was stored by a step of the path, for ttlSeconds at most, and what it holds was
read from the source by another. -/
structure Tracked (sourceRepository : ShortLinkRepository S) (cache : RedisShortLinkCache)
    (steps : List (State S × Event × State S)) (s : State S) : Prop where
  entries : cache.Holds (fun code entry => ∃ origin, s.origins code = some origin ∧
    origin.read.record.code = code ∧ entry.value = serialize origin.read.record ∧
    ∃ deadline, entry.deadline = some deadline ∧
      deadline ≤ origin.setAt + cache.ttlSeconds * 1000) s.cached.store
  origins : ∀ code origin, s.origins code = some origin →
    (∃ t ∈ steps, SetBy origin t.2.1) ∧ ∃ t ∈ steps, ReadBy sourceRepository origin.read t.1 t.2.1
  clients : ∀ read, .fetched read ∈ s.clients →
    ∃ t ∈ steps, ReadBy sourceRepository read t.1 t.2.1

variable {steps : List (State S × Event × State S)} {s₀ : State S}

theorem start_tracked (h : Start cache s₀) : Tracked sourceRepository cache [] s₀ where
  entries code entry hentry hversion := absurd hversion (h.store code entry hentry)
  origins code origin horigin := by simp [h.origins] at horigin
  clients read hread := by simp [h.clients] at hread

theorem exists_mem_snoc {P : State S × Event × State S → Prop} (t : State S × Event × State S)
    (h : ∃ u ∈ steps, P u) : ∃ u ∈ steps ++ [t], P u := by
  obtain ⟨u, hu, hP⟩ := h
  exact ⟨u, List.mem_append_left _ hu, hP⟩

theorem noteOrigin_eq {read : Read} {reply : Connection} {now ttl : ℤ}
    {origins : Bytes → Option Origin} (hreply : reply ≠ .unreachable)
    (httl : cache.ttlFor read.record (now.tdiv 1000) = some ttl) :
    noteOrigin cache read reply now origins =
      Function.update origins read.record.code (some ⟨read, now⟩) := by
  rw [noteOrigin, if_pos ⟨hreply, by rw [httl]; rfl⟩]

theorem noteOrigin_unstored {read : Read} {reply : Connection} {now : ℤ}
    {origins : Bytes → Option Origin}
    (h : reply = .unreachable ∨ cache.ttlFor read.record (now.tdiv 1000) = none) :
    noteOrigin cache read reply now origins = origins := by
  apply if_neg
  rintro ⟨hreply, httl⟩
  rcases h with h | h
  · exact hreply h
  · rw [h] at httl
    cases httl

theorem tracked_step (h : Step sourceRepository cache s e s')
    (hs : Tracked sourceRepository cache steps s) :
    Tracked sourceRepository cache (steps ++ [(s, e, s')]) s' := by
  cases step_change h with
  | quiet _ hstore horigins hread =>
    refine ⟨?_, fun code origin horigin => ?_, fun read hmem => ?_⟩
    · rw [horigins]
      exact hstore _ hs.entries
    · rw [horigins] at horigin
      obtain ⟨hset, hfind⟩ := hs.origins code origin horigin
      exact ⟨exists_mem_snoc _ hset, exists_mem_snoc _ hfind⟩
    · rcases hread read hmem with hold | hnew
      · exact exists_mem_snoc _ (hs.clients read hold)
      · exact ⟨(s, e, s'), by simp, hnew⟩
  | sets read reply haction hmem hstore horigins hread =>
    have hfind := exists_mem_snoc (s, e, s') (hs.clients read hmem)
    have hclients : ∀ read', .fetched read' ∈ s'.clients →
        ∃ t ∈ steps ++ [(s, e, s')], ReadBy sourceRepository read' t.1 t.2.1 :=
      fun read' hmem' => exists_mem_snoc _ (hs.clients read' (hread read' hmem'))
    have hsame : ∀ code origin, s.origins code = some origin →
        (∃ t ∈ steps ++ [(s, e, s')], SetBy origin t.2.1) ∧
          ∃ t ∈ steps ++ [(s, e, s')], ReadBy sourceRepository origin.read t.1 t.2.1 :=
      fun code origin horigin =>
        ⟨exists_mem_snoc _ (hs.origins code origin horigin).1,
          exists_mem_snoc _ (hs.origins code origin horigin).2⟩
    rcases cache.set_cases read.record reply e.now s.cached.store with ⟨hreply, heq⟩ |
      ⟨httl, heq⟩ | ⟨ttl, hreply, httl, heq⟩
    · rw [noteOrigin_unstored (.inl hreply)] at horigins
      refine ⟨?_, fun code origin => ?_, hclients⟩
      · rw [hstore, heq, horigins]
        exact hs.entries
      · rw [horigins]
        exact hsame code origin
    · rw [noteOrigin_unstored (.inr httl)] at horigins
      refine ⟨?_, fun code origin => ?_, hclients⟩
      · rw [hstore, heq, horigins]
        exact RedisShortLinkCache.holds_del hs.entries _
      · rw [horigins]
        exact hsame code origin
    · rw [noteOrigin_eq hreply httl] at horigins
      refine ⟨?_, fun code origin horigin => ?_, hclients⟩
      · rw [hstore, heq, horigins]
        refine RedisShortLinkCache.holds_setex hs.entries ?_ fun code entry hcode hentry => ?_
        · have hle := (RedisShortLinkCache.ttlFor_mem httl).2
          exact ⟨⟨read, e.now⟩, Function.update_self .., rfl, rfl, _, rfl, by
            simp only
            omega⟩
        · rw [Function.update_of_ne hcode]
          exact hentry
      · rw [horigins] at horigin
        by_cases hcode : code = read.record.code
        · rw [hcode, Function.update_self, Option.some.injEq] at horigin
          subst horigin
          exact ⟨⟨(s, e, s'), by simp, rfl, reply, haction⟩, hfind⟩
        · rw [Function.update_of_ne hcode] at horigin
          exact hsame code origin horigin

theorem path_tracked (hstart : Start cache s₀)
    (h : Path (Step sourceRepository cache) s₀ steps s) :
    Tracked sourceRepository cache steps s := by
  induction h with
  | start => exact start_tracked hstart
  | snoc _ hlast ih => exact tracked_step hlast ih

theorem hit_origin (hs : Tracked sourceRepository cache steps s) {code : Bytes}
    {reply deleteReply : Connection} {now : ℤ} {record : ShortLinkRecord}
    (hhit : (cache.get code reply deleteReply now s.cached.store).1 = some record) :
    ∃ origin, s.origins code = some origin ∧ origin.read.record = record ∧
      record.code = code ∧ now < origin.setAt + cache.ttlSeconds * 1000 := by
  obtain ⟨entry, hlive, hdecode⟩ := RedisShortLinkCache.get_hit hhit
  obtain ⟨hstore, hunexpired⟩ := Option.filter_eq_some_iff.mp hlive
  have hversion : (ascii "v2|").isPrefixOf entry.value := by
    by_contra hversion
    rw [deserialize_legacy hversion] at hdecode
    cases hdecode
  obtain ⟨origin, horigin, hcode, hvalue, deadline, hdeadline, hle⟩ :=
    hs.entries code entry hstore hversion
  have hnow : now < deadline := by simpa [hdeadline] using hunexpired
  obtain rfl := deserialize_eq hvalue hcode origin.read.fits hdecode
  exact ⟨origin, horigin, rfl, hcode, by omega⟩

/-- A hit that comes ttlSeconds after v or later is on a record that was read after an update,
where the calls that had read before the update have done their sets by v. -/
def BoundedStaleness (sourceRepository : ShortLinkRepository S) (cache : RedisShortLinkCache)
    (steps : List (State S × Event × State S)) : Prop :=
  ∀ before w after code update epochSeconds, steps = before ++ w :: after →
    w.2.1.action = .updateSource code update epochSeconds →
    ∀ v code', w.2.1.now ≤ v →
      (∀ t ∈ after, ∀ read reply, t.2.1.action = .set read reply →
        read.record.code = code' → read.readAt < w.1.count → t.2.1.now ≤ v) →
      ∀ t ∈ after, ∀ reply deleteReply record, t.2.1.action = .get code' reply deleteReply →
        v + cache.ttlSeconds * 1000 ≤ t.2.1.now →
        (cache.get code' reply deleteReply t.2.1.now t.1.cached.store).1 = some record →
        ∃ origin, t.1.origins code' = some origin ∧ origin.read.record = record ∧
          ∃ r ∈ after, ReadBy sourceRepository origin.read r.1 r.2.1

theorem path_time (h : Path (Step sourceRepository cache) s₀ steps s) :
    ∀ t ∈ steps, t.2.1.now ≤ s.time :=
  h.le_end (f := fun _ e => e.now) fun s e s' hstep => by
    obtain ⟨htime, htime', _⟩ := step_eq hstep
    omega

theorem path_count (h : Path (Step sourceRepository cache) s₀ steps s) :
    ∀ t ∈ steps, t.1.count + 1 ≤ s.count :=
  h.le_end (f := fun s _ => s.count + 1) fun s e s' hstep => by
    obtain ⟨_, _, hcount, _⟩ := step_eq hstep
    omega

theorem path_bounded (hstart : Start cache s₀)
    (h : Path (Step sourceRepository cache) s₀ steps s) :
    BoundedStaleness sourceRepository cache steps := by
  rintro before w after code update epochSeconds rfl hw v code' huv hsets t ht reply deleteReply
    record hget hlate hhit
  obtain ⟨after₁, after₂, rfl⟩ := List.append_of_mem ht
  rw [← List.cons_append, ← List.append_assoc] at h
  obtain ⟨hbefore, hwstep⟩ := h.of_append.1.of_append
  have htracked := path_tracked hstart h.of_append.1
  obtain ⟨origin, horigin, rfl, hcode, hnow⟩ := hit_origin htracked hhit
  obtain ⟨⟨q, hq, hsetAt, setReply, hset⟩, r, hr, hread⟩ := htracked.origins code' origin horigin
  refine ⟨origin, horigin, rfl, ?_⟩
  have hafter : ∀ u ∈ before ++ w :: after₁, u ∉ before → u ≠ w → u ∈ after₁ := by
    intro u hu hub huw
    rcases List.mem_append.mp hu with hu | hu
    · exact absurd hu hub
    · exact (List.mem_cons.mp hu).resolve_left huw
  -- the set came after v
  have hlateSet : v < q.2.1.now := by omega
  have hqafter : q ∈ after₁ := by
    refine hafter q hq (fun hqb => ?_) ?_
    · have := path_time hbefore q hqb
      have := (step_eq hwstep).1
      omega
    · rintro rfl
      omega
  have hnew : ¬ origin.read.readAt < w.1.count := fun hold => by
    have := hsets q (List.mem_append_left _ hqafter) origin.read setReply hset hcode hold
    omega
  refine ⟨r, List.mem_append_left _ (hafter r hr (fun hrb => ?_) ?_), hread⟩
  · have := path_count hbefore r hrb
    have := hread.1
    omega
  · rintro rfl
    obtain ⟨_, code'', found, haction, _⟩ := hread
    rw [hw] at haction
    cases haction

/-- No entry stays past the expiry of the record in it. -/
def NoneOutlives (cache : RedisShortLinkCache) (s : State S) : Prop :=
  cache.Holds (fun _ entry => ∀ record, entry.value = serialize record →
    ∀ expiresAt ∈ record.expiresAt, ∃ deadline, entry.deadline = some deadline ∧
      deadline ≤ expiresAt * 1000) s.cached.store

/-- A set whose record expires while it would be cached finds the clock at a whole second. -/
def InTime (cache : RedisShortLinkCache) (e : Event) : Prop :=
  match e.action with
  | .set read reply => reply ≠ .unreachable → ∀ expiresAt ∈ read.record.expiresAt,
    0 < expiresAt - e.now.tdiv 1000 → expiresAt - e.now.tdiv 1000 ≤ cache.ttlSeconds →
      e.now.tmod 1000 ≤ 0
  | _ => True

instance (cache : RedisShortLinkCache) (e : Event) : Decidable (InTime cache e) :=
  match e with
  | ⟨_, .set _ _⟩ => inferInstanceAs (Decidable (_ → _))
  | ⟨_, .get ..⟩ | ⟨_, .findSource _⟩ | ⟨_, .updateSource ..⟩ | ⟨_, .erase ..⟩ | ⟨_, .create _⟩
  | ⟨_, .evict _⟩ | ⟨_, .abandon _⟩ => .isTrue trivial

theorem serialize_expiresAt {record record' : ShortLinkRecord}
    (h : serialize record = serialize record') : record.expiresAt = record'.expiresAt := by
  have hfields := congrArg (splitFields · 7) h
  simp only [serialize_fields, Option.some.injEq, List.cons.injEq] at hfields
  have hexpiry := hfields.2.2.2.2.1
  rw [expiryField, expiryField] at hexpiry
  cases hl : record.expiresAt with
  | none =>
    cases hr : record'.expiresAt with
    | none => rfl
    | some expiresAt' =>
      rw [hl, hr] at hexpiry
      exact absurd hexpiry.symm (signedToDecimal_ne_dash expiresAt')
  | some expiresAt =>
    cases hr : record'.expiresAt with
    | none =>
      rw [hl, hr] at hexpiry
      exact absurd hexpiry (signedToDecimal_ne_dash expiresAt)
    | some expiresAt' =>
      rw [hl, hr] at hexpiry
      rw [Decimals.signedToDecimal_injective hexpiry]

theorem deadline_le_iff {record : ShortLinkRecord} {now ttl expiresAt : ℤ}
    (hexpires : record.expiresAt = some expiresAt)
    (httl : cache.ttlFor record (now.tdiv 1000) = some ttl) :
    now + ttl * 1000 ≤ expiresAt * 1000 ↔
      (expiresAt - now.tdiv 1000 ≤ cache.ttlSeconds → now.tmod 1000 ≤ 0) := by
  have hpos := cache.ttlSeconds_pos
  have hclock := Int.mul_tdiv_add_tmod now 1000
  have hsecond := Int.tmod_lt_of_pos now (b := 1000) (by decide)
  simp only [RedisShortLinkCache.ttlFor, hexpires, if_pos hpos, Option.ite_none_left_eq_some,
    Option.some.injEq] at httl
  obtain ⟨hleft, rfl⟩ := httl
  constructor
  · intro hle hremaining
    rw [min_eq_right hremaining] at hle
    omega
  · intro h
    by_cases hremaining : expiresAt - now.tdiv 1000 ≤ cache.ttlSeconds
    · have := h hremaining
      rw [min_eq_right hremaining]
      omega
    · rw [min_eq_left (by omega)]
      omega

theorem set_noneOutlives {read : Read} {reply : Connection}
    (haction : e.action = .set read reply)
    (hstore : s'.cached.store = (cache.set read.record reply e.now s.cached.store).2)
    (hs : NoneOutlives cache s) : NoneOutlives cache s' ↔ InTime cache e := by
  have hkept : s'.cached.store = s.cached.store → NoneOutlives cache s' := fun heq => by
    rw [NoneOutlives, heq]
    exact hs
  simp only [InTime, haction]
  rcases cache.set_cases read.record reply e.now s.cached.store with ⟨hreply, heq⟩ |
    ⟨httl, heq⟩ | ⟨ttl, hreply, httl, heq⟩
  · exact iff_of_true (hkept (hstore.trans heq)) fun h => absurd hreply h
  · refine iff_of_true ?_ fun _ expiresAt hexpires hremaining => ?_
    · rw [NoneOutlives, hstore, heq]
      exact RedisShortLinkCache.holds_del hs _
    · rw [Option.mem_def] at hexpires
      simp only [RedisShortLinkCache.ttlFor, hexpires, if_pos cache.ttlSeconds_pos] at httl
      rw [if_neg (by omega)] at httl
      cases httl
  · constructor
    · intro h _ expiresAt hexpires hremaining
      have hentry : s'.cached.store (cache.key read.record.code) =
          some ⟨serialize read.record, some (e.now + ttl * 1000)⟩ := by
        rw [hstore, heq, setex, Function.update_self]
      obtain ⟨deadline, hdeadline, hle⟩ :=
        h _ _ hentry (serialize_version _) read.record rfl expiresAt hexpires
      obtain rfl := Option.some.inj hdeadline
      exact (deadline_le_iff hexpires httl).mp hle
    · intro h
      rw [NoneOutlives, hstore, heq]
      refine RedisShortLinkCache.holds_setex hs (fun record hvalue expiresAt hexpires => ?_)
        fun _ _ _ hentry => hentry
      rw [← serialize_expiresAt hvalue] at hexpires
      refine ⟨_, rfl, (deadline_le_iff hexpires httl).mpr (h hreply expiresAt hexpires ?_)⟩
      rw [Option.mem_def] at hexpires
      simp only [RedisShortLinkCache.ttlFor, hexpires, Option.ite_none_left_eq_some] at httl
      omega

theorem step_noneOutlives (s : State S) (e : Event) (s' : State S)
    (h : Step sourceRepository cache s e s') (hs : NoneOutlives cache s) :
    NoneOutlives cache s' ↔ InTime cache e := by
  cases step_change h with
  | quiet haction hstore _ _ =>
    apply iff_of_true (hstore _ hs)
    -- only a set can be late
    simp only [InTime]
  | sets read reply haction _ hstore _ _ => exact set_noneOutlives haction hstore hs

/-- Calls that overlap, with Redis failing at any time: staleness is bounded, and no entry stays
past the expiry of its record exactly as long as each set whose record expires while it would be
cached comes at a whole second. -/
theorem stale_within_ttl (hstart : Start cache s₀)
    (h : Path (Step sourceRepository cache) s₀ steps s) :
    BoundedStaleness sourceRepository cache steps ∧
      ((∀ t ∈ steps, NoneOutlives cache t.2.2) ↔ ∀ t ∈ steps, InTime cache t.2.1) :=
  ⟨path_bounded hstart h, h.forall_iff
    (fun code entry hentry hversion => absurd hversion (hstart.store code entry hentry))
    step_noneOutlives⟩

section Memory

open MemoryShortLinks

def demoStart : State MemoryShortLinkRepository := ⟨0, 0, ⟨.empty, fun _ => none⟩, fun _ => none, 0⟩

theorem demoStart_start (cache : RedisShortLinkCache) : Start cache demoStart :=
  ⟨rfl, fun _ => rfl, fun _ _ h => by cases h⟩

def demoRecord (expiresAt : Option ℤ) : ShortLinkRecord :=
  ⟨1, 7, ascii "docs", ascii "https://a.example", .active, expiresAt, 0, 0⟩

def demoCreate (expiresAt : Option ℤ) : Action :=
  .create ⟨ascii "https://a.example", expiresAt, 7, some (ascii "docs"), 0⟩

/-- A slow lookup stores the link again after it was disabled and erased. -/
def demoEvents : List Event :=
  [⟨0, demoCreate none⟩, ⟨1000, .get (ascii "docs") .working .working⟩,
    ⟨1000, .findSource (ascii "docs")⟩,
    ⟨2000, .updateSource (ascii "docs") ⟨some .disabled, false, none, some 7⟩ 2⟩,
    ⟨2500, .erase (ascii "docs") .working⟩, ⟨3000, .set ⟨demoRecord none, by decide, 2⟩ .replyLost⟩,
    ⟨4000, .get (ascii "docs") .working .working⟩,
    ⟨3603000, .get (ascii "docs") .working .working⟩]

theorem stale_within_ttl_demo :
    ∃ s, Path (Step repository (.new {})) demoStart
        (trace (next repository (.new {})) demoStart demoEvents) s ∧
      BoundedStaleness repository (.new {})
        (trace (next repository (.new {})) demoStart demoEvents) ∧
      ∀ t ∈ trace (next repository (.new {})) demoStart demoEvents,
        NoneOutlives (.new {}) t.2.2 := by
  have hdone : (demoEvents.foldlM (next repository (.new {})) demoStart).isSome := by decide
  obtain ⟨s, hs⟩ := Option.isSome_iff_exists.mp hdone
  have hpath := Path.of_foldlM hs
  obtain ⟨hstale, hiff⟩ := stale_within_ttl (demoStart_start _) hpath
  exact ⟨s, hpath, hstale, hiff.mpr (by decide)⟩

/-- The link expires at second 11, and is stored at 10.9 seconds for one second more. -/
def lateEvents : List Event :=
  [⟨0, demoCreate (some 11)⟩, ⟨10000, .get (ascii "docs") .working .working⟩,
    ⟨10000, .findSource (ascii "docs")⟩,
    ⟨10900, .set ⟨demoRecord (some 11), by decide, 2⟩ .working⟩]

theorem entry_outlives_record :
    ∃ s, Run (Step repository (.new {})) demoStart lateEvents s ∧
      ((RedisShortLinkCache.new {}).get (ascii "docs") .working .working 11500
        s.cached.store).1 = some (demoRecord (some 11)) ∧
      ¬ NoneOutlives (.new {}) s := by
  have hdone : (lateEvents.foldlM (next repository (.new {})) demoStart).isSome := by decide
  obtain ⟨s, hs⟩ := Option.isSome_iff_exists.mp hdone
  have hentry : (lateEvents.foldlM (next repository (.new {})) demoStart).map
      (fun s => s.cached.store ((RedisShortLinkCache.new {}).key (ascii "docs"))) =
        some (some ⟨serialize (demoRecord (some 11)), some 11900⟩) := by decide
  rw [hs, Option.map_some, Option.some.injEq] at hentry
  have hget : (lateEvents.foldlM (next repository (.new {})) demoStart).map (fun s =>
      ((RedisShortLinkCache.new {}).get (ascii "docs") .working .working 11500 s.cached.store).1) =
        some (some (demoRecord (some 11))) := by decide
  rw [hs, Option.map_some, Option.some.injEq] at hget
  refine ⟨s, Run.of_foldlM hs, hget, ?_⟩
  intro h
  obtain ⟨deadline, hdeadline, hle⟩ := h _ _ hentry (by decide) _ rfl 11 rfl
  obtain rfl := Option.some.inj hdeadline
  omega

end Memory

end CacheStaleness
