import HaoShortLink.Histories
import HaoShortLink.OwnedLinks
import HaoShortLink.RedisCaches

/-! RedisCachedShortLinkRepository.cpp: a query cache in front of a repository. -/
namespace CachedLinks

open Cpp ShortLinks RedisStores RedisCaches Histories
open MemoryShortLinks (CreateCall)

structure Cached (S : Type) where
  source : S
  store : Store

/-- The readings of the clock in milliseconds, and how far the commands of a call get. -/
structure Io where
  getNow : ℤ
  setNow : ℤ
  get : Connection
  deleteInvalid : Connection
  set : Connection
  erase : Connection

section Repository

variable {S : Type} (sourceRepository : ShortLinkRepository S) (cache : RedisShortLinkCache)

def create (c : CreateCall) (s : Cached S) :
    Except RepositoryException (Option ShortLinkRecord) × Cached S :=
  let (result, source) := sourceRepository.create c.originalUrl c.expiresAt c.ownerId c.customCode
    c.now s.source
  (result, { s with source := source })

/-- What a lookup stores of what it read. -/
def fill (io : Io) (store : Store) : Option ShortLinkRecord → Store
  | some record => (cache.set record io.set io.setNow store).2
  | none => store

def findByCode (code : Bytes) (io : Io) (s : Cached S) :
    Except RepositoryException LookupResult × Cached S :=
  let (cached, store) := cache.get code io.get io.deleteInvalid io.getNow s.store
  match cached with
  | some record => (.ok ⟨some record, .redis⟩, { s with store := store })
  | none =>
    match sourceRepository.findByCode code s.source with
    | .error e => (.error e, { s with store := store })
    | .ok result => (.ok result, { s with store := fill cache io store result.record })

def updateLifecycle (code : Bytes) (update : LifecycleUpdate) (now : ℤ) (io : Io)
    (s : Cached S) : Except RepositoryException (Option ShortLinkRecord) × Cached S :=
  match sourceRepository.updateLifecycle code update now s.source with
  | (.ok (some record), source) =>
    (.ok (some record), ⟨source, (cache.erase code io.erase s.store).2⟩)
  | (result, source) => (result, { s with source := source })

end Repository

structure CreateFits (c : CreateCall) : Prop where
  ownerId : c.ownerId < 2 ^ 64
  expiresAt : ∀ t ∈ c.expiresAt, IsInt64 t
  now : IsInt64 c.now

structure UpdateFits (update : LifecycleUpdate) (now : ℤ) : Prop where
  expiresAt : ∀ t ∈ update.expiresAt, IsInt64 t
  now : IsInt64 now

/-- Every call of a repository takes effect on its records as a whole or not at all: lookup is
what it holds under each code. -/
structure Atomic {S : Type} (repository : ShortLinkRepository S)
    (lookup : S → Bytes → Option ShortLinkRecord) (Valid : S → Prop) : Prop where
  find : ∀ {s code result}, repository.findByCode code s = .ok result →
    result.record = lookup s code
  fits : ∀ {s code record}, Valid s → lookup s code = some record →
    record.code = code ∧ Fits record
  create_valid : ∀ {s} (c : CreateCall), Valid s → CreateFits c →
    Valid (repository.create c.originalUrl c.expiresAt c.ownerId c.customCode c.now s).2
  create_keeps : ∀ {s code record} (c : CreateCall), Valid s → lookup s code = some record →
    lookup (repository.create c.originalUrl c.expiresAt c.ownerId c.customCode c.now s).2 code =
      some record
  update_valid : ∀ {s} (code : Bytes) (update : LifecycleUpdate) (now : ℤ), Valid s →
    UpdateFits update now → Valid (repository.updateLifecycle code update now s).2
  update_keeps : ∀ {s code'} (code : Bytes) (update : LifecycleUpdate) (now : ℤ), Valid s →
    (code' = code → ∀ record,
      (repository.updateLifecycle code update now s).1 ≠ .ok (some record)) →
    lookup (repository.updateLifecycle code update now s).2 code' = lookup s code'

/-- A call, or an entry that goes on its own. -/
inductive Call where
  | create (c : CreateCall)
  | findByCode (code : Bytes) (io : Io)
  | updateLifecycle (code : Bytes) (update : LifecycleUpdate) (now : ℤ) (io : Io)
  | evict (key : Bytes)

/-- The arguments are values of their types, and an update gets its deletion done. -/
def Call.Allowed : Call → Prop
  | .create c => CreateFits c
  | .updateLifecycle _ update now io => UpdateFits update now ∧ io.erase ≠ .unreachable
  | _ => True

variable {S : Type} {sourceRepository : ShortLinkRepository S} {cache : RedisShortLinkCache}
  {lookup : S → Bytes → Option ShortLinkRecord} {Valid : S → Prop}

def Call.perform (sourceRepository : ShortLinkRepository S) (cache : RedisShortLinkCache)
    (call : Call) (s : Cached S) : Cached S :=
  match call with
  | .create c => (CachedLinks.create sourceRepository c s).2
  | .findByCode code io => (CachedLinks.findByCode sourceRepository cache code io s).2
  | .updateLifecycle code update now io =>
    (CachedLinks.updateLifecycle sourceRepository cache code update now io s).2
  | .evict key => { s with store := del s.store key }

def Step (sourceRepository : ShortLinkRepository S) (cache : RedisShortLinkCache) (s : Cached S)
    (call : Call) (s' : Cached S) : Prop :=
  call.Allowed ∧ s' = call.perform sourceRepository cache s

theorem run_perform (sourceRepository : ShortLinkRepository S) (cache : RedisShortLinkCache)
    (s₀ : Cached S) {calls : List Call} (h : ∀ call ∈ calls, call.Allowed) :
    Run (Step sourceRepository cache) s₀ calls
      (calls.foldl (fun s call => call.perform sourceRepository cache s) s₀) := by
  induction calls using List.reverseRecOn with
  | nil => exact .start
  | append_singleton calls call ih =>
    rw [List.foldl_append]
    exact .snoc (ih fun call' hmem => h call' (List.mem_append_left _ hmem))
      ⟨h call (by simp), rfl⟩

/-- Nothing in the cache is taken for a record but what the source holds under the code. -/
def Coherent (cache : RedisShortLinkCache) (lookup : Bytes → Option ShortLinkRecord)
    (store : Store) : Prop :=
  cache.Holds (fun code entry => ∃ record, lookup code = some record ∧
    entry.value = serialize record) store

theorem coherent_set {lookup : Bytes → Option ShortLinkRecord} {store : Store}
    {record : ShortLinkRecord} (reply : Connection) (now : ℤ) (h : Coherent cache lookup store)
    (hrecord : lookup record.code = some record) :
    Coherent cache lookup (cache.set record reply now store).2 := by
  rcases cache.set_cases record reply now store with ⟨_, heq⟩ | ⟨_, heq⟩ | ⟨ttl, _, _, heq⟩
  · rw [heq]
    exact h
  · rw [heq]
    exact RedisShortLinkCache.holds_del h _
  · rw [heq]
    exact RedisShortLinkCache.holds_setex h ⟨record, hrecord, rfl⟩ fun _ _ _ hentry => hentry

theorem deserialize_eq {code value : Bytes} {record decoded : ShortLinkRecord}
    (hvalue : value = serialize record) (hcode : record.code = code) (hfits : Fits record)
    (h : deserialize code value = some decoded) : decoded = record := by
  subst hvalue
  by_cases hurl : record.originalUrl = []
  · rw [deserialize_serialize_nil hurl] at h
    cases h
  · rw [deserialize_serialize hfits hurl] at h
    rw [← Option.some.inj h, ← hcode]

theorem get_hit {lookup : Bytes → Option ShortLinkRecord} {store : Store} {code : Bytes}
    {reply deleteReply : Connection} {now : ℤ} {record : ShortLinkRecord}
    (h : Coherent cache lookup store)
    (hfits : ∀ {record}, lookup code = some record → record.code = code ∧ Fits record)
    (hhit : (cache.get code reply deleteReply now store).1 = some record) :
    lookup code = some record := by
  obtain ⟨entry, hlive, hdecode⟩ := RedisShortLinkCache.get_hit hhit
  have hstore := (Option.filter_eq_some_iff.mp hlive).1
  by_cases hversion : (ascii "v2|").isPrefixOf entry.value
  · obtain ⟨held, hlookup, hvalue⟩ := h code entry hstore hversion
    obtain ⟨hcode, hheld⟩ := hfits hlookup
    rw [deserialize_eq hvalue hcode hheld hdecode]
    exact hlookup
  · rw [deserialize_legacy hversion] at hdecode
    cases hdecode

def Invariant (cache : RedisShortLinkCache) (lookup : S → Bytes → Option ShortLinkRecord)
    (Valid : S → Prop) (s : Cached S) : Prop :=
  Valid s.source ∧ Coherent cache (lookup s.source) s.store

theorem findByCode_cases (sourceRepository : ShortLinkRepository S) (cache : RedisShortLinkCache)
    (code : Bytes) (io : Io) (s : Cached S) :
    let read := cache.get code io.get io.deleteInvalid io.getNow s.store
    (∃ record, read.1 = some record ∧ findByCode sourceRepository cache code io s =
      (.ok ⟨some record, .redis⟩, ⟨s.source, read.2⟩)) ∨
    (∃ e, sourceRepository.findByCode code s.source = .error e ∧
      findByCode sourceRepository cache code io s = (.error e, ⟨s.source, read.2⟩)) ∨
    ∃ result, sourceRepository.findByCode code s.source = .ok result ∧
      findByCode sourceRepository cache code io s =
        (.ok result, ⟨s.source, fill cache io read.2 result.record⟩) := by
  intro read
  cases hcached : read.1 with
  | some record =>
    refine .inl ⟨record, rfl, ?_⟩
    simp only [read] at hcached
    simp only [findByCode, hcached, read]
  | none =>
    right
    simp only [read] at hcached
    cases hfind : sourceRepository.findByCode code s.source with
    | error e => exact .inl ⟨e, rfl, by simp only [findByCode, hcached, hfind, read]⟩
    | ok result => exact .inr ⟨result, rfl, by simp only [findByCode, hcached, hfind, read]⟩

theorem findByCode_invariant (hatomic : Atomic sourceRepository lookup Valid) (code : Bytes)
    (io : Io) {s : Cached S} (hs : Invariant cache lookup Valid s) :
    Invariant cache lookup Valid (findByCode sourceRepository cache code io s).2 := by
  have hget := RedisShortLinkCache.holds_get hs.2 code io.get io.deleteInvalid io.getNow
  rcases findByCode_cases sourceRepository cache code io s with ⟨record, _, heq⟩ | ⟨e, _, heq⟩ |
    ⟨result, hfind, heq⟩
  · rw [heq]
    exact ⟨hs.1, hget⟩
  · rw [heq]
    exact ⟨hs.1, hget⟩
  · rw [heq]
    refine ⟨hs.1, ?_⟩
    cases hrecord : result.record with
    | none => exact hget
    | some record =>
      have hlookup : lookup s.source code = some record := by
        rw [← hatomic.find hfind, hrecord]
      apply coherent_set io.set io.setNow hget
      rw [(hatomic.fits hs.1 hlookup).1]
      exact hlookup

theorem updateLifecycle_invariant (hatomic : Atomic sourceRepository lookup Valid) (code : Bytes)
    {update : LifecycleUpdate} {now : ℤ} {io : Io} (hfits : UpdateFits update now)
    (herase : io.erase ≠ .unreachable) {s : Cached S} (hs : Invariant cache lookup Valid s) :
    Invariant cache lookup Valid
      (updateLifecycle sourceRepository cache code update now io s).2 := by
  have hvalid := hatomic.update_valid code update now hs.1 hfits
  have hkeeps (code' : Bytes) : (code' = code → ∀ record,
      (sourceRepository.updateLifecycle code update now s.source).1 ≠ .ok (some record)) →
      lookup (sourceRepository.updateLifecycle code update now s.source).2 code' =
        lookup s.source code' := hatomic.update_keeps code update now hs.1
  simp only [updateLifecycle]
  rcases hresult : sourceRepository.updateLifecycle code update now s.source with ⟨result, source⟩
  rw [hresult] at hvalid
  simp only [hresult] at hkeeps
  have hunchanged : (∀ record, result ≠ .ok (some record)) →
      Invariant cache lookup Valid ⟨source, s.store⟩ := by
    intro hno
    refine ⟨hvalid, ?_⟩
    intro code' entry hentry hversion
    obtain ⟨held, hlookup, hvalue⟩ := hs.2 code' entry hentry hversion
    exact ⟨held, (hkeeps code' fun _ => hno).trans hlookup, hvalue⟩
  cases result with
  | error e => exact hunchanged (by simp)
  | ok answer =>
    cases answer with
    | none => exact hunchanged (by simp)
    | some record =>
      have hdeleted : (cache.erase code io.erase s.store).2 = del s.store (cache.key code) := by
        simp only [RedisShortLinkCache.erase]
        cases hconnection : io.erase with
        | unreachable => exact absurd hconnection herase
        | replyLost => rfl
        | working => rfl
      refine ⟨hvalid, ?_⟩
      intro code' entry hentry hversion
      simp only [hdeleted, del] at hentry
      by_cases hcode : code' = code
      · rw [hcode, Function.update_self] at hentry
        cases hentry
      · rw [Function.update_of_ne fun h => hcode (cache.key_injective h)] at hentry
        obtain ⟨held, hlookup, hvalue⟩ := hs.2 code' entry hentry hversion
        exact ⟨held, (hkeeps code' fun h => absurd h hcode).trans hlookup, hvalue⟩

theorem step_invariant (hatomic : Atomic sourceRepository lookup Valid) {s s' : Cached S}
    {call : Call} (h : Step sourceRepository cache s call s')
    (hs : Invariant cache lookup Valid s) : Invariant cache lookup Valid s' := by
  obtain ⟨hallowed, rfl⟩ := h
  cases call with
  | create c =>
    refine ⟨hatomic.create_valid c hs.1 hallowed, ?_⟩
    intro code entry hentry hversion
    obtain ⟨record, hlookup, hvalue⟩ := hs.2 code entry hentry hversion
    exact ⟨record, hatomic.create_keeps c hs.1 hlookup, hvalue⟩
  | findByCode code io => exact findByCode_invariant hatomic code io hs
  | updateLifecycle code update now io =>
    exact updateLifecycle_invariant hatomic code hallowed.1 hallowed.2 hs
  | evict key => exact ⟨hs.1, RedisShortLinkCache.holds_del hs.2 key⟩

/-- After any calls, one at a time, a lookup through the cache finds what the source holds, and
it answers whenever the source does. -/
theorem cache_transparent (hatomic : Atomic sourceRepository lookup Valid) {s₀ s : Cached S}
    {calls : List Call} (hvalid : Valid s₀.source)
    (hlegacy : ∀ code entry, s₀.store (cache.key code) = some entry →
      ¬ (ascii "v2|").isPrefixOf entry.value)
    (h : Run (Step sourceRepository cache) s₀ calls s) (code : Bytes) (io : Io) :
    (∀ result, (findByCode sourceRepository cache code io s).1 = .ok result →
      result.record = lookup s.source code) ∧
    ∀ result, sourceRepository.findByCode code s.source = .ok result →
      ∃ result', (findByCode sourceRepository cache code io s).1 = .ok result' ∧
        result'.record = result.record := by
  have hstart : Invariant cache lookup Valid s₀ :=
    ⟨hvalid, fun code entry hentry hversion => absurd hversion (hlegacy code entry hentry)⟩
  have hs := h.invariant hstart fun s call s' => step_invariant hatomic
  have hfound : ∀ result, (findByCode sourceRepository cache code io s).1 = .ok result →
      result.record = lookup s.source code := by
    intro result hresult
    rcases findByCode_cases sourceRepository cache code io s with ⟨record, hhit, heq⟩ |
      ⟨e, _, heq⟩ | ⟨result', hfind, heq⟩
    · rw [heq] at hresult
      rw [← Except.ok.inj hresult]
      exact (get_hit hs.2 (hatomic.fits hs.1) hhit).symm
    · rw [heq] at hresult
      cases hresult
    · rw [heq] at hresult
      rw [← Except.ok.inj hresult]
      exact hatomic.find hfind
  refine ⟨hfound, ?_⟩
  intro result hfind
  have hanswers : ∃ result', (findByCode sourceRepository cache code io s).1 = .ok result' := by
    rcases findByCode_cases sourceRepository cache code io s with ⟨record, _, heq⟩ |
      ⟨e, herror, _⟩ | ⟨result', _, heq⟩
    · exact ⟨_, by rw [heq]⟩
    · rw [hfind] at herror
      cases herror
    · exact ⟨_, by rw [heq]⟩
  obtain ⟨result', hresult'⟩ := hanswers
  exact ⟨result', hresult', (hfound result' hresult').trans (hatomic.find hfind).symm⟩

section Memory

open MemoryShortLinks OwnedLinks

def heldRecord (r : MemoryShortLinkRepository) (code : Bytes) : Option ShortLinkRecord :=
  r.links.lookup code

structure MemoryValid (r : MemoryShortLinkRepository) : Prop where
  fits : ∀ {code record}, heldRecord r code = some record → record.code = code ∧ Fits record
  nextId : r.nextId < 2 ^ 64

theorem updated_fits {update : LifecycleUpdate} {now : ℤ} {record : ShortLinkRecord}
    (hrecord : Fits record) (h : UpdateFits update now) : Fits (updated update now record) := by
  refine ⟨hrecord.id, hrecord.ownerId, ?_, hrecord.createdAt, h.now⟩
  intro t ht
  simp only [updated] at ht
  by_cases hprovided : update.expiresAtProvided
  · rw [if_pos hprovided] at ht
    exact h.expiresAt t ht
  · rw [if_neg hprovided] at ht
    exact hrecord.expiresAt t ht

theorem updated_valid {r : MemoryShortLinkRepository} (h : MemoryValid r) (code : Bytes)
    {update : LifecycleUpdate} {now : ℤ} (hu : UpdateFits update now) :
    MemoryValid (MemoryShortLinks.updateLifecycle code update now r).2 := by
  refine ⟨fun {code' record} hrecord => ?_, ?_⟩
  · rw [heldRecord, updateLifecycle_lookup] at hrecord
    by_cases hcode : code' = code
    · rw [if_pos hcode] at hrecord
      obtain ⟨old, hold, rfl⟩ := Option.map_eq_some_iff.mp hrecord
      obtain ⟨hsame, hfits⟩ := h.fits hold
      by_cases hmay : mayUpdate update old
      · rw [if_pos hmay]
        exact ⟨hsame.trans hcode.symm, updated_fits hfits hu⟩
      · rw [if_neg hmay]
        exact ⟨hsame.trans hcode.symm, hfits⟩
    · rw [if_neg hcode] at hrecord
      exact h.fits hrecord
  · rw [updateLifecycle_nextId]
    exact h.nextId

theorem update_none {r : MemoryShortLinkRepository} {code code' : Bytes}
    {update : LifecycleUpdate} {now : ℤ} (h : code' = code → ∀ record,
      (MemoryShortLinks.updateLifecycle code update now r).1 ≠ some record) :
    heldRecord (MemoryShortLinks.updateLifecycle code update now r).2 code' =
      heldRecord r code' := by
  rw [heldRecord, updateLifecycle_lookup]
  by_cases hcode : code' = code
  · subst hcode
    rw [if_pos rfl, heldRecord]
    have hresult := h rfl
    rw [updateLifecycle_result] at hresult
    cases hlookup : r.links.lookup code' with
    | none => rfl
    | some record =>
      by_cases hmay : mayUpdate update record
      · exact absurd (by simp [hlookup, hmay, Option.filter_some])
          (hresult (updated update now record))
      · rw [Option.map_some, if_neg hmay]
  · rw [if_neg hcode]
    rfl

theorem memory_atomic : Atomic repository heldRecord MemoryValid where
  find h := by
    obtain rfl := Except.ok.inj h
    rfl
  fits h := h.fits
  create_valid c h hc := by
    refine ⟨fun {code record} hrecord => ?_, ?_⟩
    · rcases create_lookup c _ code with hsame | ⟨_, _, hnew⟩
      · exact h.fits (hsame.symm.trans hrecord)
      · obtain rfl := Option.some.inj (hnew.symm.trans hrecord)
        exact ⟨rfl, h.nextId, hc.ownerId, hc.expiresAt, hc.now, hc.now⟩
    · exact (create_nextId c _).trans_lt (Nat.mod_lt _ (by decide))
  create_keeps c h hrecord := by
    rcases create_lookup c _ _ with hsame | ⟨_, hnone, _⟩
    · exact hsame.trans hrecord
    · exact absurd (hnone.symm.trans hrecord) (by simp)
  update_valid code update now h hu := updated_valid h code hu
  update_keeps code update now h hno :=
    update_none fun hcode record heq => hno hcode record (congrArg Except.ok heq)

def demoIo : Io := ⟨0, 0, .working, .working, .working, .working⟩

/-- A link is looked up, and so cached, before it is disabled. -/
def demoCalls : List Call :=
  [.create ⟨ascii "https://a.example", none, 7, some (ascii "docs"), 0⟩,
    .findByCode (ascii "docs") demoIo,
    .updateLifecycle (ascii "docs") ⟨some .disabled, false, none, some 7⟩ 5 demoIo]

theorem cache_transparent_demo :
    ∃ s, Run (Step repository (.new {})) ⟨.empty, fun _ => none⟩ demoCalls s ∧
      ∀ result, (findByCode repository (.new {}) (ascii "docs") demoIo s).1 = .ok result →
        result.record = some ⟨1, 7, ascii "docs", ascii "https://a.example", .disabled, none,
          0, 5⟩ := by
  have hvalid : MemoryValid .empty :=
    ⟨fun h => by simp [heldRecord, MemoryShortLinkRepository.empty] at h, by decide⟩
  have hallowed : ∀ call ∈ demoCalls, call.Allowed := by
    simp only [demoCalls, List.forall_mem_cons]
    exact ⟨⟨by decide, by simp, by decide⟩, trivial, ⟨⟨by simp, by decide⟩, by decide⟩, by simp⟩
  have hrun := run_perform repository (.new {}) ⟨.empty, fun _ => none⟩ hallowed
  refine ⟨_, hrun, ?_⟩
  intro result hresult
  rw [(cache_transparent memory_atomic hvalid (by simp) hrun _ _).1 result hresult]
  decide

end Memory

end CachedLinks
