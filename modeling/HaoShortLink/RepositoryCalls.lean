import HaoShortLink.Histories
import HaoShortLink.OwnedLinks

/-! Any calls on a link repository one after another, and what the in-memory one keeps. -/
namespace RepositoryCalls

open Cpp ShortLinks MemoryShortLinks OwnedLinks ShortCodes

inductive RepositoryCall where
  | create (originalUrl : Bytes) (expiresAt : Option ℤ) (ownerId : ℕ) (customCode : Option Bytes)
      (now : ℤ)
  | findByCode (code : Bytes)
  | findByCodeForOwner (code : Bytes) (ownerId : ℕ)
  | list (query : ListQuery)
  | updateLifecycle (code : Bytes) (update : LifecycleUpdate) (now : ℤ)

inductive Outcome where
  | record (record : Option ShortLinkRecord)
  | lookup (lookup : LookupResult)
  | records (records : List ShortLinkRecord)
  | threw (e : RepositoryException)
  deriving DecidableEq

def outcome {α : Type} (f : α → Outcome) : Except RepositoryException α → Outcome
  | .ok a => f a
  | .error e => .threw e

section Repository

variable {S : Type} (repository : ShortLinkRepository S)

def runCall : RepositoryCall → S → Outcome × S
  | .create originalUrl expiresAt ownerId customCode now, s =>
    let (result, s) := repository.create originalUrl expiresAt ownerId customCode now s
    (outcome .record result, s)
  | .findByCode code, s => (outcome .lookup (repository.findByCode code s), s)
  | .findByCodeForOwner code ownerId, s =>
    (outcome .record (repository.findByCodeForOwner code ownerId s), s)
  | .list query, s => (outcome .records (repository.list query s), s)
  | .updateLifecycle code update now, s =>
    let (result, s) := repository.updateLifecycle code update now s
    (outcome .record result, s)

def stateAfter (start : S) (calls : List RepositoryCall) : S :=
  calls.foldl (fun s c => (runCall repository c s).2) start

theorem stateAfter_append (start : S) (before after : List RepositoryCall) :
    stateAfter repository start (before ++ after) =
      stateAfter repository (stateAfter repository start before) after := List.foldl_append

end Repository

def storeAfter (calls : List RepositoryCall) : MemoryShortLinkRepository :=
  stateAfter repository .empty calls

def isCreate : RepositoryCall → Bool
  | .create .. => true
  | _ => false

def newCode (r : MemoryShortLinkRepository) : RepositoryCall → Option Bytes
  | .create _ _ _ customCode _ => some (codeFor customCode r.nextId)
  | _ => none

variable {r r' : MemoryShortLinkRepository} {calls before after : List RepositoryCall}
  {c : RepositoryCall} {code : Bytes} {record record' : ShortLinkRecord}

@[simp] theorem storeAfter_snoc (calls : List RepositoryCall) (c : RepositoryCall) :
    storeAfter (calls ++ [c]) = (runCall repository c (storeAfter calls)).2 :=
  stateAfter_append repository .empty calls [c]

theorem runCall_nextId (c : RepositoryCall) (r : MemoryShortLinkRepository) :
    (runCall repository c r).2.nextId =
      if isCreate c then (r.nextId + 1) % 2 ^ 64 else r.nextId := by
  cases c with
  | create originalUrl expiresAt ownerId customCode now =>
    exact create_nextId ⟨originalUrl, expiresAt, ownerId, customCode, now⟩ r
  | updateLifecycle code update now => exact updateLifecycle_nextId
  | _ => rfl

/-- Each create takes an id, whether it fails or not. -/
theorem storeAfter_nextId (calls : List RepositoryCall) :
    (storeAfter calls).nextId = (calls.countP isCreate + 1) % 2 ^ 64 := by
  induction calls using List.reverseRecOn with
  | nil => rfl
  | append_singleton calls c ih =>
    rw [storeAfter_snoc, runCall_nextId, ih, List.countP_append, List.countP_singleton]
    by_cases h : isCreate c = true
    · simp only [h, if_true, Nat.mod_add_mod]
    · simp [h]

/-- What a record keeps from its creation on. -/
structure SameLink (record record' : ShortLinkRecord) : Prop where
  id : record'.id = record.id
  ownerId : record'.ownerId = record.ownerId
  code : record'.code = record.code
  originalUrl : record'.originalUrl = record.originalUrl
  createdAt : record'.createdAt = record.createdAt

def Keeps (r r' : MemoryShortLinkRepository) : Prop :=
  ∀ code record, r.links.lookup code = some record →
    ∃ record', r'.links.lookup code = some record' ∧ SameLink record record'

theorem Keeps.refl (r : MemoryShortLinkRepository) : Keeps r r := by
  intro code record h
  exact ⟨record, h, rfl, rfl, rfl, rfl, rfl⟩

theorem Keeps.trans {r₁ r₂ r₃ : MemoryShortLinkRepository} (h : Keeps r₁ r₂) (h' : Keeps r₂ r₃) :
    Keeps r₁ r₃ := by
  intro code record hlookup
  obtain ⟨record₂, hlookup₂, hsame⟩ := h code record hlookup
  obtain ⟨record₃, hlookup₃, hsame'⟩ := h' code record₂ hlookup₂
  exact ⟨record₃, hlookup₃, hsame'.id.trans hsame.id, hsame'.ownerId.trans hsame.ownerId,
    hsame'.code.trans hsame.code, hsame'.originalUrl.trans hsame.originalUrl,
    hsame'.createdAt.trans hsame.createdAt⟩

theorem runCall_lookup (c : RepositoryCall) (h : (runCall repository c r).2.links.lookup code =
    some record') : (∃ record, r.links.lookup code = some record ∧ SameLink record record') ∨
      isCreate c ∧ newCode r c = some code ∧ r.links.lookup code = none ∧
        record'.id = r.nextId ∧ record'.code = code := by
  cases c with
  | create originalUrl expiresAt ownerId customCode now =>
    rcases create_lookup ⟨originalUrl, expiresAt, ownerId, customCode, now⟩ r code with
      hsame | ⟨hcode, hnone, hnew⟩
    · exact .inl ⟨record', hsame.symm.trans h, rfl, rfl, rfl, rfl, rfl⟩
    · obtain rfl := Option.some.inj (hnew.symm.trans h)
      exact .inr ⟨rfl, congrArg some hcode.symm, hnone, rfl, rfl⟩
  | updateLifecycle code' update now =>
    change (updateLifecycle code' update now r).2.links.lookup code = some record' at h
    rw [updateLifecycle_lookup] at h
    by_cases hcode : code = code'
    · rw [if_pos hcode] at h
      obtain ⟨record, hlookup, rfl⟩ := Option.map_eq_some_iff.mp h
      refine .inl ⟨record, hcode ▸ hlookup, ?_⟩
      by_cases hmay : mayUpdate update record = true
      · simp only [hmay, if_true]
        exact ⟨rfl, rfl, rfl, rfl, rfl⟩
      · simp only [hmay]
        exact ⟨rfl, rfl, rfl, rfl, rfl⟩
    · rw [if_neg hcode] at h
      exact .inl ⟨record', h, rfl, rfl, rfl, rfl, rfl⟩
  | _ => exact .inl ⟨record', h, rfl, rfl, rfl, rfl, rfl⟩

theorem runCall_keeps (c : RepositoryCall) (r : MemoryShortLinkRepository) :
    Keeps r (runCall repository c r).2 := by
  intro code record h
  have hstill : ∃ record', (runCall repository c r).2.links.lookup code = some record' := by
    cases c with
    | create originalUrl expiresAt ownerId customCode now =>
      rcases create_lookup ⟨originalUrl, expiresAt, ownerId, customCode, now⟩ r code with
        hsame | ⟨_, hnone, _⟩
      · exact ⟨record, hsame.trans h⟩
      · rw [hnone] at h
        cases h
    | updateLifecycle code' update now =>
      change ∃ record', (updateLifecycle code' update now r).2.links.lookup code = some record'
      rw [updateLifecycle_lookup]
      by_cases hcode : code = code'
      · rw [if_pos hcode, ← hcode, h]
        exact ⟨_, rfl⟩
      · rw [if_neg hcode]
        exact ⟨record, h⟩
    | _ => exact ⟨record, h⟩
  obtain ⟨record', hrecord'⟩ := hstill
  rcases runCall_lookup c hrecord' with ⟨record₀, hrecord₀, hsame⟩ | ⟨_, _, hnone, _⟩
  · obtain rfl := Option.some.inj (hrecord₀.symm.trans h)
    exact ⟨record', hrecord', hsame⟩
  · rw [hnone] at h
    cases h

theorem storeAfter_keeps (before after : List RepositoryCall) :
    Keeps (storeAfter before) (storeAfter (before ++ after)) := by
  induction after using List.reverseRecOn with
  | nil =>
    rw [List.append_nil]
    exact .refl _
  | append_singleton after c ih =>
    rw [← List.append_assoc, storeAfter_snoc]
    exact ih.trans (runCall_keeps c _)

theorem idsFromCounter_storeAfter {calls : List RepositoryCall}
    (h : calls.countP isCreate < 2 ^ 64) :
    IdsFromCounter (calls.countP isCreate) (storeAfter calls) := by
  induction calls using List.reverseRecOn with
  | nil => exact idsFromCounter_of_reachable .empty (by decide)
  | append_singleton calls c ih =>
    rw [List.countP_append, List.countP_singleton] at h ⊢
    rw [storeAfter_snoc]
    have hbefore := ih (by omega)
    cases c with
    | create originalUrl expiresAt ownerId customCode now =>
      exact hbefore.afterCreate ⟨originalUrl, expiresAt, ownerId, customCode, now⟩ h
    | updateLifecycle => exact hbefore.afterUpdate
    | _ => exact hbefore

theorem countP_le (calls : List RepositoryCall) : calls.countP isCreate ≤ calls.length :=
  List.countP_le_length

/-- What a create returns it has stored, under the next id; what it does not return, it does not
store. -/
theorem runCall_create (hcreate : isCreate c) :
    (∃ record, (runCall repository c r).1 = .record (some record) ∧
      (runCall repository c r).2.links.lookup record.code = some record ∧ record.id = r.nextId) ∨
    (runCall repository c r).1 = .threw .shortCodeConflict ∧
      (runCall repository c r).2.links = r.links := by
  cases c with
  | create originalUrl expiresAt ownerId customCode now =>
    simp only [runCall, repository, create]
    by_cases htaken : codeFor customCode r.nextId ∈ r.links
    · rw [if_pos htaken]
      exact .inr ⟨rfl, rfl⟩
    · rw [if_neg htaken]
      exact .inl ⟨_, rfl, AList.lookup_insert _, rfl⟩
  | _ => cases hcreate

def isRead : RepositoryCall → Bool
  | .create .. | .updateLifecycle .. => false
  | _ => true

theorem read_outcome (hread : isRead c) (hlinks : r.links = r'.links) :
    (runCall repository c r).1 = (runCall repository c r').1 := by
  cases c with
  | create => cases hread
  | updateLifecycle => cases hread
  | _ => simp only [runCall, repository, findByCode, findByCodeForOwner, list, hlinks]

/-- What the calls keep, of each state they pass and of the last. The record that is stored is
that of its creation, but for its status, its expiry and the time of its last change. -/
structure LinkStoreKept (calls : List RepositoryCall) : Prop where
  keyed : ∀ code record, (storeAfter calls).links.lookup code = some record → record.code = code
  distinct : ∀ code₁ code₂ record₁ record₂,
    (storeAfter calls).links.lookup code₁ = some record₁ →
    (storeAfter calls).links.lookup code₂ = some record₂ → record₁.id = record₂.id → code₁ = code₂
  below : calls.countP isCreate + 1 < 2 ^ 64 → ∀ code record,
    (storeAfter calls).links.lookup code = some record → record.id < (storeAfter calls).nextId
  growing : ∀ before c between d after record record',
    calls = before ++ c :: between ++ d :: after → isCreate c → isCreate d →
    (runCall repository c (storeAfter before)).1 = .record (some record) →
    (runCall repository d (storeAfter (before ++ c :: between))).1 = .record (some record') →
    record.id < record'.id
  created : ∀ before c after record, calls = before ++ c :: after → isCreate c →
    (runCall repository c (storeAfter before)).1 = .record (some record) →
    (storeAfter (before ++ [c])).links.lookup record.code = some record
  permanent : ∀ before after code record, calls = before ++ after →
    (storeAfter before).links.lookup code = some record →
    ∃ record', (storeAfter calls).links.lookup code = some record' ∧ SameLink record record'
  updates : ∀ before code update now after,
    calls = before ++ .updateLifecycle code update now :: after → ∀ code',
    (storeAfter (before ++ [.updateLifecycle code update now])).links.lookup code' =
      if code' = code then ((storeAfter before).links.lookup code).map fun record =>
        if mayUpdate update record then updated update now record else record
      else (storeAfter before).links.lookup code'
  notOwner : ∀ before code update now after,
    calls = before ++ .updateLifecycle code update now :: after →
    (∀ record ∈ (storeAfter before).links.lookup code, mayUpdate update record = false) →
    storeAfter (before ++ [.updateLifecycle code update now]) = storeAfter before
  conflicts : ∀ before c after, calls = before ++ c :: after → isCreate c →
    (runCall repository c (storeAfter before)).1 = .threw .shortCodeConflict →
    (storeAfter (before ++ [c])).links = (storeAfter before).links ∧
    ∀ read, isRead read → (runCall repository read (storeAfter (before ++ [c]))).1 =
      (runCall repository read (storeAfter before)).1

theorem created_id (hcreate : isCreate c) (hlength : before.length + 1 < 2 ^ 64)
    (h : (runCall repository c (storeAfter before)).1 = .record (some record)) :
    record.id = before.countP isCreate + 1 ∧
      (storeAfter (before ++ [c])).links.lookup record.code = some record := by
  have hle := countP_le before
  rcases runCall_create (r := storeAfter before) hcreate with ⟨record', hrecord, hstored, hid⟩ |
    ⟨hthrew, _⟩
  · obtain rfl := Option.some.inj (Outcome.record.inj (hrecord.symm.trans h))
    rw [storeAfter_nextId, Nat.mod_eq_of_lt (by omega)] at hid
    exact ⟨hid, by rw [storeAfter_snoc, hstored]⟩
  · rw [hthrew] at h
    cases h

theorem updateLifecycle_refused {update : LifecycleUpdate} {now : ℤ}
    (h : ∀ record ∈ r.links.lookup code, mayUpdate update record = false) :
    (updateLifecycle code update now r).2 = r := by
  rw [updateLifecycle]
  cases hlookup : r.links.lookup code with
  | none => rfl
  | some record =>
    have hrefused := h record hlookup
    rw [mayUpdate, Bool.not_eq_false'] at hrefused
    simp only [hrefused, if_true]

theorem link_store_kept (calls : List RepositoryCall) (h : calls.length < 2 ^ 64) :
    LinkStoreKept calls := by
  have hcount := countP_le calls
  have hids : IdsFromCounter (calls.countP isCreate) (storeAfter calls) :=
    idsFromCounter_storeAfter (by omega)
  constructor
  · exact hids.codes
  · exact hids.distinct
  · intro hbelow code record hrecord
    have := hids.given code record hrecord
    rw [storeAfter_nextId, Nat.mod_eq_of_lt hbelow]
    omega
  · rintro before c between d after record record' rfl hc hd hrecord hrecord'
    simp only [List.length_append, List.length_cons] at h
    have hid := (created_id hc (by omega) hrecord).1
    have hid' :=
      (created_id hd (by simp only [List.length_append, List.length_cons]; omega) hrecord').1
    rw [List.countP_append, List.countP_cons, if_pos hc] at hid'
    omega
  · rintro before c after record rfl hc hrecord
    simp only [List.length_append, List.length_cons] at h
    exact (created_id hc (by omega) hrecord).2
  · rintro before after code record rfl hrecord
    exact storeAfter_keeps before after code record hrecord
  · rintro before code update now after rfl code'
    rw [storeAfter_snoc]
    exact updateLifecycle_lookup code'
  · rintro before code update now after rfl hrefused
    rw [storeAfter_snoc]
    exact updateLifecycle_refused hrefused
  · rintro before c after rfl hc hthrew
    have hlinks : (storeAfter (before ++ [c])).links = (storeAfter before).links := by
      rw [storeAfter_snoc]
      rcases runCall_create (r := storeAfter before) hc with ⟨record, hrecord, _⟩ | ⟨_, hsame⟩
      · rw [hthrew] at hrecord
        cases hrecord
      · exact hsame
    exact ⟨hlinks, fun read hread => read_outcome hread hlinks⟩

/-- A create, and n more with the code that it has taken: they fail, and each burns an id. -/
def demoCalls (n : ℕ) : List RepositoryCall :=
  List.replicate (n + 1) (.create (ascii "https://a.example") none 1 (some (ascii "mine")) 0)

theorem counter_comes_round : ∃ calls : List RepositoryCall, calls.length < 2 ^ 64 ∧
    ∃ code record, (storeAfter calls).links.lookup code = some record ∧
      ¬ record.id < (storeAfter calls).nextId := by
  have hnext : (storeAfter (demoCalls (2 ^ 64 - 2))).nextId = 0 := by
    rw [storeAfter_nextId, demoCalls, List.countP_replicate]
    rfl
  have hfirst : (storeAfter (demoCalls 0)).links.lookup (ascii "mine") =
      some ⟨1, 1, ascii "mine", ascii "https://a.example", .active, none, 0, 0⟩ := by decide
  have hsplit : demoCalls (2 ^ 64 - 2) = demoCalls 0 ++ List.replicate (2 ^ 64 - 2)
      (.create (ascii "https://a.example") none 1 (some (ascii "mine")) 0) := by
    rw [demoCalls, demoCalls, List.replicate_append_replicate, Nat.add_comm]
  obtain ⟨record, hrecord, _⟩ := storeAfter_keeps (demoCalls 0)
    (List.replicate (2 ^ 64 - 2)
      (.create (ascii "https://a.example") none 1 (some (ascii "mine")) 0)) _ _ hfirst
  refine ⟨demoCalls (2 ^ 64 - 2), ?_, ascii "mine", record, hsplit ▸ hrecord, ?_⟩
  · rw [demoCalls, List.length_replicate]
    decide
  · rw [hnext]
    exact Nat.not_lt_zero _

theorem link_store_kept_demo : LinkStoreKept (demoCalls 1) := link_store_kept _ (by decide)

end RepositoryCalls
