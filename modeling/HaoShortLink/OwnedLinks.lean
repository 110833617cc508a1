import HaoShortLink.MemoryShortLinks

/-! What the owner of links sees of the in-memory store, and what of it changes. -/
namespace OwnedLinks

open Cpp ShortLinks MemoryShortLinks

def owned (owner : ℕ) (r : MemoryShortLinkRepository) (code : Bytes) : Option ShortLinkRecord :=
  findByCodeForOwner code owner r

def foreign (owner : ℕ) (r : MemoryShortLinkRepository) (code : Bytes) : Option ShortLinkRecord :=
  (r.links.lookup code).filter fun record => record.ownerId != owner

/-- No two links of the owner have one id, as ids come from a counter. -/
def OwnIdsDistinct (owner : ℕ) (r : MemoryShortLinkRepository) : Prop :=
  ∀ code₁ code₂ record₁ record₂, owned owner r code₁ = some record₁ →
    owned owner r code₂ = some record₂ → record₁.id = record₂.id → code₁ = code₂

variable {owner : ℕ} {r r₁ r₂ : MemoryShortLinkRepository} {code : Bytes}
  {record : ShortLinkRecord} {query : ListQuery}

theorem owned_eq_some : owned owner r code = some record ↔
    r.links.lookup code = some record ∧ record.ownerId = owner := by
  simp [owned, findByCodeForOwner, Option.filter_eq_some_iff]

def shown (query : ListQuery) (r : MemoryShortLinkRepository) :
    List (Sigma fun _ : Bytes => ShortLinkRecord) :=
  r.links.entries.filter fun entry => selects query entry.2

theorem mem_shown (hquery : query.ownerId = some owner)
    {entry : Sigma fun _ : Bytes => ShortLinkRecord} :
    entry ∈ shown query r ↔ owned owner r entry.1 = some entry.2 ∧ selects query entry.2 := by
  have hlookup : entry ∈ r.links.entries ↔ r.links.lookup entry.1 = some entry.2 :=
    AList.mem_lookup_iff.symm
  have howner : selects query entry.2 = true → entry.2.ownerId = owner := by
    simp only [selects, hquery, Option.any_some, Bool.not_eq_true', Bool.or_eq_false_iff,
      bne_eq_false_iff_eq]
    exact fun h => h.1.2
  rw [shown, List.mem_filter, hlookup, owned_eq_some]
  tauto

theorem list_eq (query : ListQuery) (r : MemoryShortLinkRepository) :
    list query r = (((shown query r).map Sigma.snd).mergeSort
      fun left right => left.id ≤ right.id).take query.limit := by
  rw [list, shown, List.filter_map]
  rfl

/-- Two stores that hold the same links of an owner list the same links to that owner. -/
theorem list_owned (hsame : owned owner r₁ = owned owner r₂) (hids : OwnIdsDistinct owner r₁)
    (hquery : query.ownerId = some owner) : list query r₁ = list query r₂ := by
  have hnodup (r : MemoryShortLinkRepository) : (shown query r).Nodup :=
    List.Nodup.filter _ r.links.nodupKeys.nodup
  have hperm : (shown query r₁).Perm (shown query r₂) := by
    rw [List.perm_ext_iff_of_nodup (hnodup r₁) (hnodup r₂)]
    intro entry
    rw [mem_shown hquery, mem_shown hquery, hsame]
  have hsorted (l : List ShortLinkRecord) :
      (l.mergeSort fun left right => left.id ≤ right.id).Pairwise fun left right =>
        decide (left.id ≤ right.id) = true := by
    refine List.pairwise_mergeSort (fun a b c => ?_) (fun a b => ?_) l
    · simpa using Nat.le_trans
    · simpa using Nat.le_total a.id b.id
  rw [list_eq, list_eq]
  refine congrArg _ (List.Perm.eq_of_pairwise ?_ (hsorted _) (hsorted _) ?_)
  · intro a b ha hb hab hba
    simp only [List.mem_mergeSort, List.mem_map] at ha hb
    obtain ⟨ea, hea, rfl⟩ := ha
    obtain ⟨eb, heb, rfl⟩ := hb
    rw [mem_shown hquery] at hea heb
    rw [← hsame] at heb
    have hid : ea.2.id = eb.2.id := Nat.le_antisymm (by simpa using hab) (by simpa using hba)
    have hcode := hids _ _ _ _ hea.1 heb.1 hid
    have hrecord := hea.1
    rw [hcode, heb.1] at hrecord
    exact (Option.some.inj hrecord).symm
  · exact ((List.mergeSort_perm _ _).trans (hperm.map _)).trans (List.mergeSort_perm _ _).symm

def updated (update : LifecycleUpdate) (now : ℤ) (record : ShortLinkRecord) : ShortLinkRecord :=
  { record with
    status := update.status.getD record.status
    expiresAt := if update.expiresAtProvided then update.expiresAt else record.expiresAt
    updatedAt := now }

def mayUpdate (update : LifecycleUpdate) (record : ShortLinkRecord) : Bool :=
  !update.ownerId.any (record.ownerId != ·)

variable {update : LifecycleUpdate} {now : ℤ}

theorem updateLifecycle_result : (updateLifecycle code update now r).1 =
    ((r.links.lookup code).filter (mayUpdate update)).map (updated update now) := by
  unfold updateLifecycle
  cases r.links.lookup code with
  | none => rfl
  | some record =>
    by_cases h : update.ownerId.any (record.ownerId != ·) = true
    · simp [mayUpdate, h]
    · simp [mayUpdate, h, updated]

/-- Only the link with the code changes, and only for those who may update it. -/
theorem updateLifecycle_lookup (code' : Bytes) :
    (updateLifecycle code update now r).2.links.lookup code' =
      if code' = code then (r.links.lookup code).map fun record =>
        if mayUpdate update record then updated update now record else record
      else r.links.lookup code' := by
  by_cases hcode : code' = code
  · subst hcode
    rw [if_pos rfl]
    unfold updateLifecycle
    cases hlookup : r.links.lookup code' with
    | none => simp [hlookup]
    | some record =>
      by_cases h : update.ownerId.any (record.ownerId != ·) = true
      · simp [mayUpdate, h, hlookup]
      · simp [mayUpdate, h, updated]
  · rw [if_neg hcode]
    unfold updateLifecycle
    cases r.links.lookup code with
    | none => rfl
    | some record =>
      dsimp only
      split
      · rfl
      · exact AList.lookup_insert_ne hcode

theorem mayUpdate_owner (howner : update.ownerId = some owner) :
    mayUpdate update = fun record => record.ownerId == owner := by
  funext record
  simp [mayUpdate, howner, bne]

theorem updateLifecycle_owned_result (howner : update.ownerId = some owner) :
    (updateLifecycle code update now r).1 = (owned owner r code).map (updated update now) := by
  rw [updateLifecycle_result, mayUpdate_owner howner]
  rfl

theorem updateLifecycle_owned (howner : update.ownerId = some owner) (code' : Bytes) :
    owned owner (updateLifecycle code update now r).2 code' =
      if code' = code then (owned owner r code).map (updated update now)
      else owned owner r code' := by
  unfold owned findByCodeForOwner
  rw [updateLifecycle_lookup, mayUpdate_owner howner]
  split
  · cases r.links.lookup code with
    | none => rfl
    | some record =>
      by_cases hown : record.ownerId = owner <;> simp [Option.filter_some, hown, updated]
  · rfl

theorem updateLifecycle_owned_isSome (howner : update.ownerId = some owner) (code' : Bytes) :
    (owned owner (updateLifecycle code update now r).2 code').isSome =
      (owned owner r code').isSome := by
  rw [updateLifecycle_owned howner]
  split
  · next hcode => rw [Option.isSome_map, hcode]
  · rfl

/-- An update by one owner leaves the links of all others exactly as they were. -/
theorem updateLifecycle_foreign (howner : update.ownerId = some owner) :
    foreign owner (updateLifecycle code update now r).2 = foreign owner r := by
  funext code'
  unfold foreign
  rw [updateLifecycle_lookup, mayUpdate_owner howner]
  split
  · next hcode =>
    subst hcode
    cases r.links.lookup code' with
    | none => rfl
    | some record =>
      by_cases hown : record.ownerId = owner <;> simp [Option.filter_some, hown, updated]
  · rfl

theorem updateLifecycle_ids (howner : update.ownerId = some owner)
    (hids : OwnIdsDistinct owner r) :
    OwnIdsDistinct owner (updateLifecycle code update now r).2 := by
  -- an update changes neither which codes are owned nor their ids
  have hold : ∀ {code' record'}, owned owner (updateLifecycle code update now r).2 code' =
      some record' → ∃ record, owned owner r code' = some record ∧ record.id = record'.id := by
    intro code' record' h
    rw [updateLifecycle_owned howner] at h
    split at h
    · next hcode =>
      obtain ⟨record, hrecord, rfl⟩ := Option.map_eq_some_iff.mp h
      exact ⟨record, hcode ▸ hrecord, rfl⟩
    · exact ⟨record', h, rfl⟩
  intro code₁ code₂ record₁ record₂ h₁ h₂ hid
  obtain ⟨old₁, hold₁, hid₁⟩ := hold h₁
  obtain ⟨old₂, hold₂, hid₂⟩ := hold h₂
  exact hids _ _ _ _ hold₁ hold₂ (hid₁.trans (hid.trans hid₂.symm))

/-- After n create calls, and any lifecycle updates between them. -/
inductive Reachable : ℕ → MemoryShortLinkRepository → Prop where
  | empty : Reachable 0 .empty
  | create {n r} (c : CreateCall) : Reachable n r → Reachable (n + 1) (c.run r).2
  | update {n r} (code : Bytes) (update : LifecycleUpdate) (now : ℤ) : Reachable n r →
      Reachable n (updateLifecycle code update now r).2

def IdsDistinct (r : MemoryShortLinkRepository) : Prop :=
  ∀ code₁ code₂ record₁ record₂, r.links.lookup code₁ = some record₁ →
    r.links.lookup code₂ = some record₂ → record₁.id = record₂.id → code₁ = code₂

/-- Each link lies under its code, and the counter has given it one of the ids 1 to n. -/
structure IdsFromCounter (n : ℕ) (r : MemoryShortLinkRepository) : Prop where
  codes : ∀ code record, r.links.lookup code = some record → record.code = code
  given : ∀ code record, r.links.lookup code = some record → 0 < record.id ∧ record.id ≤ n
  distinct : IdsDistinct r
  nextId : r.nextId = (n + 1) % 2 ^ 64

theorem create_lookup (c : CreateCall) (r : MemoryShortLinkRepository) (code : Bytes) :
    (c.run r).2.links.lookup code = r.links.lookup code ∨
    (code = codeFor c.customCode r.nextId ∧ r.links.lookup code = none ∧
      (c.run r).2.links.lookup code = some ⟨r.nextId, c.ownerId, code, c.originalUrl, .active,
        c.expiresAt, c.now, c.now⟩) := by
  simp only [CreateCall.run, create]
  by_cases htaken : codeFor c.customCode r.nextId ∈ r.links
  · rw [if_pos htaken]
    exact .inl rfl
  · rw [if_neg htaken]
    by_cases hcode : code = codeFor c.customCode r.nextId
    · subst hcode
      exact .inr ⟨rfl, AList.lookup_eq_none.mpr htaken, AList.lookup_insert _⟩
    · exact .inl (AList.lookup_insert_ne hcode)

theorem IdsFromCounter.afterCreate {n : ℕ} (h : IdsFromCounter n r) (c : CreateCall)
    (hn : n + 1 < 2 ^ 64) : IdsFromCounter (n + 1) (c.run r).2 := by
  have hnext : r.nextId = n + 1 := by rw [h.nextId, Nat.mod_eq_of_lt hn]
  have hlinks : ∀ code record, (c.run r).2.links.lookup code = some record →
      r.links.lookup code = some record ∨
        (code = codeFor c.customCode r.nextId ∧ record.code = code ∧ record.id = n + 1) := by
    intro code record hrecord
    rcases create_lookup c r code with hsame | ⟨hcode, _, hnew⟩
    · exact .inl (hsame.symm.trans hrecord)
    · obtain rfl := Option.some.inj (hnew.symm.trans hrecord)
      exact .inr ⟨hcode, rfl, hnext⟩
  constructor
  · intro code record hrecord
    rcases hlinks code record hrecord with hold | ⟨-, hcode, -⟩
    · exact h.codes code record hold
    · exact hcode
  · intro code record hrecord
    rcases hlinks code record hrecord with hold | ⟨-, -, hid⟩
    · have := h.given code record hold
      omega
    · omega
  · intro code₁ code₂ record₁ record₂ h₁ h₂ hid
    rcases hlinks _ _ h₁ with hold₁ | ⟨hcode₁, -, hid₁⟩ <;>
      rcases hlinks _ _ h₂ with hold₂ | ⟨hcode₂, -, hid₂⟩
    · exact h.distinct _ _ _ _ hold₁ hold₂ hid
    · have := h.given _ _ hold₁
      omega
    · have := h.given _ _ hold₂
      omega
    · rw [hcode₁, hcode₂]
  · rw [create_nextId, hnext]

theorem updateLifecycle_nextId :
    (updateLifecycle code update now r).2.nextId = r.nextId := by
  unfold updateLifecycle
  split
  · rfl
  · split <;> rfl

theorem IdsFromCounter.afterUpdate {n : ℕ} (h : IdsFromCounter n r) :
    IdsFromCounter n (updateLifecycle code update now r).2 := by
  have hold : ∀ {code' record'}, (updateLifecycle code update now r).2.links.lookup code' =
      some record' → ∃ record, r.links.lookup code' = some record ∧ record.code = record'.code ∧
        record.id = record'.id := by
    intro code' record' hrecord
    rw [updateLifecycle_lookup] at hrecord
    split at hrecord
    · next hcode =>
      obtain ⟨record, hlookup, rfl⟩ := Option.map_eq_some_iff.mp hrecord
      exact ⟨record, hcode ▸ hlookup, by split <;> rfl, by split <;> rfl⟩
    · exact ⟨record', hrecord, rfl, rfl⟩
  constructor
  · intro code' record' hrecord
    obtain ⟨record, hlookup, hcode, -⟩ := hold hrecord
    rw [← hcode]
    exact h.codes _ _ hlookup
  · intro code' record' hrecord
    obtain ⟨record, hlookup, -, hid⟩ := hold hrecord
    rw [← hid]
    exact h.given _ _ hlookup
  · intro code₁ code₂ record₁ record₂ h₁ h₂ hid
    obtain ⟨old₁, hold₁, -, hid₁⟩ := hold h₁
    obtain ⟨old₂, hold₂, -, hid₂⟩ := hold h₂
    exact h.distinct _ _ _ _ hold₁ hold₂ (hid₁.trans (hid.trans hid₂.symm))
  · rw [updateLifecycle_nextId, h.nextId]

/-- Up to 2^64 - 1 create calls every call gets an id of its own. -/
theorem idsFromCounter_of_reachable {n : ℕ} (h : Reachable n r) (hn : n < 2 ^ 64) :
    IdsFromCounter n r := by
  induction h with
  | empty =>
    have hnone (code record) : MemoryShortLinkRepository.empty.links.lookup code ≠ some record := by
      simp [MemoryShortLinkRepository.empty]
    exact ⟨fun code record h => absurd h (hnone code record),
      fun code record h => absurd h (hnone code record),
      fun code _ record _ h => absurd h (hnone code record), rfl⟩
  | create c _ ih => exact (ih (by omega)).afterCreate c hn
  | update code update now _ ih => exact (ih hn).afterUpdate

theorem ownIdsDistinct_of_reachable {n : ℕ} (h : Reachable n r) (hn : n < 2 ^ 64)
    (owner : ℕ) : OwnIdsDistinct owner r := by
  intro code₁ code₂ record₁ record₂ h₁ h₂ hid
  exact (idsFromCounter_of_reachable h hn).distinct _ _ _ _ (owned_eq_some.mp h₁).1
    (owned_eq_some.mp h₂).1 hid

end OwnedLinks
