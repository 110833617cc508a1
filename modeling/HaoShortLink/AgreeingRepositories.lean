import HaoShortLink.LinkPages
import HaoShortLink.MySqlRepository
import HaoShortLink.RepositoryCalls

/-! The MySQL repository and the in-memory one, given the same calls one after another. -/
namespace AgreeingRepositories

open Cpp Actions Actions.Action ShortLinks ShortCodes Program Histories
open MySqlShortLinks (LinkRow LinksTable Assignments assignments)
open MySqlRepository (Server LinkDb Session)
open MemoryShortLinks (MemoryShortLinkRepository codeFor)
open OwnedLinks (mayUpdate updated)
open RepositoryCalls

def untimed (record : ShortLinkRecord) : ShortLinkRecord :=
  { record with createdAt := 0, updatedAt := 0 }

/-- An outcome up to the times in its records and where they were found. -/
def compared : Outcome → Outcome
  | .record record => .record (record.map untimed)
  | .lookup lookup => .lookup ⟨lookup.record.map untimed, .memory⟩
  | .records records => .records (records.map untimed)
  | .threw e => .threw e

def clocked (now : ℤ) : RepositoryCall → RepositoryCall
  | .create originalUrl expiresAt ownerId customCode _ =>
    .create originalUrl expiresAt ownerId customCode now
  | .updateLifecycle code update _ => .updateLifecycle code update now
  | c => c

def IsExpiry (t : ℤ) : Prop := 0 ≤ t ∧ t ≤ 253402300799

/-- The calls that are made. No owner is 0, and no code has a blank. -/
def Allowed (server : Server) : RepositoryCall → Prop
  | .create originalUrl expiresAt ownerId customCode _ =>
    ValidUtf8 originalUrl ∧ originalUrl.length ≤ 16384 ∧ (∀ t ∈ expiresAt, IsExpiry t) ∧
      ownerId ∈ server.users ∧ ∀ code ∈ customCode, isValidCustomCode code = true
  | .findByCode code => 32 ∉ code
  | .findByCodeForOwner code ownerId => 32 ∉ code ∧ ownerId ∈ server.users
  | .list query => ∀ ownerId ∈ query.ownerId, ownerId ∈ server.users
  | .updateLifecycle code update _ =>
    32 ∉ code ∧ (∀ t ∈ update.expiresAt, IsExpiry t) ∧
      ∀ ownerId ∈ update.ownerId, ownerId ∈ server.users

/-- A create finds an id, and where it asks for no code, the code of the id is free. -/
def Clear (r : MemoryShortLinkRepository) : RepositoryCall → Prop
  | .create _ _ _ customCode _ =>
    r.nextId < 2 ^ 64 - 1 ∧ (customCode = none → encodeBase62 r.nextId ∉ r.links)
  | _ => True

structure Stores (row : LinkRow) (record : ShortLinkRecord) : Prop where
  id : row.id = record.id
  ownerId : row.ownerId = record.ownerId
  code : row.code = some record.code
  originalUrl : row.originalUrl = record.originalUrl
  status : row.status = statusToString record.status
  expiresAt : row.expiresAt = record.expiresAt

structure Agree (d : LinkDb) (r : MemoryShortLinkRepository) : Prop where
  nextId : d.nextId = r.nextId
  rows : ∀ row ∈ d.links.rows, ∃ record, Stores row record ∧ 32 ∉ record.code ∧
    r.links.lookup record.code = some record
  records : ∀ code record, r.links.lookup code = some record → record.code = code ∧
    ∃ row ∈ d.links.rows, Stores row record
  below : ∀ row ∈ d.links.rows, row.id < d.nextId

variable {server : Server} {d : LinkDb} {r : MemoryShortLinkRepository} {row : LinkRow}
  {record : ShortLinkRecord} {code : Bytes}

section Clients

variable {isDatetime : ℤ → Bool} {now : ℤ}

/-- A row reads as its record, with the times that the row has. -/
theorem readRecord_eq (h : Stores row record) : MySqlShortLinks.readRecord row = (do
    let () ← call MySqlShortLinks.DbCall.get
    pure { record with createdAt := row.createdAt, updatedAt := row.updatedAt }) := by
  simp only [MySqlShortLinks.readRecord, h.status, parseStatus_statusToString, h.code, h.id,
    h.ownerId, h.originalUrl, h.expiresAt]
  rfl

theorem readRecord_stores (h : Stores row record) (n : ℕ) (t : LinksTable) :
    ∃ record', (MySqlShortLinks.readRecord row).run.alone (MySqlShortLinks.answer isDatetime now)
      (fun _ => none) n t = (.ok record', t) ∧ untimed record' = untimed record := by
  rw [readRecord_eq h, alone_answered rfl rfl]
  exact ⟨_, rfl, rfl⟩

theorem readBack_stores {t : LinksTable} {ownerId : ℕ} {record : Option ShortLinkRecord}
    (h : Option.Rel Stores (t.selectByCode code ownerId) record) (n : ℕ) :
    ∃ record', (MySqlShortLinks.readBack code ownerId).run.alone
      (MySqlShortLinks.answer isDatetime now) (fun _ => none) n t = (.ok record', t) ∧
        record'.map untimed = record.map untimed := by
  rw [MySqlShortLinks.readBack, alone_answered rfl rfl, alone_answered rfl rfl]
  generalize t.selectByCode code ownerId = found at h
  cases h with
  | none => exact ⟨none, rfl, rfl⟩
  | some h =>
    dsimp only
    rw [readRecord_eq h, map_bind, alone_answered rfl rfl]
    exact ⟨some _, rfl, rfl⟩

end Clients

theorem readRow_stores (server : Server) (h : Stores row record) (d : LinkDb) :
    ∃ record', (MySqlRepository.readRow server row).run d = (.ok record', d) ∧
      untimed record' = untimed record := by
  obtain ⟨record', hread, hsame⟩ := readRecord_stores h 0 d.links
  refine ⟨record', ?_, hsame⟩
  rw [MySqlRepository.readRow, MySqlRepository.onLinks]
  dsimp only
  rw [hread]

theorem readOption_stores (server : Server) {found : Option LinkRow}
    {record : Option ShortLinkRecord}
    (h : Option.Rel Stores found record) (d : LinkDb) :
    ∃ record', (MySqlRepository.readOption server found).run d = (.ok record', d) ∧
      record'.map untimed = record.map untimed := by
  cases h with
  | none => exact ⟨none, rfl, rfl⟩
  | some h =>
    obtain ⟨record', hread, hsame⟩ := readRow_stores server h d
    exact ⟨some record', run_map_ok hread some, congrArg some hsame⟩

theorem readRows_stores (server : Server) {rows : List LinkRow} {records : List ShortLinkRecord}
    (h : List.Forall₂ Stores rows records) (d : LinkDb) :
    ∃ records', (MySqlRepository.readRows server rows).run d = (.ok records', d) ∧
      records'.map untimed = records.map untimed := by
  induction h with
  | nil => exact ⟨[], rfl, rfl⟩
  | cons h _ ih =>
    obtain ⟨record', hread, hsame⟩ := readRow_stores server h d
    obtain ⟨records', hreads, hsames⟩ := ih
    refine ⟨record' :: records', ?_, congrArg₂ List.cons hsame hsames⟩
    rw [MySqlRepository.readRows, run_bind_ok hread, run_bind_ok hreads]
    rfl

theorem sameCode_iff {c : Bytes} (hc : 32 ∉ c) (hcode : 32 ∉ code) :
    StatisticsSchema.sameCode c code = true ↔ c = code := by
  have hpadded : ∀ {b : Bytes}, 32 ∉ b → b.rdropWhile (· == 32) = b := by
    intro b hb
    rw [List.rdropWhile_eq_self_iff]
    intro hne
    simp only [beq_iff_eq]
    rintro hlast
    exact hb (hlast ▸ List.getLast_mem hne)
  rw [StatisticsSchema.sameCode, hpadded hc, hpadded hcode, beq_iff_eq]

theorem Stores.hasCode (h : Stores row record) (hblank : 32 ∉ record.code) (hcode : 32 ∉ code) :
    row.hasCode code = true ↔ record.code = code := by
  rw [LinkRow.hasCode, h.code, Option.any_some, sameCode_iff hblank hcode]

theorem Agree.find (h : Agree d r) (hcode : 32 ∉ code) (p : LinkRow → Bool)
    (q : ShortLinkRecord → Bool) (hpq : ∀ row record, Stores row record → p row = q record) :
    Option.Rel Stores (d.links.rows.find? fun row => row.hasCode code && p row)
      ((r.links.lookup code).filter q) := by
  cases hfound : d.links.rows.find? fun row => row.hasCode code && p row with
  | some row =>
    have hmatch := List.find?_some hfound
    obtain ⟨hhas, hp⟩ := Bool.and_eq_true_iff.mp hmatch
    obtain ⟨record, hstores, hblank, hlookup⟩ := h.rows row (List.mem_of_find?_eq_some hfound)
    obtain rfl := (hstores.hasCode hblank hcode).mp hhas
    rw [hlookup, Option.filter_some, if_pos ((hpq row record hstores).symm.trans hp)]
    exact .some hstores
  | none =>
    cases hlookup : (r.links.lookup code).filter q with
    | none => exact .none
    | some record =>
      obtain ⟨hrecord, hq⟩ := Option.filter_eq_some_iff.mp hlookup
      obtain ⟨rfl, row, hrow, hstores⟩ := h.records code record hrecord
      have hnot := List.find?_eq_none.mp hfound row hrow
      rw [(hstores.hasCode hcode hcode).mpr rfl, hpq row record hstores, hq] at hnot
      cases hnot rfl

theorem Agree.rowOf (h : Agree d r) (hcode : 32 ∉ code) :
    Option.Rel Stores (d.links.rowOf code) (r.links.lookup code) := by
  have hfind := h.find hcode (fun _ => true) (fun _ => true) fun _ _ _ => rfl
  have hall : (r.links.lookup code).filter (fun _ => true) = r.links.lookup code := by
    cases r.links.lookup code <;> rfl
  simp only [Bool.and_true, hall] at hfind
  exact hfind

theorem findByCode_agrees (h : Agree d r) (hcode : 32 ∉ code) :
    compared (runCall (MySqlRepository.repository server) (.findByCode code) d).1 =
      compared (runCall MemoryShortLinks.repository (.findByCode code) r).1 := by
  obtain ⟨record', hread, hsame⟩ := readOption_stores server (h.rowOf hcode) d
  have hrun : (MySqlRepository.findByCode server code).run d = (.ok ⟨record', .mysql⟩, d) := by
    rw [MySqlRepository.findByCode]
    change ((MySqlRepository.readOption server (d.links.rowOf code)) >>= _).run d = _
    rw [run_bind_ok hread]
    rfl
  simp only [runCall, MySqlRepository.repository, hrun, outcome, compared, hsame]
  rfl

theorem findByCodeForOwner_agrees (h : Agree d r) (hcode : 32 ∉ code) (ownerId : ℕ) :
    compared (runCall (MySqlRepository.repository server) (.findByCodeForOwner code ownerId) d).1 =
      compared (runCall MemoryShortLinks.repository (.findByCodeForOwner code ownerId) r).1 := by
  have hrel := h.find hcode (fun row => row.ownerId == ownerId)
    (fun record => record.ownerId == ownerId) fun row record hs => by rw [hs.ownerId]
  obtain ⟨record', hread, hsame⟩ := readOption_stores server hrel d
  have hrun : (MySqlRepository.findByCodeForOwner server code ownerId).run d =
      (.ok record', d) := hread
  simp only [runCall, MySqlRepository.repository, hrun, outcome, compared, hsame]
  rfl

theorem row_unique (t : LinksTable) {a b : LinkRow} (ha : a ∈ t.rows) (hb : b ∈ t.rows)
    (hid : a.id = b.id) : a = b := by
  by_contra hne
  have hsymm : Std.Symm fun a b : LinkRow => a.id ≠ b.id := ⟨fun _ _ h => h.symm⟩
  have hids : t.rows.Pairwise fun a b => a.id ≠ b.id := t.distinct.imp And.left
  exact hids.forall ha hb hne hid

theorem Agree.idsDistinct (h : Agree d r) : OwnedLinks.IdsDistinct r := by
  intro code₁ code₂ record₁ record₂ h₁ h₂ hid
  obtain ⟨hcode₁, row₁, hrow₁, hstores₁⟩ := h.records _ _ h₁
  obtain ⟨hcode₂, row₂, hrow₂, hstores₂⟩ := h.records _ _ h₂
  have hsame := row_unique d.links hrow₁ hrow₂ (hstores₁.id.trans (hid.trans hstores₂.id.symm))
  rw [← hcode₁, ← hcode₂]
  exact Option.some.inj (hstores₁.code.symm.trans (hsame ▸ hstores₂.code))

theorem statusToString_beq (a b : Status) : (statusToString a == statusToString b) = (a == b) := by
  cases a <;> cases b <;> decide

theorem rowSelected_eq (h : Stores row record) (query : ListQuery) :
    MySqlRepository.rowSelected query row = MemoryShortLinks.selects query record := by
  have hcursor : decide (query.cursor < record.id) = !decide (record.id ≤ query.cursor) := by
    rw [← decide_not]
    simp only [not_le]
  simp only [MySqlRepository.rowSelected, MemoryShortLinks.selects, h.id, h.ownerId, h.status,
    statusToString_beq, hcursor, Bool.not_or]
  cases query.ownerId <;> cases query.status <;> simp only [Option.all, Option.any, bne,
    Bool.not_not, Bool.not_false]

theorem list_agrees (h : Agree d r) (query : ListQuery) :
    compared (runCall (MySqlRepository.repository server) (.list query) d).1 =
      compared (runCall MemoryShortLinks.repository (.list query) r).1 := by
  let page := (d.links.rows.filter (MySqlRepository.rowSelected query)).mergeSort
    fun left right => left.id ≤ right.id
  have hmem : ∀ row, row ∈ page ↔ row ∈ d.links.rows ∧ MySqlRepository.rowSelected query row := by
    intro row
    rw [List.mem_mergeSort, List.mem_filter]
  have hsorted : page.Pairwise fun left right => left.id < right.id := by
    have hle : page.Pairwise fun left right => decide (left.id ≤ right.id) = true :=
      List.pairwise_mergeSort (fun a b c => by simpa using Nat.le_trans)
        (fun a b => by simpa using Nat.le_total a.id b.id) _
    have hne : page.Pairwise fun left right => left.id ≠ right.id := by
      apply (List.mergeSort_perm _ _).symm.pairwise _ fun h => Ne.symm h
      exact (d.links.distinct.imp And.left).filter _
    refine (hle.and hne).imp fun {a b} both => ?_
    have hle : a.id ≤ b.id := by simpa using both.1
    exact lt_of_le_of_ne hle both.2
  have hpage : List.Forall₂ Stores page (LinkPages.sortedShown query r) := by
    apply CursorPages.forall₂_of_sorted (fun row record hstores => hstores.id) hsorted
      (LinkPages.sortedShown_sorted h.idsDistinct query)
    · intro row hrow
      obtain ⟨hrow, hselected⟩ := (hmem row).mp hrow
      obtain ⟨record, hstores, -, hlookup⟩ := h.rows row hrow
      rw [rowSelected_eq hstores] at hselected
      exact ⟨record, LinkPages.mem_sortedShown.mpr ⟨_, hlookup, hselected⟩, hstores⟩
    · intro record hrecord
      obtain ⟨code, hlookup, hselected⟩ := LinkPages.mem_sortedShown.mp hrecord
      obtain ⟨-, row, hrow, hstores⟩ := h.records code record hlookup
      rw [← rowSelected_eq hstores] at hselected
      exact ⟨row, (hmem row).mpr ⟨hrow, hselected⟩, hstores⟩
  obtain ⟨records', hread, hsame⟩ :=
    readRows_stores server (List.forall₂_take query.limit hpage) d
  have hrun : (MySqlRepository.list server query).run d = (.ok records', d) := hread
  simp only [runCall, MySqlRepository.repository, MemoryShortLinks.repository, hrun, outcome,
    compared, hsame, OwnedLinks.list_eq]
  rfl

section Updates

variable {update : LifecycleUpdate} {now : ℤ}

theorem assignments_spec (update : LifecycleUpdate) :
    match assignments update with
    | none => update.status = none ∧ update.expiresAtProvided = false
    | some set => set.status = update.status.map statusToString ∧
        set.expiresAt = if update.expiresAtProvided then some update.expiresAt else none := by
  obtain ⟨status, provided, expiresAt, ownerId⟩ := update
  cases status <;> cases provided <;> cases expiresAt <;> exact ⟨rfl, rfl⟩

theorem stores_apply {set : Assignments} (h : Stores row record)
    (hset : assignments update = some set) (time : ℤ) :
    Stores (set.apply time row) (updated update now record) := by
  have hspec := assignments_spec update
  rw [hset] at hspec
  obtain ⟨hstatus, hexpires⟩ := hspec
  have hchanged : Stores { row with
      status := set.status.getD row.status
      expiresAt := set.expiresAt.getD row.expiresAt } (updated update now record) := by
    refine ⟨h.id, h.ownerId, h.code, h.originalUrl, ?_, ?_⟩
    · rw [hstatus, h.status]
      cases hs : update.status <;> simp [updated, hs]
    · rw [hexpires, h.expiresAt]
      cases hp : update.expiresAtProvided <;> simp [updated, hp]
  unfold Assignments.apply
  dsimp only
  split
  · next hsame => rwa [hsame] at hchanged
  · exact ⟨hchanged.id, hchanged.ownerId, hchanged.code, hchanged.originalUrl, hchanged.status,
      hchanged.expiresAt⟩

theorem stores_unset (h : Stores row record) (hset : assignments update = none) :
    Stores row (updated update now record) := by
  have hspec := assignments_spec update
  rw [hset] at hspec
  obtain ⟨hstatus, hprovided⟩ := hspec
  refine ⟨h.id, h.ownerId, h.code, h.originalUrl, ?_, ?_⟩
  · simp [updated, hstatus, h.status]
  · simp [updated, hprovided, h.expiresAt]

theorem owner_test (howner : ∀ ownerId ∈ update.ownerId, 0 < ownerId) (h : Stores row record) :
    (update.ownerId.getD 0 == 0 || row.ownerId == update.ownerId.getD 0) =
      mayUpdate update record := by
  cases ho : update.ownerId with
  | none => simp [mayUpdate, ho]
  | some ownerId =>
    have hne := (howner ownerId ho).ne'
    simp [mayUpdate, ho, h.ownerId, hne, bne]

def updatedLink (code : Bytes) (update : LifecycleUpdate) (now : ℤ) (record : ShortLinkRecord) :
    ShortLinkRecord :=
  if record.code = code ∧ mayUpdate update record = true then updated update now record
  else record

def updatedRow (code : Bytes) (update : LifecycleUpdate) (now : ℤ) (row : LinkRow) : LinkRow :=
  match assignments update with
  | none => row
  | some set => LinksTable.updateRow set now code (update.ownerId.getD 0) row

theorem stores_updated (hcode : 32 ∉ code) (howner : ∀ ownerId ∈ update.ownerId, 0 < ownerId)
    (h : Stores row record) (hblank : 32 ∉ record.code) (time : ℤ) :
    Stores (updatedRow code update time row) (updatedLink code update now record) := by
  have hselected : row.selected code (update.ownerId.getD 0) = true ↔
      record.code = code ∧ mayUpdate update record = true := by
    rw [LinkRow.selected, Bool.and_eq_true, h.hasCode hblank hcode, owner_test howner h]
  unfold updatedRow updatedLink
  cases hset : assignments update with
  | none =>
    dsimp only
    split
    · exact stores_unset h hset
    · exact h
  | some set =>
    dsimp only
    rw [LinksTable.updateRow]
    by_cases hsel : row.selected code (update.ownerId.getD 0) = true
    · rw [if_pos hsel, if_pos (hselected.mp hsel)]
      exact stores_apply h hset time
    · rw [if_neg hsel, if_neg fun hboth => hsel (hselected.mpr hboth)]
      exact h

theorem updatedLink_keeps (code : Bytes) (update : LifecycleUpdate) (now : ℤ)
    (record : ShortLinkRecord) : (updatedLink code update now record).id = record.id ∧
      (updatedLink code update now record).code = record.code := by
  unfold updatedLink
  split <;> exact ⟨rfl, rfl⟩

theorem Agree.update_lookup (h : Agree d r) (code' : Bytes) :
    (MemoryShortLinks.updateLifecycle code update now r).2.links.lookup code' =
      (r.links.lookup code').map (updatedLink code update now) := by
  rw [OwnedLinks.updateLifecycle_lookup]
  cases hlookup : r.links.lookup code' with
  | none =>
    by_cases hcode : code' = code
    · rw [if_pos hcode, ← hcode, hlookup]
      rfl
    · rw [if_neg hcode]
      rfl
  | some record =>
    obtain ⟨rfl, -⟩ := h.records code' record hlookup
    by_cases hcode : record.code = code
    · rw [if_pos hcode, ← hcode, hlookup]
      simp [updatedLink]
    · rw [if_neg hcode]
      simp [updatedLink, hcode]

theorem Agree.afterUpdate (h : Agree d r) (now : ℤ) (hcode : 32 ∉ code)
    (howner : ∀ ownerId ∈ update.ownerId, 0 < ownerId) {t : LinksTable} {time : ℤ}
    (ht : t.rows = d.links.rows.map (updatedRow code update time)) :
    Agree { d with links := t } (MemoryShortLinks.updateLifecycle code update now r).2 := by
  have hstores : ∀ row ∈ d.links.rows, ∃ record, r.links.lookup record.code = some record ∧
      32 ∉ record.code ∧ row.id = record.id ∧
      Stores (updatedRow code update time row) (updatedLink code update now record) := by
    intro row hrow
    obtain ⟨record, hstores, hblank, hlookup⟩ := h.rows row hrow
    exact ⟨record, hlookup, hblank, hstores.id, stores_updated hcode howner hstores hblank time⟩
  constructor
  · rw [OwnedLinks.updateLifecycle_nextId]
    exact h.nextId
  · intro row' hrow'
    obtain ⟨row, hrow, rfl⟩ := List.mem_map.mp (ht ▸ hrow')
    obtain ⟨record, hlookup, hblank, -, hstores⟩ := hstores row hrow
    refine ⟨_, hstores, ?_, ?_⟩
    · rwa [(updatedLink_keeps ..).2]
    · rw [h.update_lookup, (updatedLink_keeps ..).2, hlookup]
      rfl
  · intro code' record' hrecord'
    rw [h.update_lookup] at hrecord'
    obtain ⟨record, hlookup, rfl⟩ := Option.map_eq_some_iff.mp hrecord'
    obtain ⟨hkey, row, hrow, hs⟩ := h.records code' record hlookup
    refine ⟨(updatedLink_keeps ..).2.trans hkey, updatedRow code update time row, ?_, ?_⟩
    · rw [ht]
      exact List.mem_map_of_mem hrow
    · obtain ⟨old, hs', hblank, hlookup'⟩ := h.rows row hrow
      have hsame : old.code = record.code := Option.some.inj (hs'.code.symm.trans hs.code)
      exact stores_updated hcode howner hs (hsame ▸ hblank) time
  · intro row' hrow'
    obtain ⟨row, hrow, rfl⟩ := List.mem_map.mp (ht ▸ hrow')
    obtain ⟨record, -, -, hid, hstores⟩ := hstores row hrow
    rw [hstores.id, (updatedLink_keeps ..).1, ← hid]
    exact h.below row hrow

theorem updateLifecycle_run (server : Server) (code : Bytes)
    (hexpiry : ∀ t ∈ update.expiresAt, IsExpiry t) (time : ℤ) (d : LinkDb) :
    ∃ t : LinksTable, t.rows = d.links.rows.map (updatedRow code update time) ∧
      ∀ record, Option.Rel Stores (t.selectByCode code (update.ownerId.getD 0)) record →
        ∃ record', (MySqlRepository.updateLifecycle server time code update).run d =
          (.ok record', { d with links := t }) ∧ record'.map untimed = record.map untimed := by
  have hrun : ∀ {result t}, (MySqlShortLinks.updateLifecycle code update).run.alone
      (MySqlShortLinks.answer server.isDatetime time) (fun _ => none) 0 d.links = (result, t) →
      (MySqlRepository.updateLifecycle server time code update).run d =
        (result, { d with links := t }) := by
    intro result t h
    rw [MySqlRepository.updateLifecycle, MySqlRepository.onLinks]
    dsimp only
    rw [h]
  have hspec := assignments_spec update
  rw [MySqlShortLinks.updateLifecycle, alone_answered rfl rfl] at hrun
  cases hset : assignments update with
  | none =>
    refine ⟨d.links, ?_, fun record h => ?_⟩
    · unfold updatedRow
      simp [hset]
    · obtain ⟨record', hread, hsame⟩ := readBack_stores h 1
      simp only [hset] at hrun
      exact ⟨record', hrun hread, hsame⟩
  | some set =>
    rw [hset] at hspec
    have haccepted : set.expiresAt.all fun expiresAt => expiresAt.all server.isDatetime := by
      rw [hspec.2]
      cases update.expiresAtProvided with
      | false => rfl
      | true =>
        simp only [if_true, Option.all_some, Option.all_eq_true]
        intro t ht
        obtain ⟨hstart, hend⟩ := hexpiry t ht
        exact server.isDatetime_epoch t hstart hend
    obtain ⟨affected, hanswer⟩ := MySqlShortLinks.answer_update time d.links code
      (update.ownerId.getD 0) haccepted
    refine ⟨d.links.update set time code (update.ownerId.getD 0), ?_, fun record h => ?_⟩
    · unfold updatedRow
      simp only [hset]
      rfl
    · obtain ⟨record', hread, hsame⟩ := readBack_stores h 2
      simp only [hset] at hrun
      rw [alone_answered rfl hanswer] at hrun
      exact ⟨record', hrun hread, hsame⟩

theorem updateLifecycle_agrees (server : Server) (h : Agree d r) (hcode : 32 ∉ code)
    (hexpiry : ∀ t ∈ update.expiresAt, IsExpiry t)
    (howner : ∀ ownerId ∈ update.ownerId, 0 < ownerId) (now time : ℤ) :
    compared (runCall (MySqlRepository.repository server) (.updateLifecycle code update time) d).1 =
        compared (runCall MemoryShortLinks.repository (.updateLifecycle code update now) r).1 ∧
      Agree (runCall (MySqlRepository.repository server) (.updateLifecycle code update time) d).2
        (runCall MemoryShortLinks.repository (.updateLifecycle code update now) r).2 := by
  obtain ⟨t, ht, hrun⟩ := updateLifecycle_run server code hexpiry time d
  have hafter := h.afterUpdate now hcode howner ht
  have hselect := hafter.find hcode
    (fun row => update.ownerId.getD 0 == 0 || row.ownerId == update.ownerId.getD 0)
    (mayUpdate update) fun row record => owner_test howner
  have hresult : ((MemoryShortLinks.updateLifecycle code update now r).2.links.lookup code).filter
      (mayUpdate update) = (MemoryShortLinks.updateLifecycle code update now r).1 := by
    rw [OwnedLinks.updateLifecycle_result, OwnedLinks.updateLifecycle_lookup, if_pos rfl]
    cases r.links.lookup code with
    | none => rfl
    | some record =>
      by_cases hmay : mayUpdate update record = true
      · have hstill : mayUpdate update (updated update now record) = true := hmay
        simp [hmay, hstill, Option.filter_some]
      · simp [hmay, Option.filter_some]
  rw [hresult] at hselect
  obtain ⟨record', hread, hsame⟩ := hrun _ hselect
  constructor
  · simp only [runCall, MySqlRepository.repository, hread, outcome, compared, hsame]
    rfl
  · simp only [runCall, MySqlRepository.repository, hread]
    exact hafter

end Updates

section Creates

variable {originalUrl : Bytes} {expiresAt : Option ℤ} {ownerId : ℕ} {customCode : Option Bytes}
  {now time : ℤ}

theorem isValidCustomCode_fits (h : isValidCustomCode code = true) :
    code.length ≤ 32 ∧ ValidUtf8 code := by
  constructor
  · simp only [isValidCustomCode, Bool.and_eq_true, decide_eq_true_eq] at h
    exact h.1.1.2
  · apply validUtf8_of_ascii
    intro c hc
    rcases isValidCustomCode_char h hc with halnum | rfl | rfl
    · exact isAlnum_ascii halnum
    · decide
    · decide

theorem refusal_none (h : Allowed server (.create originalUrl expiresAt ownerId customCode now)) :
    MySqlRepository.refusal server customCode originalUrl expiresAt = none := by
  obtain ⟨hutf8, hlength, hexpiry, -, hcode⟩ := h
  have hdates : expiresAt.any (fun expiresAt => !server.isDatetime expiresAt) = false := by
    cases expiresAt with
    | none => rfl
    | some t =>
      obtain ⟨hstart, hend⟩ := hexpiry t rfl
      simp [server.isDatetime_epoch t hstart hend]
  have htexts : customCode.any (fun code => !ValidUtf8 code) = false ∧
      customCode.any (fun code => 32 < MySqlRepository.characters code) = false := by
    cases customCode with
    | none => exact ⟨rfl, rfl⟩
    | some code =>
      obtain ⟨hshort, hvalid⟩ := isValidCustomCode_fits (hcode code rfl)
      have hcount : MySqlRepository.characters code ≤ 32 := List.countP_le_length.trans hshort
      simp [hvalid, not_lt.mpr hcount]
  simp only [MySqlRepository.refusal, hdates, htexts.1, htexts.2, hutf8]
  simp [not_lt.mpr (hlength.trans (by decide : 16384 ≤ 65535))]

theorem codeFor_blank (hcode : ∀ code ∈ customCode, isValidCustomCode code = true) (id : ℕ) :
    32 ∉ codeFor customCode id := by
  intro hmem
  cases customCode with
  | none => exact absurd (encodeBase62_char hmem) (by decide)
  | some code => exact absurd (isValidCustomCode_char (hcode code rfl) hmem) (by decide)

theorem Agree.insert (h : Agree d r) {t : LinksTable}
    {links : AList fun _ : Bytes => ShortLinkRecord}
    (hstores : Stores row record) (hblank : 32 ∉ record.code) (hid : row.id = d.nextId)
    (hfree : record.code ∉ r.links) (ht : t.rows = d.links.rows ++ [row])
    (hlinks : links = r.links.insert record.code record) {n : ℕ} (hn : n = d.nextId + 1)
    {saved : Option LinksTable} {lastInsertId : ℕ} :
    Agree ⟨t, n, saved, lastInsertId⟩ ⟨links, n⟩ := by
  subst hlinks hn
  have hlookup : ∀ code, code ≠ record.code →
      (r.links.insert record.code record).lookup code = r.links.lookup code :=
    fun code hne => AList.lookup_insert_ne hne
  constructor
  · rfl
  · intro row' hrow'
    rcases List.mem_append.mp (ht ▸ hrow') with hold | hnew
    · obtain ⟨old, hs, hb, hl⟩ := h.rows row' hold
      refine ⟨old, hs, hb, (hlookup _ ?_).trans hl⟩
      intro hsame
      exact hfree (hsame ▸ AList.lookup_isSome.mp (by rw [hl]; rfl))
    · obtain rfl := List.mem_singleton.mp hnew
      exact ⟨record, hstores, hblank, AList.lookup_insert _⟩
  · intro code record' hrecord'
    by_cases hcode : code = record.code
    · subst hcode
      obtain rfl := Option.some.inj ((AList.lookup_insert _).symm.trans hrecord')
      exact ⟨rfl, row, ht ▸ List.mem_append_right _ (List.mem_singleton_self row), hstores⟩
    · obtain ⟨hkey, old, hold, hs⟩ :=
        h.records code record' ((hlookup code hcode).symm.trans hrecord')
      exact ⟨hkey, old, ht ▸ List.mem_append_left _ hold, hs⟩
  · intro row' hrow'
    dsimp only
    rcases List.mem_append.mp (ht ▸ hrow') with hold | hnew
    · have := h.below row' hold
      omega
    · obtain rfl := List.mem_singleton.mp hnew
      omega

theorem Agree.skip (h : Agree d r) {saved : Option LinksTable} {lastInsertId n : ℕ}
    (hn : n = d.nextId + 1) : Agree ⟨d.links, n, saved, lastInsertId⟩ ⟨r.links, n⟩ := by
  refine ⟨rfl, h.rows, h.records, ?_⟩
  intro row hrow
  have := h.below row hrow
  dsimp only
  omega

theorem readCreated_run (server : Server) {rows : List LinkRow}
    (hrows : d.links.rows = rows ++ [row])
    (hlast : ∀ other ∈ rows, other.id ≠ row.id) (hstores : Stores row record) :
    ∃ record', (MySqlRepository.readCreated server row.id).run d =
      (.ok record', { d with saved := none }) ∧ untimed record' = untimed record := by
  have hfound : d.links.rows.find? (·.id = row.id) = some row := by
    have hnone : rows.find? (·.id = row.id) = none := by
      apply List.find?_eq_none.mpr
      intro other hother
      simpa using hlast other hother
    rw [hrows, List.find?_append, hnone]
    simp
  have hselect : (MySqlRepository.selectById row.id).run d = (.ok (some row), d) :=
    congrArg (fun found => (Except.ok found, d)) hfound
  obtain ⟨record', hread, hsame⟩ := readRow_stores server hstores d
  refine ⟨record', ?_, hsame⟩
  rw [MySqlRepository.readCreated, run_bind_ok hselect, run_bind_ok hread]
  rfl

def createdRecord (id : ℕ) (originalUrl : Bytes) (expiresAt : Option ℤ) (ownerId : ℕ)
    (customCode : Option Bytes) (now : ℤ) : ShortLinkRecord :=
  ⟨id, ownerId, codeFor customCode id, originalUrl, .active, expiresAt, now, now⟩

theorem newRow_stores {id : ℕ} (customCode : Option Bytes) (now : ℤ) :
    Stores (MySqlRepository.newRow id time ownerId (some (codeFor customCode id)) originalUrl
      expiresAt) (createdRecord id originalUrl expiresAt ownerId customCode now) :=
  ⟨rfl, rfl, rfl, rfl, rfl, rfl⟩

theorem setCode_newRow (id : ℕ) (code : Bytes) :
    MySqlRepository.setCode time code id (MySqlRepository.newRow id time ownerId none originalUrl
      expiresAt) = MySqlRepository.newRow id time ownerId (some code) originalUrl expiresAt := by
  simp [MySqlRepository.setCode, MySqlRepository.newRow]

theorem setCode_other {code : Bytes} {id : ℕ} (h : row.id ≠ id) :
    MySqlRepository.setCode time code id row = row :=
  if_neg fun hboth => h hboth.1

theorem insertLink_new (time : ℤ) (h : Agree d r)
    (hallowed : Allowed server (.create originalUrl expiresAt ownerId customCode now))
    (hid : d.nextId < 2 ^ 64 - 1)
    (hfree : ∀ other ∈ d.links.rows, ∀ code ∈ customCode, other.hasCode code = false) :
    ∃ t, (MySqlRepository.insertLink server time ownerId customCode originalUrl expiresAt).run
        { d with saved := some d.links } =
          (.ok (), ⟨t, d.nextId + 1, some d.links, d.nextId⟩) ∧
      t.rows = d.links.rows ++
        [MySqlRepository.newRow d.nextId time ownerId customCode originalUrl expiresAt] := by
  have hclashes : ∀ other ∈ d.links.rows, MySqlRepository.clashes other
      (MySqlRepository.newRow d.nextId time ownerId customCode originalUrl expiresAt) = false := by
    intro other hother
    apply Bool.or_eq_false_iff.mpr
    constructor
    · simpa [MySqlRepository.newRow] using (h.below other hother).ne
    · cases customCode with
      | none => rfl
      | some code => exact hfree other hother code rfl
  obtain ⟨t, hinsert, ht⟩ := MySqlRepository.insertRow_free d.links _ hclashes
  exact ⟨t, MySqlRepository.insertLink_ok (refusal_none hallowed) hid hallowed.2.2.2.1 hinsert, ht⟩

theorem createBody_ok (time : ℤ) (h : Agree d r)
    (hallowed : Allowed server (.create originalUrl expiresAt ownerId customCode now))
    (hid : r.nextId < 2 ^ 64 - 1) (hfree : codeFor customCode r.nextId ∉ r.links) :
    ∃ record' t, (MySqlRepository.createBody server time originalUrl expiresAt ownerId
        customCode).run d = (.ok record', ⟨t, d.nextId + 1, none, d.nextId⟩) ∧
      t.rows = d.links.rows ++ [MySqlRepository.newRow d.nextId time ownerId
        (some (codeFor customCode d.nextId)) originalUrl expiresAt] ∧
      untimed record' =
        untimed (createdRecord d.nextId originalUrl expiresAt ownerId customCode now) := by
  have hblank := codeFor_blank hallowed.2.2.2.2 r.nextId
  rw [← h.nextId] at hid hfree hblank
  have hids : ∀ other ∈ d.links.rows, other.id ≠ d.nextId := fun other hother =>
    (h.below other hother).ne
  have hcodes : ∀ other ∈ d.links.rows,
      other.hasCode (codeFor customCode d.nextId) = false := by
    intro other hother
    obtain ⟨record, hs, hb, hl⟩ := h.rows other hother
    rw [Bool.eq_false_iff, ne_eq, hs.hasCode hb hblank]
    intro hsame
    exact hfree (hsame ▸ AList.lookup_isSome.mp (by rw [hl]; rfl))
  rw [MySqlRepository.createBody, run_bind_ok (MySqlRepository.startTransaction_run d)]
  cases customCode with
  | some code =>
    obtain ⟨t, hinsert, ht⟩ := insertLink_new time h hallowed hid fun other hother _ hcode =>
      Option.some.inj hcode ▸ hcodes other hother
    rw [run_bind_ok hinsert]
    obtain ⟨record', hread, hsame⟩ := readCreated_run server
      (d := ⟨t, d.nextId + 1, some d.links, d.nextId⟩) ht hids
      (newRow_stores (some code) now)
    exact ⟨record', t, hread, ht, hsame⟩
  | none =>
    obtain ⟨t, hinsert, ht⟩ := insertLink_new time h hallowed hid
      fun _ _ _ hnone => absurd hnone.symm (Option.some_ne_none _)
    obtain ⟨t', hcode, ht'⟩ := MySqlRepository.codeRow_free t time (encodeBase62 d.nextId) d.nextId
      (by
        intro other hother hne
        rcases List.mem_append.mp (ht ▸ hother) with hold | hnew
        · exact hcodes other hold
        · exact absurd (List.mem_singleton.mp hnew ▸ rfl) hne)
    have hrows : t'.rows = d.links.rows ++ [MySqlRepository.newRow d.nextId time ownerId
        (some (encodeBase62 d.nextId)) originalUrl expiresAt] := by
      rw [ht', ht, List.map_append, List.map_singleton, setCode_newRow]
      congr 1
      exact (List.map_congr_left fun other hother => setCode_other (hids other hother)).trans
        (List.map_id _)
    rw [run_bind_ok hinsert]
    obtain ⟨record', hread, hsame⟩ := readCreated_run server
      (d := ⟨t', d.nextId + 1, some d.links, d.nextId⟩) hrows hids
      (newRow_stores none now)
    have hupdate : (MySqlRepository.updateCode time (encodeBase62 d.nextId) d.nextId).run
        ⟨t, d.nextId + 1, some d.links, d.nextId⟩ =
          (.ok (), ⟨t', d.nextId + 1, some d.links, d.nextId⟩) := by
      simp only [MySqlRepository.updateCode, hcode]
    refine ⟨record', t', ?_, hrows, hsame⟩
    change (MySqlRepository.updateCode time (encodeBase62 d.nextId) d.nextId >>= fun _ =>
      MySqlRepository.readCreated server d.nextId).run _ = _
    rw [run_bind_ok hupdate]
    exact hread

theorem create_ok (time : ℤ) (h : Agree d r)
    (hallowed : Allowed server (.create originalUrl expiresAt ownerId customCode now))
    (hid : r.nextId < 2 ^ 64 - 1) (hfree : codeFor customCode r.nextId ∉ r.links) :
    compared (runCall (MySqlRepository.repository server)
        (.create originalUrl expiresAt ownerId customCode time) d).1 =
      compared (runCall MemoryShortLinks.repository
        (.create originalUrl expiresAt ownerId customCode now) r).1 ∧
    Agree (runCall (MySqlRepository.repository server)
        (.create originalUrl expiresAt ownerId customCode time) d).2
      (runCall MemoryShortLinks.repository
        (.create originalUrl expiresAt ownerId customCode now) r).2 := by
  obtain ⟨record', t, hbody, ht, hsame⟩ := createBody_ok time h hallowed hid hfree
  have hmysql :
      (MySqlRepository.create server time originalUrl expiresAt ownerId customCode).run d =
        (.ok (some record'), ⟨t, d.nextId + 1, none, d.nextId⟩) :=
    run_tryCatch_ok (run_map_ok hbody some) _
  have hmemory : MemoryShortLinks.create originalUrl expiresAt ownerId customCode now r =
      (.ok (some (createdRecord r.nextId originalUrl expiresAt ownerId customCode now)),
        ⟨r.links.insert (codeFor customCode r.nextId)
          (createdRecord r.nextId originalUrl expiresAt ownerId customCode now),
          r.nextId + 1⟩) := by
    have hnext : (r.nextId + 1) % 2 ^ 64 = r.nextId + 1 := Nat.mod_eq_of_lt (by omega)
    simp only [MemoryShortLinks.create, if_neg hfree, hnext]
    rfl
  have hblank := codeFor_blank hallowed.2.2.2.2 r.nextId
  simp only [runCall, MySqlRepository.repository, MemoryShortLinks.repository, hmysql, hmemory,
    outcome, compared, Option.map_some, hsame, h.nextId, true_and]
  rw [h.nextId] at ht
  exact h.insert (newRow_stores customCode now) hblank h.nextId.symm hfree ht rfl (by rw [h.nextId])

theorem createBody_taken (time : ℤ) (h : Agree d r)
    (hallowed : Allowed server (.create originalUrl expiresAt ownerId customCode now))
    (hid : r.nextId < 2 ^ 64 - 1) (htaken : codeFor customCode r.nextId ∈ r.links) :
    ∃ t lastInsertId, (MySqlRepository.createBody server time originalUrl expiresAt ownerId
      customCode).run d = (.error (MySqlRepository.duplicateEntry (codeFor customCode d.nextId)),
        ⟨t, d.nextId + 1, some d.links, lastInsertId⟩) := by
  have hvalues := refusal_none hallowed
  have hblank := codeFor_blank hallowed.2.2.2.2 r.nextId
  rw [← h.nextId] at hid htaken hblank
  obtain ⟨record, hlookup⟩ := Option.isSome_iff_exists.mp (AList.lookup_isSome.mpr htaken)
  obtain ⟨hkey, other, hother, hstores⟩ := h.records _ record hlookup
  have hhas : other.hasCode (codeFor customCode d.nextId) = true :=
    (hstores.hasCode (hkey ▸ hblank) hblank).mpr hkey
  rw [MySqlRepository.createBody, run_bind_ok (MySqlRepository.startTransaction_run d)]
  cases customCode with
  | some code =>
    have hinsert := MySqlRepository.insertRow_taken
      (MySqlRepository.newRow d.nextId time ownerId (some code) originalUrl expiresAt) hother
      (Bool.or_eq_true_iff.mpr (.inr hhas))
    rw [run_bind_error (MySqlRepository.insertLink_taken (d := { d with saved := some d.links })
      hvalues hid hinsert)]
    exact ⟨_, _, rfl⟩
  | none =>
    obtain ⟨t, hinsert, ht⟩ := insertLink_new time h hallowed hid
      fun _ _ _ hnone => absurd hnone.symm (Option.some_ne_none _)
    have hcode : MySqlRepository.codeRow t time (encodeBase62 d.nextId) d.nextId = none :=
      MySqlRepository.codeRow_taken (ht ▸ List.mem_append_left _ hother)
        (h.below other hother).ne hhas
    have hupdate : (MySqlRepository.updateCode time (encodeBase62 d.nextId) d.nextId).run
        ⟨t, d.nextId + 1, some d.links, d.nextId⟩ =
          (.error (MySqlRepository.duplicateEntry (encodeBase62 d.nextId)),
            ⟨t, d.nextId + 1, some d.links, d.nextId⟩) := by
      simp only [MySqlRepository.updateCode, hcode]
    rw [run_bind_ok hinsert]
    refine ⟨t, d.nextId, ?_⟩
    change (MySqlRepository.updateCode time (encodeBase62 d.nextId) d.nextId >>= fun _ =>
      MySqlRepository.readCreated server d.nextId).run _ = _
    exact run_bind_error hupdate _

theorem createBody_exhausted (time : ℤ)
    (hallowed : Allowed server (.create originalUrl expiresAt ownerId customCode now))
    (hid : ¬ d.nextId < 2 ^ 64 - 1) :
    (MySqlRepository.createBody server time originalUrl expiresAt ownerId customCode).run d =
      (.error MySqlRepository.exhausted, { d with saved := some d.links }) := by
  rw [MySqlRepository.createBody, run_bind_ok (MySqlRepository.startTransaction_run d)]
  exact run_bind_error (MySqlRepository.insertLink_exhausted (d := { d with saved := some d.links })
    (refusal_none hallowed) hid) _

theorem create_taken_memory (originalUrl : Bytes) (expiresAt : Option ℤ) (ownerId : ℕ) (now : ℤ)
    (htaken : codeFor customCode r.nextId ∈ r.links) :
    MemoryShortLinks.create originalUrl expiresAt ownerId customCode now r =
      (.error .shortCodeConflict, ⟨r.links, (r.nextId + 1) % 2 ^ 64⟩) := by
  simp only [MemoryShortLinks.create, if_pos htaken]

/-- A create has the same outcome in both stores exactly where it finds an id and, unless it asks
for a code, the code of the id is free; and then the stores still agree. -/
theorem create_agrees_iff (h : Agree d r)
    (hallowed : Allowed server (.create originalUrl expiresAt ownerId customCode now)) :
    (compared (runCall (MySqlRepository.repository server)
        (.create originalUrl expiresAt ownerId customCode time) d).1 =
      compared (runCall MemoryShortLinks.repository
        (.create originalUrl expiresAt ownerId customCode now) r).1 ↔
      Clear r (.create originalUrl expiresAt ownerId customCode now)) ∧
    (Clear r (.create originalUrl expiresAt ownerId customCode now) →
      Agree (runCall (MySqlRepository.repository server)
          (.create originalUrl expiresAt ownerId customCode time) d).2
        (runCall MemoryShortLinks.repository
          (.create originalUrl expiresAt ownerId customCode now) r).2) := by
  by_cases hid : r.nextId < 2 ^ 64 - 1
  · by_cases htaken : codeFor customCode r.nextId ∈ r.links
    · obtain ⟨t, lastInsertId, hbody⟩ := createBody_taken time h hallowed hid htaken
      have hmysql := MySqlRepository.create_fails hbody
      have hmemory := create_taken_memory originalUrl expiresAt ownerId now htaken
      rw [MySqlRepository.contains_duplicateEntry, Bool.and_true] at hmysql
      simp only [runCall, MySqlRepository.repository, MemoryShortLinks.repository, hmysql, hmemory,
        outcome, compared]
      cases customCode with
      | some code =>
        have hclear : Clear r (.create originalUrl expiresAt ownerId (some code) now) :=
          ⟨hid, fun hnone => absurd hnone (Option.some_ne_none code)⟩
        refine ⟨⟨fun _ => hclear, fun _ => rfl⟩, ?_⟩
        intro _
        rw [Nat.mod_eq_of_lt (by omega), ← h.nextId]
        exact h.skip rfl
      | none =>
        have hnot : ¬ Clear r (.create originalUrl expiresAt ownerId none now) :=
          fun hclear => hclear.2 rfl htaken
        refine ⟨⟨?_, fun hclear => absurd hclear hnot⟩, fun hclear => absurd hclear hnot⟩
        intro hsame
        cases hsame
    · have hclear : Clear r (.create originalUrl expiresAt ownerId customCode now) := by
        refine ⟨hid, ?_⟩
        rintro rfl
        exact htaken
      obtain ⟨hsame, hagree⟩ := create_ok time h hallowed hid htaken
      exact ⟨⟨fun _ => hclear, fun _ => hsame⟩, fun _ => hagree⟩
  · have hnot : ¬ Clear r (.create originalUrl expiresAt ownerId customCode now) :=
      fun hclear => hid hclear.1
    refine ⟨⟨?_, fun hclear => absurd hclear hnot⟩, fun hclear => absurd hclear hnot⟩
    intro hsame
    have hmessage : (MySqlRepository.what MySqlRepository.exhausted).any
        MySqlRepository.isDuplicate = false := by decide
    have hmysql := MySqlRepository.create_fails (createBody_exhausted time
      (d := d) hallowed (h.nextId ▸ hid))
    rw [hmessage, Bool.and_false] at hmysql
    simp only [runCall, MySqlRepository.repository, MemoryShortLinks.repository, hmysql,
      MemoryShortLinks.create, outcome, compared] at hsame
    by_cases htaken : codeFor customCode r.nextId ∈ r.links
    · rw [if_pos htaken] at hsame
      cases hsame
    · rw [if_neg htaken] at hsame
      cases hsame

end Creates

theorem call_agrees_iff (h : Agree d r) {c : RepositoryCall} (hallowed : Allowed server c)
    (time : ℤ) :
    (compared (runCall (MySqlRepository.repository server) (clocked time c) d).1 =
      compared (runCall MemoryShortLinks.repository c r).1 ↔ Clear r c) ∧
    (Clear r c → Agree (runCall (MySqlRepository.repository server) (clocked time c) d).2
      (runCall MemoryShortLinks.repository c r).2) := by
  cases c with
  | create originalUrl expiresAt ownerId customCode now => exact create_agrees_iff h hallowed
  | findByCode code =>
    exact ⟨iff_of_true (findByCode_agrees h hallowed) trivial, fun _ => h⟩
  | findByCodeForOwner code ownerId =>
    exact ⟨iff_of_true (findByCodeForOwner_agrees h hallowed.1 ownerId) trivial, fun _ => h⟩
  | list query => exact ⟨iff_of_true (list_agrees h query) trivial, fun _ => h⟩
  | updateLifecycle code update now =>
    obtain ⟨hcode, hexpiry, howner⟩ := hallowed
    obtain ⟨hsame, hagree⟩ := updateLifecycle_agrees server h hcode hexpiry
      (fun ownerId ho => server.users_pos ownerId (howner ownerId ho)) now time
    exact ⟨iff_of_true hsame trivial, fun _ => hagree⟩

abbrev ClockedCall := RepositoryCall × ℤ

def mysqlAfter (server : Server) (calls : List ClockedCall) : LinkDb :=
  stateAfter (MySqlRepository.repository server) .empty (calls.map fun c => clocked c.2 c.1)

def memoryAfter (calls : List ClockedCall) : MemoryShortLinkRepository :=
  storeAfter (calls.map Prod.fst)

def SameOutcome (server : Server) (before : List ClockedCall) (c : ClockedCall) : Prop :=
  compared (runCall (MySqlRepository.repository server) (clocked c.2 c.1)
      (mysqlAfter server before)).1 =
    compared (runCall MemoryShortLinks.repository c.1 (memoryAfter before)).1

def ClearAfter (before : List ClockedCall) (c : ClockedCall) : Prop :=
  Clear (memoryAfter before) c.1

variable {calls : List ClockedCall}

theorem agree_empty : Agree .empty .empty := by
  refine ⟨rfl, ?_, ?_, ?_⟩
  · intro row hrow
    cases hrow
  · intro code record hrecord
    cases hrecord
  · intro row hrow
    cases hrow

theorem mysqlAfter_snoc (server : Server) (calls : List ClockedCall) (c : ClockedCall) :
    mysqlAfter server (calls ++ [c]) =
      (runCall (MySqlRepository.repository server) (clocked c.2 c.1)
        (mysqlAfter server calls)).2 := by
  rw [mysqlAfter, List.map_append, stateAfter_append]
  rfl

theorem memoryAfter_snoc (calls : List ClockedCall) (c : ClockedCall) :
    memoryAfter (calls ++ [c]) =
      (runCall MemoryShortLinks.repository c.1 (memoryAfter calls)).2 := by
  rw [memoryAfter, List.map_append, List.map_singleton, storeAfter_snoc]
  rfl

theorem agree_after (server : Server) (hallowed : ∀ c ∈ calls, Allowed server c.1)
    (hclear : AtEach ClearAfter calls) :
    Agree (mysqlAfter server calls) (memoryAfter calls) := by
  induction calls using List.reverseRecOn with
  | nil => exact agree_empty
  | append_singleton calls c ih =>
    obtain ⟨hbefore, hlast⟩ := atEach_snoc.mp hclear
    have hagree := ih (fun c' hc' => hallowed c' (List.mem_append_left _ hc')) hbefore
    rw [mysqlAfter_snoc, memoryAfter_snoc]
    exact (call_agrees_iff hagree (hallowed c (by simp)) c.2).2 hlast

/-- Every call has the same outcome on both repositories exactly where each create finds an id
and, unless it asks for a code, finds the code of its id free. -/
theorem repositories_agree_iff (server : Server) (calls : List ClockedCall)
    (hallowed : ∀ c ∈ calls, Allowed server c.1) :
    AtEach (SameOutcome server) calls ↔ AtEach ClearAfter calls := by
  induction calls using List.reverseRecOn with
  | nil => exact iff_of_true atEach_nil atEach_nil
  | append_singleton calls c ih =>
    have hbefore : ∀ c' ∈ calls, Allowed server c'.1 := fun c' hc' =>
      hallowed c' (List.mem_append_left _ hc')
    rw [atEach_snoc, atEach_snoc, ih hbefore]
    apply and_congr_right
    intro hclear
    exact (call_agrees_iff (agree_after server hbefore hclear) (hallowed c (by simp)) c.2).1

def demoServer : Server where
  users := {1}
  isDatetime s := 0 ≤ s && s ≤ 253402300799
  users_pos := by decide
  isDatetime_epoch s hstart hend := by simp [hstart, hend]

def demoUrl : Bytes := ascii "https://a.example"

theorem demoUrl_valid : ValidUtf8 demoUrl := by
  apply validUtf8_of_ascii
  have hascii : demoUrl.all (· < 128) = true := by decide
  simpa using hascii

def demoCreate (customCode : Option Bytes) : ClockedCall :=
  (.create demoUrl none 1 customCode 0, 5)

theorem demoCreate_allowed {customCode : Option Bytes}
    (h : ∀ code ∈ customCode, isValidCustomCode code = true) :
    Allowed demoServer (demoCreate customCode).1 :=
  ⟨demoUrl_valid, by decide, fun _ h => (nomatch h), by decide, h⟩

def demoCalls : List ClockedCall :=
  [] ++ [demoCreate none] ++ [demoCreate (some (ascii "mine"))] ++
    [(.findByCode (ascii "mine"), 6)]

theorem repositories_agree_demo : AtEach (SameOutcome demoServer) demoCalls := by
  apply (repositories_agree_iff demoServer demoCalls ?_).mpr
  · refine atEach_snoc.mpr ⟨atEach_snoc.mpr ⟨atEach_snoc.mpr ⟨atEach_nil, ?_⟩, ?_⟩, trivial⟩
    · exact ⟨by decide, fun _ => List.not_mem_nil⟩
    · refine ⟨?_, fun hnone => nomatch hnone⟩
      rw [memoryAfter, storeAfter_nextId]
      decide
  · intro c hc
    simp only [demoCalls, List.nil_append, List.cons_append, List.mem_cons, List.not_mem_nil,
      or_false] at hc
    rcases hc with rfl | rfl | rfl
    · exact demoCreate_allowed (by simp)
    · exact demoCreate_allowed (by decide)
    · change 32 ∉ ascii "mine"
      decide

/-- A user takes the code of id 2, and the next create is a conflict for the one repository and a
failure of the database for the other. -/
theorem generated_code_taken : ∃ (server : Server) (calls : List ClockedCall),
    (∀ c ∈ calls, Allowed server c.1) ∧ ¬ AtEach (SameOutcome server) calls := by
  have hfirst : Allowed demoServer (demoCreate (some (ascii "000002"))).1 :=
    demoCreate_allowed (by decide)
  have hsecond : Allowed demoServer (demoCreate none).1 := demoCreate_allowed (by simp)
  refine ⟨demoServer, [demoCreate (some (ascii "000002")), demoCreate none], ?_, ?_⟩
  · simp [hfirst, hsecond]
  · intro hsame
    have hclear : AtEach ClearAfter ([] ++ [demoCreate (some (ascii "000002"))]) :=
      atEach_snoc.mpr ⟨atEach_nil, by decide, fun hnone => nomatch hnone⟩
    have hagree := agree_after demoServer (by simp [hfirst]) hclear
    have hlast := hsame [demoCreate (some (ascii "000002"))] (demoCreate none) [] rfl
    have hfree := ((call_agrees_iff hagree hsecond 5).1.mp hlast).2 rfl
    apply hfree
    change encodeBase62 2 ∈ _
    rw [MemoryShortLinks.encodeBase62_two]
    decide

end AgreeingRepositories
