import HaoShortLink.Actions
import HaoShortLink.MySqlShortLinks
import HaoShortLink.ShortCodes
import Mathlib.Data.List.Infix

/-! MySqlShortLinkRepository.cpp over one connection on which nothing fails, and the statements of
its methods as MySQL runs them on short_links after migration 005. -/
namespace MySqlRepository

open Cpp Actions Actions.Action ShortLinks ShortCodes Program MySqlShortLinks

/-- What the table depends on: users has ids from an AUTO_INCREMENT column, and a DATETIME
reaches the end of the year 9999. -/
structure Server where
  users : Finset ℕ
  isDatetime : ℤ → Bool
  users_pos : ∀ id ∈ users, 0 < id
  isDatetime_epoch : ∀ s, 0 ≤ s → s ≤ 253402300799 → isDatetime s = true

/-- short_links with its AUTO_INCREMENT counter, the rows as START TRANSACTION found them, and
LAST_INSERT_ID(). -/
structure LinkDb where
  links : LinksTable
  nextId : ℕ
  saved : Option LinksTable
  lastInsertId : ℕ

def LinkDb.empty : LinkDb := ⟨⟨[], .nil⟩, 1, none, 0⟩

abbrev Session := Action LinkDb RepositoryException

def dbException (message : Bytes) : RepositoryException := .std (.runtimeError message)

def duplicateEntry (key : Bytes) : RepositoryException :=
  dbException (ascii "Duplicate entry '" ++ key ++
    ascii "' for key 'short_links.uk_short_links_code'")

def startTransaction : Session Unit := modify fun d => { d with saved := some d.links }
def commit : Session Unit := modify fun d => { d with saved := none }

/-- The counter is not set back. -/
def rollback : Session Unit :=
  modify fun d => { d with links := d.saved.getD d.links, saved := none }

/-- One of the two could not be where the other is. -/
def clashes (a b : LinkRow) : Bool := a.id == b.id || b.code.any a.hasCode

theorem distinct_of_clashes {a b : LinkRow} (h : clashes a b = false) : Distinct a b := by
  obtain ⟨hid, hcode⟩ := Bool.or_eq_false_iff.mp h
  refine ⟨by simpa using hid, ?_⟩
  intro c d hc hd
  simpa [hd, LinkRow.hasCode, hc] using hcode

def insertRow (t : LinksTable) (row : LinkRow) : Option LinksTable :=
  if h : ∀ other ∈ t.rows, clashes other row = false then
    some ⟨t.rows ++ [row], by
      refine List.pairwise_append.mpr ⟨t.distinct, List.pairwise_singleton _ _, ?_⟩
      intro other hother row' hrow'
      obtain rfl := List.mem_singleton.mp hrow'
      exact distinct_of_clashes (h other hother)⟩
  else none

def setCode (now : ℤ) (code : Bytes) (id : ℕ) (row : LinkRow) : LinkRow :=
  if row.id = id ∧ row.code ≠ some code then { row with code := some code, updatedAt := now }
  else row

theorem setCode_id (now : ℤ) (code : Bytes) (id : ℕ) (row : LinkRow) :
    (setCode now code id row).id = row.id := by
  unfold setCode
  split <;> rfl

theorem setCode_code (now : ℤ) (code : Bytes) (id : ℕ) (row : LinkRow) :
    (setCode now code id row).code = if row.id = id then some code else row.code := by
  unfold setCode
  by_cases hid : row.id = id
  · by_cases hcode : row.code = some code
    · simp [hid, hcode]
    · simp [hid, hcode]
  · simp [hid]

/-- UPDATE short_links SET code = ? WHERE id = ? -/
def codeRow (t : LinksTable) (now : ℤ) (code : Bytes) (id : ℕ) : Option LinksTable :=
  if h : ∀ other ∈ t.rows, other.id ≠ id → other.hasCode code = false then
    some ⟨t.rows.map (setCode now code id), by
      apply List.pairwise_map.mpr
      refine t.distinct.imp_of_mem fun {a b} ha hb hab => ?_
      rw [Distinct, setCode_id, setCode_id, setCode_code, setCode_code]
      refine ⟨hab.1, ?_⟩
      intro c d hc hd
      by_cases hida : a.id = id
      · rw [if_pos hida] at hc
        rw [if_neg fun hidb => hab.1 (hida.trans hidb.symm)] at hd
        have hother := h b hb fun hidb => hab.1 (hida.trans hidb.symm)
        obtain rfl := Option.some.inj hc
        rw [StatisticsSchema.ShortLinksTable.sameCode_comm]
        simpa [LinkRow.hasCode, hd] using hother
      · rw [if_neg hida] at hc
        by_cases hidb : b.id = id
        · rw [if_pos hidb] at hd
          obtain rfl := Option.some.inj hd
          simpa [LinkRow.hasCode, hc] using h a ha hida
        · rw [if_neg hidb] at hd
          exact hab.2 c d hc hd⟩
  else none

section Methods

variable (server : Server) (now : ℤ)

/-- Characters of a text in UTF-8. -/
def characters (text : Bytes) : ℕ := text.countP fun c => c < 128 || 192 ≤ c

/-- Why strict mode refuses the values: DATETIME, utf8mb4, VARCHAR(32) and TEXT. -/
def refusal (code : Option Bytes) (originalUrl : Bytes) (expiresAt : Option ℤ) : Option Bytes :=
  if expiresAt.any fun expiresAt => !server.isDatetime expiresAt then
    some (ascii "Datetime function: datetime field overflow")
  else if !ValidUtf8 originalUrl || code.any fun code => !ValidUtf8 code then
    some (ascii "Incorrect string value")
  else if 65535 < originalUrl.length || code.any fun code => 32 < characters code then
    some (ascii "Data too long for column")
  else none

/-- The four INSERT statements, which leave out the columns that are not given. Numbers are bound
as their decimal forms. What fails after the counter has moved does not move it back. -/
def insertLink (ownerId : ℕ) (code : Option Bytes) (originalUrl : Bytes) (expiresAt : Option ℤ) :
    Session Unit where
  run d :=
    match refusal server code originalUrl expiresAt with
    | some message => (.error (dbException message), d)
    | none =>
      if 2 ^ 64 - 1 ≤ d.nextId then
        (.error (dbException
          (ascii "Failed to read auto-increment value from storage engine")), d)
      else
        let row : LinkRow :=
          ⟨d.nextId, ownerId, code, originalUrl, ascii "active", expiresAt, now, now⟩
        let d := { d with nextId := d.nextId + 1 }
        match insertRow d.links row with
        | none => (.error (duplicateEntry (code.getD [])), d)
        | some links =>
          if ownerId ∈ server.users then
            (.ok (), { d with links := links, lastInsertId := row.id })
          else
            (.error (dbException
              (ascii "Cannot add or update a child row: a foreign key constraint fails")), d)

def selectLastInsertId : Session (Option ℕ) := read fun d => some d.lastInsertId

def updateCode (code : Bytes) (id : ℕ) : Session Unit where
  run d :=
    match codeRow d.links now code id with
    | none => (.error (duplicateEntry code), d)
    | some links => (.ok (), { d with links := links })

/-- … WHERE id = ? LIMIT 1 -/
def selectById (id : ℕ) : Session (Option LinkRow) :=
  read fun d => d.links.rows.find? (·.id = id)

/-- … WHERE code = ? LIMIT 1 -/
def selectByCode (code : Bytes) : Session (Option LinkRow) := read fun d => d.links.rowOf code

/-- … WHERE code = ? AND owner_id = ? LIMIT 1 -/
def selectByCodeForOwner (code : Bytes) (ownerId : ℕ) : Session (Option LinkRow) :=
  read fun d => d.links.rows.find? fun row => row.hasCode code && row.ownerId == ownerId

def rowSelected (query : ListQuery) (row : LinkRow) : Bool :=
  query.cursor < row.id && query.ownerId.all (row.ownerId == ·) &&
    query.status.all (row.status == statusToString ·)

/-- The four variants of … WHERE [owner_id = ? AND] id > ? [AND status = ?] ORDER BY id ASC
LIMIT ? -/
def selectPage (query : ListQuery) : Session (List LinkRow) :=
  read fun d => ((d.links.rows.filter (rowSelected query)).mergeSort fun left right =>
    left.id ≤ right.id).take query.limit

/-- The calls of updateLifecycle and readRecord, which are given as programs. -/
def onLinks {α : Type} (client : LinkClient α) : Session α where
  run d :=
    let (result, links) := client.run.alone (answer server.isDatetime now) (fun _ => none) 0 d.links
    (result, { d with links := links })

def readRow (row : LinkRow) : Session ShortLinkRecord := onLinks server 0 (readRecord row)

def readRows : List LinkRow → Session (List ShortLinkRecord)
  | [] => pure []
  | row :: rows => do
    let record ← readRow server row
    let records ← readRows rows
    pure (record :: records)

def readCreated (id : ℕ) : Session ShortLinkRecord := do
  match ← selectById id with
  | none => throw (.std (.runtimeError (ascii "Failed to read created short link")))
  | some row =>
    let record ← readRow server row
    commit
    pure record

def createBody (originalUrl : Bytes) (expiresAt : Option ℤ) (ownerId : ℕ)
    (customCode : Option Bytes) : Session ShortLinkRecord := do
  startTransaction
  insertLink server now ownerId customCode originalUrl expiresAt
  match ← selectLastInsertId with
  | none => throw (.std (.runtimeError (ascii "Failed to read last insert id")))
  | some id =>
    let code := customCode.getD (encodeBase62 id)
    if customCode.isNone then updateCode now code id
    readCreated server id

/-- e.what(), where it is caught as a std::exception. -/
def what : RepositoryException → Option Bytes
  | .shortCodeConflict => some (ascii "Short code already exists")
  | .std (.invalidArgument what) | .std (.outOfRange what) | .std (.runtimeError what) => some what
  | .std .foreign => none

def isDuplicate (message : Bytes) : Bool :=
  contains message (ascii "Duplicate entry") || contains message (ascii "1062")

def create (originalUrl : Bytes) (expiresAt : Option ℤ) (ownerId : ℕ)
    (customCode : Option Bytes) : Session (Option ShortLinkRecord) :=
  tryCatch (some <$> createBody server now originalUrl expiresAt ownerId customCode) fun e => do
    rollback
    if customCode.isSome && (what e).any isDuplicate then throw .shortCodeConflict
    throw e

def readOption : Option LinkRow → Session (Option ShortLinkRecord)
  | none => pure none
  | some row => some <$> readRow server row

def findByCode (code : Bytes) : Session LookupResult := do
  let record ← readOption server (← selectByCode code)
  pure ⟨record, .mysql⟩

def findByCodeForOwner (code : Bytes) (ownerId : ℕ) : Session (Option ShortLinkRecord) := do
  readOption server (← selectByCodeForOwner code ownerId)

def list (query : ListQuery) : Session (List ShortLinkRecord) := do
  readRows server (← selectPage query)

def updateLifecycle (code : Bytes) (update : LifecycleUpdate) : Session (Option ShortLinkRecord) :=
  onLinks server now (MySqlShortLinks.updateLifecycle code update)

end Methods

def repository (server : Server) : ShortLinkRepository LinkDb where
  create originalUrl expiresAt ownerId customCode now d :=
    (create server now originalUrl expiresAt ownerId customCode).run d
  findByCode code d := ((findByCode server code).run d).1
  findByCodeForOwner code ownerId d := ((findByCodeForOwner server code ownerId).run d).1
  defaultLookupSource := .mysql
  list query d := ((list server query).run d).1
  updateLifecycle code update now d := (updateLifecycle server now code update).run d

section Creates

variable {server : Server} {now : ℤ} {originalUrl : Bytes} {expiresAt : Option ℤ} {ownerId : ℕ}
  {customCode : Option Bytes} {d : LinkDb}

theorem startTransaction_run (d : LinkDb) :
    startTransaction.run d = (.ok (), { d with saved := some d.links }) := rfl

theorem insertRow_free (t : LinksTable) (row : LinkRow)
    (h : ∀ other ∈ t.rows, clashes other row = false) :
    ∃ t', insertRow t row = some t' ∧ t'.rows = t.rows ++ [row] :=
  ⟨_, dif_pos h, rfl⟩

theorem insertRow_taken {t : LinksTable} (row : LinkRow) {other : LinkRow}
    (hother : other ∈ t.rows) (h : clashes other row = true) : insertRow t row = none := by
  apply dif_neg
  intro hfree
  rw [hfree other hother] at h
  cases h

theorem codeRow_free (t : LinksTable) (now : ℤ) (code : Bytes) (id : ℕ)
    (h : ∀ other ∈ t.rows, other.id ≠ id → other.hasCode code = false) :
    ∃ t', codeRow t now code id = some t' ∧ t'.rows = t.rows.map (setCode now code id) :=
  ⟨_, dif_pos h, rfl⟩

theorem codeRow_taken {t : LinksTable} {code : Bytes} {id : ℕ} {other : LinkRow}
    (hother : other ∈ t.rows) (hid : other.id ≠ id) (h : other.hasCode code = true) :
    codeRow t now code id = none := by
  apply dif_neg
  intro hfree
  rw [hfree other hother hid] at h
  cases h

def newRow (id : ℕ) (now : ℤ) (ownerId : ℕ) (code : Option Bytes) (originalUrl : Bytes)
    (expiresAt : Option ℤ) : LinkRow :=
  ⟨id, ownerId, code, originalUrl, ascii "active", expiresAt, now, now⟩

theorem insertLink_ok {t : LinksTable}
    (hvalues : refusal server customCode originalUrl expiresAt = none)
    (hid : d.nextId < 2 ^ 64 - 1) (howner : ownerId ∈ server.users)
    (hinsert : insertRow d.links
      (newRow d.nextId now ownerId customCode originalUrl expiresAt) = some t) :
    (insertLink server now ownerId customCode originalUrl expiresAt).run d =
      (.ok (), { d with links := t, nextId := d.nextId + 1, lastInsertId := d.nextId }) := by
  simp only [newRow] at hinsert
  simp only [insertLink, hvalues, if_neg (not_le.mpr hid), hinsert, if_pos howner]

theorem insertLink_taken (hvalues : refusal server customCode originalUrl expiresAt = none)
    (hid : d.nextId < 2 ^ 64 - 1)
    (hinsert : insertRow d.links
      (newRow d.nextId now ownerId customCode originalUrl expiresAt) = none) :
    (insertLink server now ownerId customCode originalUrl expiresAt).run d =
      (.error (duplicateEntry (customCode.getD [])), { d with nextId := d.nextId + 1 }) := by
  simp only [newRow] at hinsert
  simp only [insertLink, hvalues, if_neg (not_le.mpr hid), hinsert]

def exhausted : RepositoryException :=
  dbException (ascii "Failed to read auto-increment value from storage engine")

theorem insertLink_exhausted (hvalues : refusal server customCode originalUrl expiresAt = none)
    (hid : ¬ d.nextId < 2 ^ 64 - 1) :
    (insertLink server now ownerId customCode originalUrl expiresAt).run d =
      (.error exhausted, d) := by
  simp only [insertLink, hvalues, if_pos (not_lt.mp hid)]
  rfl

theorem contains_duplicateEntry (key : Bytes) :
    (what (duplicateEntry key)).any isDuplicate = true := by
  have hsplit : ascii "Duplicate entry '" = ascii "Duplicate entry" ++ ascii " '" := by decide
  rw [duplicateEntry, dbException, what, Option.any_some, isDuplicate, Bool.or_eq_true]
  left
  rw [contains, List.any_eq_true]
  refine ⟨_, (List.mem_tails _ _).mpr (List.suffix_refl _), List.isPrefixOf_iff_prefix.mpr ?_⟩
  rw [hsplit, List.append_assoc, List.append_assoc]
  exact List.prefix_append _ _

/-- A create that fails leaves no row behind. -/
theorem create_fails {e : RepositoryException} {d' : LinkDb}
    (h : (createBody server now originalUrl expiresAt ownerId customCode).run d = (.error e, d')) :
    (create server now originalUrl expiresAt ownerId customCode).run d =
      (.error (if customCode.isSome && (what e).any isDuplicate then .shortCodeConflict else e),
        { d' with links := d'.saved.getD d'.links, saved := none }) := by
  rw [create, run_tryCatch_error (run_map_error h some)]
  by_cases hconflict : customCode.isSome && (what e).any isDuplicate
  · rw [if_pos hconflict]
    simp only [if_pos hconflict]
    rfl
  · rw [if_neg hconflict]
    simp only [if_neg hconflict]
    rfl

end Creates

end MySqlRepository
