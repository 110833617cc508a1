import HaoShortLink.Actions
import HaoShortLink.Cpp
import HaoShortLink.SqlTables
import Mathlib.Data.List.Sort

/-! The scripts sql/001 to sql/005 and the up run of migrate_shortlink_schema.sh, which may be
stopped before any of its statements. -/
namespace SchemaMigrations

open Cpp Actions SqlTables

inductive Name where
  | schemaMigrations | version | name | appliedAt
  | shortLinks | id | ownerId | code | originalUrl | status | expiresAt | createdAt | updatedAt
  | ukShortLinksCode | idxShortLinksStatusId | idxShortLinksOwnerIdId | idxShortLinksOwnerStatusId
  | fkShortLinksOwner
  | processedAccessEvents | eventId | sourceTopic | sourcePartition | sourceOffset | occurredAtMs
  | disposition | processedAt | idxProcessedAccessEventsSource
  | idxProcessedAccessEventsProcessedAt
  | shortLinkAccessTotals | shortLinkId | result | accessCount | firstOccurredAtMs
  | lastOccurredAtMs | fkShortLinkAccessTotalsShortLink
  | shortLinkAccessHourly | bucketStartEpoch | fkShortLinkAccessHourlyShortLink
  | users | username | usernameNormalized | passwordHash | ukUsersUsernameNormalized
  | userSessions | tokenHash | userId | revokedAt | idxUserSessionsUserId
  | idxUserSessionsExpiresAt | fkUserSessionsUser
  deriving DecidableEq, Repr

inductive Collation where
  | utf8mb4
  | utf8mb4Bin
  | asciiBin
  deriving DecidableEq, Repr

inductive ColumnType where
  | int
  | intUnsigned
  | bigint
  | bigintUnsigned
  | char (length : ℕ) (collation : Collation)
  | varchar (length : ℕ) (collation : Collation)
  | text
  | timestamp (precision : ℕ)
  | datetime
  deriving DecidableEq, Repr

abbrev Statement := SqlTables.Statement Name ColumnType

abbrev Database := SqlTables.Database Name ColumnType

def text (s : String) : Value := .text (ascii s)

def primaryKey (columns : List Name) : Key Name := ⟨none, columns, true⟩

/-- A time that is filled in where an INSERT leaves it out. -/
def stamped (column : Name) (precision : ℕ) : Column Name ColumnType :=
  { name := column, type := .timestamp precision, default := .currentTimestamp }

/-- A time that also follows updates. -/
def followed (column : Name) (precision : ℕ) : Column Name ColumnType :=
  { stamped column precision with onUpdateCurrentTimestamp := true }

def autoId : Column Name ColumnType :=
  { name := .id, type := .bigintUnsigned, default := .autoIncrement }

def codeColumn : Column Name ColumnType :=
  { name := .code, type := .varchar 32 .utf8mb4Bin, nullable := true, default := .value .null }

def shortLinks1 : Definition Name ColumnType where
  columns := [autoId, codeColumn, { name := .originalUrl, type := .text }, stamped .createdAt 0,
    followed .updatedAt 0]
  keys := [primaryKey [.id], ⟨some .ukShortLinksCode, [.code], true⟩]

def createShortLinks : Statement := .createTable true .shortLinks shortLinks1

def migration001 : List Statement := [createShortLinks]

def migration002 : List Statement := [.alterTable .shortLinks [.modifyColumn codeColumn]]

def statusColumn : Column Name ColumnType :=
  { name := .status, type := .varchar 16 .utf8mb4, default := .value (text "active") }

def expiresAtColumn : Column Name ColumnType :=
  { name := .expiresAt, type := .datetime, nullable := true }

def statusCheck : Check Name := .oneOf .status [text "active", text "disabled"]

def migration003 : List Statement := [.alterTable .shortLinks [
  .addColumn statusColumn (some .originalUrl), .addColumn expiresAtColumn (some .status),
  .addCheck statusCheck, .addKey ⟨some .idxShortLinksStatusId, [.status, .id], false⟩]]

def asciiText (column : Name) (length : ℕ) : Column Name ColumnType :=
  { name := column, type := .varchar length .asciiBin }

def bigintUnsigned (column : Name) : Column Name ColumnType :=
  { name := column, type := .bigintUnsigned }

def resultCheck : Check Name :=
  .oneOf .result [text "success", text "disabled", text "expired", text "error"]

def processedAccessEvents : Definition Name ColumnType where
  columns := [{ name := .eventId, type := .char 32 .asciiBin }, asciiText .sourceTopic 249,
    { name := .sourcePartition, type := .int }, { name := .sourceOffset, type := .bigint },
    bigintUnsigned .occurredAtMs, asciiText .disposition 32, stamped .processedAt 3]
  keys := [primaryKey [.eventId],
    ⟨some .idxProcessedAccessEventsSource, [.sourceTopic, .sourcePartition, .sourceOffset], false⟩,
    ⟨some .idxProcessedAccessEventsProcessedAt, [.processedAt], false⟩]
  checks := [.atLeast .sourcePartition 0, .atLeast .sourceOffset 0, .atLeast .occurredAtMs 1,
    .oneOf .disposition [text "received", text "aggregated", text "not_found_ignored"]]

def accessCountColumn : Column Name ColumnType :=
  { name := .accessCount, type := .bigintUnsigned, default := .value (.int 0) }

def shortLinkAccessTotals : Definition Name ColumnType where
  columns := [bigintUnsigned .shortLinkId, asciiText .result 16, accessCountColumn,
    bigintUnsigned .firstOccurredAtMs, bigintUnsigned .lastOccurredAtMs, followed .updatedAt 3]
  keys := [primaryKey [.shortLinkId, .result]]
  checks := [resultCheck, .atLeast .accessCount 1, .atLeast .firstOccurredAtMs 1,
    .ordered .firstOccurredAtMs .lastOccurredAtMs]
  foreignKeys := [{ name := .fkShortLinkAccessTotalsShortLink, column := .shortLinkId
                    parent := .shortLinks, referenced := .id }]

def shortLinkAccessHourly : Definition Name ColumnType where
  columns := [bigintUnsigned .shortLinkId, bigintUnsigned .bucketStartEpoch, asciiText .result 16,
    accessCountColumn, followed .updatedAt 3]
  keys := [primaryKey [.shortLinkId, .bucketStartEpoch, .result]]
  checks := [.multipleOf .bucketStartEpoch 3600, resultCheck, .atLeast .accessCount 1]
  foreignKeys := [{ name := .fkShortLinkAccessHourlyShortLink, column := .shortLinkId
                    parent := .shortLinks, referenced := .id }]

def createHourly : Statement := .createTable true .shortLinkAccessHourly shortLinkAccessHourly

def migration004 : List Statement :=
  [.createTable true .processedAccessEvents processedAccessEvents,
    .createTable true .shortLinkAccessTotals shortLinkAccessTotals, createHourly]

def schemaMigrations : Definition Name ColumnType where
  columns := [{ name := .version, type := .intUnsigned }, asciiText .name 128, stamped .appliedAt 3]
  keys := [primaryKey [.version]]

def createSchemaMigrations : Statement := .createTable true .schemaMigrations schemaMigrations

def users : Definition Name ColumnType where
  columns := [autoId, { name := .username, type := .varchar 32 .utf8mb4Bin },
    asciiText .usernameNormalized 32, asciiText .passwordHash 255,
    { asciiText .status 16 with default := .value (text "active") }, stamped .createdAt 0,
    followed .updatedAt 0]
  keys := [primaryKey [.id], ⟨some .ukUsersUsernameNormalized, [.usernameNormalized], true⟩]
  checks := [statusCheck]

def createUsers : Statement := .createTable false .users users

def insertLegacySystem : Statement :=
  .insert false .users [.username, .usernameNormalized, .passwordHash, .status]
    [[text "legacy-system", text "legacy-system", text "!", text "disabled"]]

def ownerIdColumn : Column Name ColumnType := bigintUnsigned .ownerId

def addOwnerId : Statement :=
  .alterTable .shortLinks [.addColumn { ownerIdColumn with nullable := true } (some .id)]

def setOwnerId : Statement :=
  .updateNull .shortLinks .ownerId (.select .id .users .usernameNormalized (text "legacy-system"))

def shortLinksOwner : ForeignKey Name :=
  { name := .fkShortLinksOwner, column := .ownerId, parent := .users, referenced := .id }

def requireOwnerId : Statement := .alterTable .shortLinks [.modifyColumn ownerIdColumn,
  .addKey ⟨some .idxShortLinksOwnerIdId, [.ownerId, .id], false⟩,
  .addKey ⟨some .idxShortLinksOwnerStatusId, [.ownerId, .status, .id], false⟩,
  .addForeignKey shortLinksOwner]

def userSessions : Definition Name ColumnType where
  columns := [{ name := .tokenHash, type := .char 64 .asciiBin }, bigintUnsigned .userId,
    { name := .expiresAt, type := .datetime },
    { name := .revokedAt, type := .datetime, nullable := true }, stamped .createdAt 0]
  keys := [primaryKey [.tokenHash], ⟨some .idxUserSessionsUserId, [.userId], false⟩,
    ⟨some .idxUserSessionsExpiresAt, [.expiresAt], false⟩]
  foreignKeys := [{ name := .fkUserSessionsUser, column := .userId, parent := .users
                    referenced := .id, cascades := true }]

def versions : List (Value × Value) :=
  [(.int 1, text "create_short_links"), (.int 2, text "make_short_link_code_case_sensitive"),
    (.int 3, text "add_short_link_lifecycle"), (.int 4, text "create_access_statistics"),
    (.int 5, text "add_users_sessions_and_ownership")]

def insertVersions : Statement :=
  .insert true .schemaMigrations [.version, .name] (versions.map fun v => [v.1, v.2])

def migration005 : List Statement :=
  [createSchemaMigrations, createUsers, insertLegacySystem, addOwnerId, setOwnerId, requireOwnerId,
    .createTable false .userSessions userSessions, insertVersions]

inductive Exit where
  | failed
  /-- Cut off from outside. -/
  | stopped
  deriving DecidableEq, Repr

/-- The time at which each statement of a run is executed, and how many of them there may be. -/
structure Run where
  clock : ℕ → ℤ
  stopAfter : Option ℕ

structure State where
  database : Database
  executed : ℕ

abbrev Script := Action State Exit

def execute (run : Run) (statement : Statement) : Script Unit :=
  ⟨fun s =>
    if run.stopAfter = some s.executed then (.error .stopped, s)
    else
      match statement.run (run.clock s.executed) s.database with
      | some d => (.ok (), ⟨d, s.executed + 1⟩)
      | none => (.error .failed, s)⟩

/-- mysql reads a file up to the first error. -/
def mysqlCommand (run : Run) : List Statement → Script Unit
  | [] => pure ()
  | statement :: statements => do
    execute run statement
    mysqlCommand run statements

def tableExists (d : Database) (table : Name) : Bool := (d table).isSome

def columnExists (d : Database) (table column : Name) : Bool :=
  (d table).any fun t => (t.definition.column column).isSome

def count (d : Database) (table : Name) (p : Row Name → Bool) : ℕ := (rowsOf d table).countP p

def versionOf (row : Row Name) : ℤ :=
  match row .version with
  | .int n => n
  | _ => 0

/-- The versions between 1 and 5 in their order. -/
def history (d : Database) : List (Value × Value) :=
  (((rowsOf d .schemaMigrations).filter fun row => decide (1 ≤ versionOf row ∧ versionOf row ≤ 5)
    ).insertionSort fun a b => versionOf a ≤ versionOf b).map fun row => (row .version, row .name)

def isLegacySystem (row : Row Name) : Bool :=
  row .usernameNormalized == text "legacy-system" && row .status == text "disabled" &&
    row .passwordHash == text "!"

/-- validate_v2_schema returns 0. -/
def validateV2Schema (d : Database) : Bool :=
  tableExists d .users && tableExists d .userSessions && columnExists d .shortLinks .ownerId &&
    (d .shortLinks).any (fun t => (t.definition.column .ownerId).any fun c => !c.nullable) &&
    (d .shortLinks).any (fun t =>
      t.definition.keys.any fun k => k.name == some .idxShortLinksOwnerIdId) &&
    (d .shortLinks).any (fun t =>
      t.definition.foreignKeys.any fun f => f.name == .fkShortLinksOwner) &&
    history d == versions &&
    count d .users isLegacySystem == 1 &&
    count d .shortLinks (fun row => row .ownerId == .null) == 0

def validate : Script Unit := do
  let valid ← Action.read fun s => validateV2Schema s.database
  if valid then pure () else throw .failed

def applyUp (run : Run) : Script Unit := do
  execute run createSchemaMigrations
  let applied ← Action.read fun s =>
    count s.database .schemaMigrations (fun row => row .version == .int 5) == 1
  if applied then validate
  else do
    let known ← Action.read fun s => tableExists s.database .shortLinks
    let supported ← Action.read fun s =>
      columnExists s.database .shortLinks .status && tableExists s.database .processedAccessEvents
    if !known then do
      mysqlCommand run migration001
      mysqlCommand run migration002
      mysqlCommand run migration003
      mysqlCommand run migration004
      mysqlCommand run migration005
      validate
    else if !supported then throw .failed
    else do
      mysqlCommand run migration005
      validate

end SchemaMigrations
