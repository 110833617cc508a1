import HaoShortLink.SchemaMigrations
import Mathlib.Data.List.Perm.Basic

/-! Migration 005 takes a database of v1.9 to version 5. -/
namespace SchemaUpgrades

open Cpp SqlTables SchemaMigrations

def shortLinks4 : Definition Name ColumnType where
  columns := [autoId, codeColumn, { name := .originalUrl, type := .text }, statusColumn,
    expiresAtColumn, stamped .createdAt 0, followed .updatedAt 0]
  keys := [primaryKey [.id], ⟨some .ukShortLinksCode, [.code], true⟩,
    ⟨some .idxShortLinksStatusId, [.status, .id], false⟩]
  checks := [statusCheck]

def shortLinks5 : Definition Name ColumnType where
  columns := [autoId, ownerIdColumn, codeColumn, { name := .originalUrl, type := .text },
    statusColumn, expiresAtColumn, stamped .createdAt 0, followed .updatedAt 0]
  keys := [primaryKey [.id], ⟨some .ukShortLinksCode, [.code], true⟩,
    ⟨some .idxShortLinksStatusId, [.status, .id], false⟩,
    ⟨some .idxShortLinksOwnerIdId, [.ownerId, .id], false⟩,
    ⟨some .idxShortLinksOwnerStatusId, [.ownerId, .status, .id], false⟩]
  checks := [statusCheck]
  foreignKeys := [shortLinksOwner]

def statistics : Name → Option (Definition Name ColumnType)
  | .processedAccessEvents => some processedAccessEvents
  | .shortLinkAccessTotals => some shortLinkAccessTotals
  | .shortLinkAccessHourly => some shortLinkAccessHourly
  | _ => none

def version19 : Name → Option (Definition Name ColumnType)
  | .shortLinks => some shortLinks4
  | table => statistics table

def version5 : Name → Option (Definition Name ColumnType)
  | .schemaMigrations => some schemaMigrations
  | .shortLinks => some shortLinks5
  | .users => some users
  | .userSessions => some userSessions
  | table => statistics table

def recordOf (row : Row Name) : Value × Value := (row .version, row .name)

/-- The tables of v1.9 with any rows they admit. A rollback leaves schema_migrations there, with
versions before 5 in it. -/
structure SupportedV19 (d : Database) : Prop where
  tables : ∀ table ≠ .schemaMigrations, (d table).map Table.definition = version19 table
  links : ∀ t, d .shortLinks = some t → Valid d t
  migrations : ∀ t, d .schemaMigrations = some t → t.definition = schemaMigrations ∧ Valid d t ∧
    ∀ row ∈ t.rows, recordOf row ∈ versions.take 4

/-- All links are there as they were, and belong to the legacy-system user. -/
def Preserved (d d' : Database) : Prop :=
  ∃ owner ∈ rowsOf d' .users, isLegacySystem owner = true ∧
    List.Forall₂ (fun old new => new .ownerId = owner .id ∧
      ∀ c ∈ [Name.id, .code, .originalUrl, .status, .expiresAt, .createdAt], new c = old c)
      (rowsOf d .shortLinks) (rowsOf d' .shortLinks)

structure Completed (d d' : Database) : Prop where
  schema : ∀ table, (d' table).map Table.definition = version5 table
  accepted : validateV2Schema d' = true
  preserved : Preserved d d'

theorem completed_congr {d₁ d₂ d' : Database}
    (hrows : rowsOf d₁ .shortLinks = rowsOf d₂ .shortLinks) :
    Completed d₁ d' ↔ Completed d₂ d' := by
  have hpreserved : Preserved d₁ d' ↔ Preserved d₂ d' := by
    rw [Preserved, Preserved, hrows]
  constructor
  · rintro ⟨hschema, haccepted, h⟩
    exact ⟨hschema, haccepted, hpreserved.mp h⟩
  · rintro ⟨hschema, haccepted, h⟩
    exact ⟨hschema, haccepted, hpreserved.mpr h⟩

/-- What the table of recorded versions keeps to while versions are added. -/
structure Recording (rows : List (Row Name)) : Prop where
  known : ∀ row ∈ rows, recordOf row ∈ versions
  once : (rows.map recordOf).Nodup
  stamped : ∀ row ∈ rows, row .appliedAt ≠ .null

theorem version_ne_null {v : Value × Value} (h : v ∈ versions) : v.1 ≠ .null ∧ v.2 ≠ .null := by
  revert v
  decide

theorem eq_of_version {v w : Value × Value} (hv : v ∈ versions) (hw : w ∈ versions)
    (h : v.1 = w.1) : v = w := by
  have hnodup : (versions.map Prod.fst).Nodup := by decide
  exact List.inj_on_of_nodup_map hnodup hv hw h

theorem clash_iff (a b : Row Name) : (primaryKey [.version]).Clash a b ↔
    a .version = b .version ∧ a .version ≠ .null := by
  simp [Key.Clash, primaryKey]

theorem Recording.valid {d : Database} {t : Table Name ColumnType} (h : Recording t.rows)
    (hdefinition : t.definition = schemaMigrations) : Valid d t where
  notNull := by
    rw [hdefinition]
    intro row hrow c hc _
    obtain ⟨hversion, hname⟩ := version_ne_null (h.known row hrow)
    simp only [schemaMigrations, List.mem_cons, List.not_mem_nil, or_false] at hc
    rcases hc with rfl | rfl | rfl
    · exact hversion
    · exact hname
    · exact h.stamped row hrow
  checks := by
    rw [hdefinition]
    intro row _ check hcheck
    cases hcheck
  unique := by
    rw [hdefinition]
    intro k hk _
    obtain rfl := List.mem_singleton.mp hk
    have honce := List.pairwise_map.mp h.once
    apply honce.imp_of_mem
    intro a b ha hb hne hclash
    exact hne (eq_of_version (h.known a ha) (h.known b hb) ((clash_iff a b).mp hclash).1)
  references := by
    rw [hdefinition]
    intro row _ f hf
    cases hf

theorem Recording.of_valid {d : Database} {t : Table Name ColumnType} (h : Valid d t)
    (hdefinition : t.definition = schemaMigrations)
    (hknown : ∀ row ∈ t.rows, recordOf row ∈ versions) : Recording t.rows where
  known := hknown
  once := by
    have hunique := h.unique (primaryKey [.version]) (by simp [hdefinition, schemaMigrations]) rfl
    rw [List.Nodup, List.pairwise_map]
    apply hunique.imp_of_mem
    intro a b ha hb hclash hsame
    apply hclash
    rw [clash_iff]
    exact ⟨congrArg Prod.fst hsame, (version_ne_null (hknown a ha)).1⟩
  stamped := by
    intro row hrow
    exact h.notNull row hrow (SchemaMigrations.stamped .appliedAt 3)
      (by simp [hdefinition, schemaMigrations]) rfl

theorem Recording.append {rows : List (Row Name)} {row : Row Name} (h : Recording rows)
    (hknown : recordOf row ∈ versions) (hfresh : recordOf row ∉ rows.map recordOf)
    (hstamped : row .appliedAt ≠ .null) : Recording (rows ++ [row]) where
  known := by
    intro old hold
    rcases List.mem_append.mp hold with hold | hold
    · exact h.known old hold
    · rwa [List.mem_singleton.mp hold]
  once := by
    rw [List.map_append, List.map_singleton]
    exact List.nodup_append_comm.mp (List.nodup_cons.mpr ⟨hfresh, h.once⟩)
  stamped := by
    intro old hold
    rcases List.mem_append.mp hold with hold | hold
    · exact h.stamped old hold
    · rwa [List.mem_singleton.mp hold]

/-- INSERT IGNORE INTO schema_migrations -/
def record (now : ℤ) (t : Table Name ColumnType) (v : Value × Value) : Table Name ColumnType :=
  t.insert true now [.version, .name] [v.1, v.2]

theorem recordOf_newRow (t : Table Name ColumnType) (now : ℤ) (v : Value × Value) :
    recordOf (newRow t now [.version, .name] [v.1, v.2]) = v := rfl

theorem clashes_version {t : Table Name ColumnType} (h : t.definition = schemaMigrations)
    (row : Row Name) : clashes t row = true ↔
      ∃ old ∈ t.rows, old .version = row .version ∧ old .version ≠ .null := by
  have hunique : (primaryKey [Name.version]).unique = true := rfl
  simp only [clashes, h, schemaMigrations, List.any_cons, List.any_nil, Bool.or_false, hunique,
    Bool.true_and, List.any_eq_true, decide_eq_true_eq, clash_iff]

theorem record_step {t : Table Name ColumnType} {v : Value × Value} (now : ℤ)
    (hdefinition : t.definition = schemaMigrations) (h : Recording t.rows) (hv : v ∈ versions) :
    (record now t v).definition = schemaMigrations ∧ Recording (record now t v).rows ∧
      ∀ w, w ∈ (record now t v).rows.map recordOf ↔ w ∈ t.rows.map recordOf ∨ w = v := by
  have hrecord := recordOf_newRow t now v
  generalize hrow : newRow t now [.version, .name] [v.1, v.2] = row at hrecord
  by_cases hclash : clashes t row = true
  · have hsame : record now t v = t := by simp [record, Table.insert, hrow, hclash]
    obtain ⟨old, hold, hversion, -⟩ := (clashes_version hdefinition row).mp hclash
    have hv' : recordOf old = v := by
      apply eq_of_version (h.known old hold) hv
      rw [← hrecord]
      exact hversion
    rw [hsame]
    refine ⟨hdefinition, h, fun w => ⟨Or.inl, ?_⟩⟩
    rintro (hw | rfl)
    · exact hw
    · exact hv' ▸ List.mem_map_of_mem hold
  · have hadded : (record now t v).rows = t.rows ++ [row] := by
      simp [record, Table.insert, hrow, hclash]
    have hfresh : v ∉ t.rows.map recordOf := by
      intro hmem
      obtain ⟨old, hold, hsame⟩ := List.mem_map.mp hmem
      apply hclash
      rw [clashes_version hdefinition]
      refine ⟨old, hold, ?_, (version_ne_null (h.known old hold)).1⟩
      exact congrArg Prod.fst (hsame.trans hrecord.symm)
    have hnow : row .appliedAt = .int now := by
      rw [← hrow, newRow, hdefinition]
      rfl
    have hdefinition' : (record now t v).definition = t.definition := by
      simp [record, Table.insert, hrow, hclash]
    rw [hadded, hdefinition', ← hrecord]
    refine ⟨hdefinition, h.append (hrecord ▸ hv) (hrecord ▸ hfresh) ?_, fun w => ?_⟩
    · rw [hnow]
      exact Value.noConfusion
    · simp [eq_comm]

theorem record_run {t : Table Name ColumnType} (now : ℤ) {added : List (Value × Value)}
    (hdefinition : t.definition = schemaMigrations) (h : Recording t.rows)
    (hadded : ∀ v ∈ added, v ∈ versions) :
    (added.foldl (record now) t).definition = schemaMigrations ∧
      Recording (added.foldl (record now) t).rows ∧
      ∀ w, w ∈ (added.foldl (record now) t).rows.map recordOf ↔
        w ∈ t.rows.map recordOf ∨ w ∈ added := by
  induction added generalizing t with
  | nil => simpa using ⟨hdefinition, h⟩
  | cons v added ih =>
    obtain ⟨hdefinition', h', hmem⟩ := record_step now hdefinition h (hadded v (by simp))
    obtain ⟨hd, hr, hall⟩ := ih hdefinition' h' fun w hw => hadded w (List.mem_cons_of_mem v hw)
    refine ⟨hd, hr, fun w => ?_⟩
    rw [List.foldl_cons, hall w, hmem w, List.mem_cons, or_assoc]

theorem record_all {t : Table Name ColumnType} (now : ℤ)
    (hdefinition : t.definition = schemaMigrations) (h : Recording t.rows) :
    ((versions.foldl (record now) t).rows.map recordOf).Perm versions := by
  obtain ⟨-, hrecording, hmem⟩ := record_run now hdefinition h (fun v hv => hv)
  apply (List.perm_ext_iff_of_nodup hrecording.once (by decide)).mpr
  intro w
  rw [hmem w]
  constructor
  · rintro (hw | hw)
    · obtain ⟨row, hrow, rfl⟩ := List.mem_map.mp hw
      exact h.known row hrow
    · exact hw
  · exact Or.inr

def number (v : Value × Value) : ℤ := versionOf fun _ => v.1

theorem history_eq {d : Database}
    (h : ((rowsOf d .schemaMigrations).map recordOf).Perm versions) : history d = versions := by
  have hbounds : ∀ v ∈ versions, 1 ≤ number v ∧ number v ≤ 5 := by decide
  have hall : (rowsOf d .schemaMigrations).filter
      (fun row => decide (1 ≤ versionOf row ∧ versionOf row ≤ 5)) = rowsOf d .schemaMigrations := by
    apply List.filter_eq_self.mpr
    intro row hrow
    exact decide_eq_true (hbounds _ (h.mem_iff.mp (List.mem_map_of_mem hrow)))
  have hperm : (history d).Perm versions := by
    rw [history, hall]
    exact ((List.perm_insertionSort _ _).map recordOf).trans h
  have hsorted : (history d).Pairwise fun v w => number v ≤ number w := by
    have : Std.Total fun a b : Row Name => versionOf a ≤ versionOf b := ⟨fun a b => le_total _ _⟩
    have : IsTrans (Row Name) fun a b => versionOf a ≤ versionOf b := ⟨fun a b c => le_trans⟩
    exact List.pairwise_map.mpr (List.pairwise_insertionSort _ _)
  have hdistinct : ∀ v ∈ versions, ∀ w ∈ versions, number v ≤ number w → number w ≤ number v →
      v = w := by decide
  apply List.Perm.eq_of_pairwise _ hsorted (by decide) hperm
  intro v w hv hw
  exact hdistinct v (hperm.mem_iff.mp hv) w hw

def shortLinksNullable : Definition Name ColumnType := { shortLinks4 with
  columns := insertAfter { ownerIdColumn with nullable := true } (some .id) shortLinks4.columns }

theorem nullable_ne : shortLinksNullable ≠ shortLinks5 := by decide

def legacySystem (now : ℤ) : Row Name :=
  newRow (⟨users, [], 1⟩ : Table Name ColumnType) now
    [.username, .usernameNormalized, .passwordHash, .status]
    [text "legacy-system", text "legacy-system", text "!", text "disabled"]

def unowned (row : Row Name) : Row Name := Function.update row .ownerId .null

def owned (now : ℤ) (row : Row Name) : Row Name := fun c =>
  if c = .ownerId then .int 1 else if c = .updatedAt then .int now else row c

section Links

variable {d : Database} {links : Table Name ColumnType} {now : ℤ}

theorem isLegacySystem_legacySystem : isLegacySystem (legacySystem now) = true := rfl

theorem run_insertLegacySystem (h : d .users = some ⟨users, [], 1⟩) :
    insertLegacySystem.run now d =
      some (Function.update d .users (some ⟨users, [legacySystem now], 2⟩)) := by
  apply run_insert h
  · rfl
  · refine ⟨?_, ?_, ?_, ?_⟩
    · intro row hrow c hc _
      obtain rfl := List.mem_singleton.mp hrow
      simp only [users, List.mem_cons, List.not_mem_nil, or_false] at hc
      rcases hc with rfl | rfl | rfl | rfl | rfl | rfl | rfl <;> exact Value.noConfusion
    · intro row hrow check hcheck
      obtain rfl := List.mem_singleton.mp hrow
      obtain rfl := List.mem_singleton.mp hcheck
      rfl
    · intro k _ _
      exact List.pairwise_singleton _ _
    · intro row _ f hf
      cases hf

/-- The checks and the unique keys of short_links are about neither the owner nor the time of the
last change. -/
theorem valid_links {d' : Database} {t : Table Name ColumnType} {g : Row Name → Row Name}
    (h : Valid d links) (hlinks : links.definition = shortLinks4)
    (ht : t.definition = shortLinksNullable ∨ t.definition = shortLinks5)
    (hrows : t.rows = links.rows.map g)
    (hsame : ∀ row c, c ≠ .ownerId → c ≠ .updatedAt → g row c = row c)
    (hupdated : ∀ row, row .updatedAt ≠ .null → g row .updatedAt ≠ .null)
    (howner : t.definition = shortLinks5 →
      ∃ owner ∈ rowsOf d' .users, owner .id ≠ .null ∧ ∀ row, g row .ownerId = owner .id) :
    Valid d' t := by
  have hcolumns : ∀ c ∈ t.definition.columns, c.nullable = false →
      (c = ownerIdColumn ∧ t.definition = shortLinks5) ∨
        (c ∈ shortLinks4.columns ∧ c.name ≠ .ownerId) := by
    rcases ht with ht | ht <;> rw [ht] <;> decide
  have hchecks : t.definition.checks = [statusCheck] := by
    rcases ht with ht | ht <;> rw [ht] <;> rfl
  have hkeys : ∀ k ∈ t.definition.keys, k.unique = true →
      k ∈ shortLinks4.keys ∧ ∀ c ∈ k.columns, c ≠ .ownerId ∧ c ≠ .updatedAt := by
    rcases ht with ht | ht <;> rw [ht] <;> decide
  have hforeign : ∀ f ∈ t.definition.foreignKeys,
      f = shortLinksOwner ∧ t.definition = shortLinks5 := by
    rcases ht with ht | ht <;> rw [ht] <;> decide
  rw [← hlinks] at hkeys hcolumns
  apply h.map_rows hrows
  · intro row hrow c hc hnull
    rcases hcolumns c hc hnull with ⟨rfl, ht5⟩ | ⟨hmem, hne⟩
    · obtain ⟨owner, -, hid, hg⟩ := howner ht5
      rw [ownerIdColumn, bigintUnsigned, hg row]
      exact hid
    · have hold := h.notNull row hrow c hmem hnull
      by_cases hupdate : c.name = .updatedAt
      · rw [hupdate] at hold ⊢
        exact hupdated row hold
      · rwa [hsame row c.name hne hupdate]
  · intro check hcheck
    rw [hchecks] at hcheck
    obtain rfl := List.mem_singleton.mp hcheck
    refine ⟨by simp [hlinks, shortLinks4], fun row => ?_⟩
    simp only [statusCheck, Check.allows, hsame row .status (by decide) (by decide)]
  · intro k hk hunique
    obtain ⟨hmem, hne⟩ := hkeys k hk hunique
    exact ⟨hmem, fun c hc row => hsame row c (hne c hc).1 (hne c hc).2⟩
  · intro row _ f hf
    obtain ⟨rfl, ht5⟩ := hforeign f hf
    obtain ⟨owner, howner, -, hg⟩ := howner ht5
    exact ⟨owner, howner, (hg row).symm⟩

theorem run_addOwnerId (hlinks : links.definition = shortLinks4) (hvalid : Valid d links)
    {d' : Database} (h : d' .shortLinks = some links) :
    addOwnerId.run now d' = some (Function.update d' .shortLinks
      (some ⟨shortLinksNullable, links.rows.map unowned, links.nextId⟩)) := by
  apply run_alter h
  · obtain ⟨definition, rows, nextId⟩ := links
    subst hlinks
    rfl
  · apply valid_links hvalid hlinks (Or.inl rfl) rfl
    · intro row c hne _
      exact Function.update_of_ne hne _ _
    · intro row hrow
      exact hrow
    · intro hsame
      exact absurd hsame nullable_ne

theorem setNull_unowned {rows : List (Row Name)} {n : ℕ} :
    (⟨shortLinksNullable, rows.map unowned, n⟩ : Table Name ColumnType).setNull now .ownerId
      (.int 1) = ⟨shortLinksNullable, rows.map (owned now), n⟩ := by
  simp only [Table.setNull, List.map_map]
  congr 2
  funext row c
  have hnull : unowned row .ownerId = .null := rfl
  have hne : Value.int 1 ≠ .null := Value.noConfusion
  rw [Function.comp_apply, if_pos ⟨hnull, hne⟩]
  cases c <;> rfl

theorem run_setOwnerId {before : ℤ} {n : ℕ} (hlinks : links.definition = shortLinks4)
    (hvalid : Valid d links) {d' : Database}
    (h : d' .shortLinks = some ⟨shortLinksNullable, links.rows.map unowned, n⟩)
    (husers : d' .users = some ⟨users, [legacySystem before], 2⟩) :
    setOwnerId.run now d' = some (Function.update d' .shortLinks
      (some ⟨shortLinksNullable, links.rows.map (owned now), n⟩)) := by
  have hid : (Scalar.select .id .users .usernameNormalized (text "legacy-system")).eval d' =
      some (.int 1) := by
    simp only [Scalar.eval, rowsOf, husers]
    rfl
  apply run_updateNull h hid setNull_unowned
  apply valid_links hvalid hlinks (Or.inl rfl) rfl
  · intro row c howner hupdated
    simp only [owned, if_neg howner, if_neg hupdated]
  · intro row _
    exact Value.noConfusion
  · intro hsame
    exact absurd hsame nullable_ne

theorem run_requireOwnerId {before later : ℤ} {n : ℕ} (hlinks : links.definition = shortLinks4)
    (hvalid : Valid d links) {d' : Database}
    (h : d' .shortLinks = some ⟨shortLinksNullable, links.rows.map (owned now), n⟩)
    (husers : d' .users = some ⟨users, [legacySystem before], 2⟩) :
    requireOwnerId.run later d' = some (Function.update d' .shortLinks
      (some ⟨shortLinks5, links.rows.map (owned now), n⟩)) := by
  apply run_alter h
  · have hsupported : shortLinksOwner.supported d' = true := by
      simp only [ForeignKey.supported, shortLinksOwner, husers]
      rfl
    -- the foreign key comes last, behind the column and the keys
    let keyed : Table Name ColumnType :=
      ⟨{ shortLinks5 with foreignKeys := [] }, links.rows.map (owned now), n⟩
    have hlast : keyed.alter d' later (.addForeignKey shortLinksOwner) =
        some ⟨shortLinks5, links.rows.map (owned now), n⟩ := by
      simp only [Table.alter, hsupported]
      rfl
    change (keyed.alter d' later (.addForeignKey shortLinksOwner)).bind some = _
    rw [hlast]
    rfl
  · apply valid_links hvalid hlinks (Or.inr rfl) rfl
    · intro row c howner hupdated
      simp only [owned, if_neg howner, if_neg hupdated]
    · intro row _
      exact Value.noConfusion
    · intro _
      refine ⟨legacySystem before, ?_, Value.noConfusion, fun row => rfl⟩
      simp [rowsOf, husers]

end Links

/-- What migration 005 starts from. -/
structure Upgradable (d : Database) : Prop where
  links : ∃ t, d .shortLinks = some t ∧ t.definition = shortLinks4 ∧ Valid d t
  migrations : ∃ t, d .schemaMigrations = some t ∧ t.definition = schemaMigrations ∧
    Recording t.rows
  users : d .users = none
  userSessions : d .userSessions = none

structure Upgraded (d d' : Database) : Prop where
  links : ∃ now n, d' .shortLinks =
    some ⟨shortLinks5, (rowsOf d .shortLinks).map (owned now), n⟩
  migrations : ∃ t, d' .schemaMigrations = some t ∧ t.definition = schemaMigrations ∧
    (t.rows.map recordOf).Perm versions
  users : ∃ now, d' .users = some ⟨users, [legacySystem now], 2⟩
  userSessions : d' .userSessions = some ⟨userSessions, [], 1⟩
  others : ∀ table ∉ [Name.schemaMigrations, .shortLinks, .users, .userSessions],
    d' table = d table

theorem migration005_upgrades (clock : ℕ → ℤ) (i : ℕ) {d : Database} (h : Upgradable d) :
    ∃ d', runAll clock i d migration005 = some d' ∧ Upgraded d d' := by
  obtain ⟨links, hlinks, hlinksDefinition, hvalid⟩ := h.links
  obtain ⟨migrations, hmigrations, hmigrationsDefinition, hrecording⟩ := h.migrations
  -- the database behind each statement that changes it
  let d₁ : Database := Function.update d .users (some ⟨users, [], 1⟩)
  let d₂ : Database := Function.update d₁ .users (some ⟨users, [legacySystem (clock (i + 2))], 2⟩)
  let d₃ : Database := Function.update d₂ .shortLinks
    (some ⟨shortLinksNullable, links.rows.map unowned, links.nextId⟩)
  let d₄ : Database := Function.update d₃ .shortLinks
    (some ⟨shortLinksNullable, links.rows.map (owned (clock (i + 4))), links.nextId⟩)
  let d₅ : Database := Function.update d₄ .shortLinks
    (some ⟨shortLinks5, links.rows.map (owned (clock (i + 4))), links.nextId⟩)
  let d₆ : Database := Function.update d₅ .userSessions (some ⟨userSessions, [], 1⟩)
  let recorded := versions.foldl (record (clock (i + 7))) migrations
  let d₇ : Database := Function.update d₆ .schemaMigrations (some recorded)
  obtain ⟨hdefinition, hrecorded, -⟩ :=
    record_run (clock (i + 7)) hmigrationsDefinition hrecording fun v hv => hv
  have h₀ : createSchemaMigrations.run (clock i) d = some d := run_create_existing hmigrations
  have h₁ : createUsers.run (clock (i + 1)) d = some d₁ := run_create_new false h.users rfl
  have h₂ : insertLegacySystem.run (clock (i + 2)) d₁ = some d₂ := run_insertLegacySystem rfl
  have h₃ : addOwnerId.run (clock (i + 3)) d₂ = some d₃ :=
    run_addOwnerId hlinksDefinition hvalid hlinks
  have h₄ : setOwnerId.run (clock (i + 4)) d₃ = some d₄ :=
    run_setOwnerId hlinksDefinition hvalid rfl rfl
  have h₅ : requireOwnerId.run (clock (i + 5)) d₄ = some d₅ :=
    run_requireOwnerId hlinksDefinition hvalid rfl rfl
  have h₆ : (Statement.createTable false .userSessions userSessions).run (clock (i + 6)) d₅ =
      some d₆ := run_create_new false h.userSessions rfl
  have h₇ : insertVersions.run (clock (i + 7)) d₆ = some d₇ := by
    have hkept : d₆ .schemaMigrations = some migrations := hmigrations
    apply run_insert hkept
    · exact List.foldl_map
    · exact hrecorded.valid hdefinition
  refine ⟨d₇, ?_, ?_⟩
  · rw [migration005, runAll_cons h₀, runAll_cons h₁, runAll_cons h₂, runAll_cons h₃,
      runAll_cons h₄, runAll_cons h₅, runAll_cons h₆, runAll_cons h₇, runAll]
  · refine ⟨⟨clock (i + 4), links.nextId, ?_⟩, ⟨recorded, rfl, hdefinition, ?_⟩, ⟨_, rfl⟩, rfl, ?_⟩
    · rw [rowsOf, hlinks]
      rfl
    · exact record_all _ hmigrationsDefinition hrecording
    · intro table htable
      simp only [List.mem_cons, List.not_mem_nil, or_false, not_or] at htable
      obtain ⟨hmigrationsNe, hlinksNe, husersNe, hsessionsNe⟩ := htable
      simp only [d₇, d₆, d₅, d₄, d₃, d₂, d₁, Function.update_of_ne hmigrationsNe,
        Function.update_of_ne hlinksNe, Function.update_of_ne husersNe,
        Function.update_of_ne hsessionsNe]

section Upgraded

variable {d d' : Database}

theorem Upgraded.count_version5 (h : Upgraded d d') :
    count d' .schemaMigrations (fun row => row .version == .int 5) = 1 := by
  obtain ⟨t, ht, -, hperm⟩ := h.migrations
  have hcount := hperm.countP_eq fun v => v.1 == .int 5
  rw [List.countP_map] at hcount
  rw [count, rowsOf, ht]
  exact hcount

theorem Upgraded.accepted (h : Upgraded d d') : validateV2Schema d' = true := by
  obtain ⟨now, n, hlinks⟩ := h.links
  obtain ⟨t, ht, -, hperm⟩ := h.migrations
  obtain ⟨before, husers⟩ := h.users
  have hhistory : history d' = versions := by
    apply history_eq
    rw [rowsOf, ht]
    exact hperm
  have hlegacy : count d' .users isLegacySystem = 1 := by
    rw [count, rowsOf, husers]
    rfl
  have howned : count d' .shortLinks (fun row => row .ownerId == .null) = 0 := by
    rw [count, rowsOf, hlinks, List.countP_eq_zero]
    intro row hrow
    obtain ⟨old, -, rfl⟩ := List.mem_map.mp hrow
    exact Bool.false_ne_true
  simp only [validateV2Schema, hhistory, hlegacy, howned, tableExists, columnExists, husers, hlinks,
    h.userSessions]
  rfl

theorem Upgraded.preserved (h : Upgraded d d') : Preserved d d' := by
  obtain ⟨now, n, hlinks⟩ := h.links
  obtain ⟨before, husers⟩ := h.users
  refine ⟨legacySystem before, ?_, isLegacySystem_legacySystem, ?_⟩
  · simp [rowsOf, husers]
  · have hrows : rowsOf d' .shortLinks = (rowsOf d .shortLinks).map (owned now) := by
      rw [rowsOf, hlinks]
      rfl
    rw [hrows, List.forall₂_map_right_iff, List.forall₂_same]
    intro row _
    refine ⟨rfl, fun c hc => ?_⟩
    simp only [List.mem_cons, List.not_mem_nil, or_false] at hc
    rcases hc with rfl | rfl | rfl | rfl | rfl | rfl <;> rfl

theorem Upgraded.completed (h : Upgraded d d') (hstatistics : ∀ table ∉
      [Name.schemaMigrations, .shortLinks, .users, .userSessions],
      (d table).map Table.definition = statistics table) : Completed d d' where
  schema := by
    obtain ⟨now, n, hlinks⟩ := h.links
    obtain ⟨t, ht, hdefinition, -⟩ := h.migrations
    obtain ⟨before, husers⟩ := h.users
    intro table
    by_cases hother : table ∈ [Name.schemaMigrations, .shortLinks, .users, .userSessions]
    · simp only [List.mem_cons, List.not_mem_nil, or_false] at hother
      rcases hother with rfl | rfl | rfl | rfl
      · rw [ht, Option.map_some, hdefinition]
        rfl
      · rw [hlinks]
        rfl
      · rw [husers]
        rfl
      · rw [h.userSessions]
        rfl
    · rw [h.others table hother, hstatistics table hother]
      revert hother
      cases table <;> decide
  accepted := h.accepted
  preserved := h.preserved

end Upgraded

section SupportedV19

variable {d : Database}

theorem SupportedV19.definition (h : SupportedV19 d) (table : Name)
    {definition : Definition Name ColumnType} (hne : table ≠ .schemaMigrations)
    (hversion : version19 table = some definition) :
    ∃ t, d table = some t ∧ t.definition = definition := by
  have htable := h.tables table hne
  rw [hversion] at htable
  obtain ⟨t, ht, hdefinition⟩ := Option.map_eq_some_iff.mp htable
  exact ⟨t, ht, hdefinition⟩

theorem SupportedV19.missing (h : SupportedV19 d) {table : Name} (hne : table ≠ .schemaMigrations)
    (hversion : version19 table = none) : d table = none := by
  have htable := h.tables table hne
  rw [hversion] at htable
  exact Option.map_eq_none_iff.mp htable

/-- The only statement of the script in front of migration 005. -/
theorem SupportedV19.created (h : SupportedV19 d) (now : ℤ) :
    ∃ d', createSchemaMigrations.run now d = some d' ∧ SupportedV19 d' ∧
      (d' .schemaMigrations).isSome = true ∧ rowsOf d' .shortLinks = rowsOf d .shortLinks := by
  cases hmigrations : d .schemaMigrations with
  | some t =>
    refine ⟨d, run_create_existing hmigrations, h, ?_, rfl⟩
    rw [hmigrations]
    rfl
  | none =>
    refine ⟨_, run_create_new true hmigrations rfl, ⟨?_, ?_, ?_⟩, ?_, rfl⟩
    · intro table hne
      rw [Function.update_of_ne hne]
      exact h.tables table hne
    · intro t ht
      rw [Function.update_of_ne (by decide)] at ht
      apply (h.links t ht).of_no_references
      obtain ⟨links, hlinks, hdefinition⟩ := h.definition .shortLinks (by decide) rfl
      rw [Option.some.inj (ht.symm.trans hlinks), hdefinition]
      rfl
    · intro t ht
      rw [Function.update_self] at ht
      obtain rfl := Option.some.inj ht
      exact ⟨rfl, valid_of_no_rows rfl, by simp⟩
    · rw [Function.update_self]
      rfl

theorem SupportedV19.upgradable (h : SupportedV19 d)
    (hcreated : (d .schemaMigrations).isSome = true) : Upgradable d where
  links := by
    obtain ⟨links, hlinks, hdefinition⟩ := h.definition .shortLinks (by decide) rfl
    exact ⟨links, hlinks, hdefinition, h.links links hlinks⟩
  migrations := by
    obtain ⟨t, ht⟩ := Option.isSome_iff_exists.mp hcreated
    obtain ⟨hdefinition, hvalid, hknown⟩ := h.migrations t ht
    refine ⟨t, ht, hdefinition, Recording.of_valid hvalid hdefinition ?_⟩
    intro row hrow
    exact List.mem_of_mem_take (hknown row hrow)
  users := h.missing (by decide) rfl
  userSessions := h.missing (by decide) rfl

theorem SupportedV19.count_version5 (h : SupportedV19 d) :
    count d .schemaMigrations (fun row => row .version == .int 5) = 0 := by
  cases hmigrations : d .schemaMigrations with
  | none =>
    rw [count, rowsOf, hmigrations]
    rfl
  | some t =>
    rw [count, rowsOf, hmigrations, List.countP_eq_zero]
    intro row hrow
    have hearly : ∀ v ∈ versions.take 4, ¬ (v.1 == .int 5) = true := by decide
    exact hearly _ ((h.migrations t hmigrations).2.2 row hrow)

theorem SupportedV19.completed {d' : Database} (h : SupportedV19 d) (hupgraded : Upgraded d d') :
    Completed d d' := by
  apply hupgraded.completed
  intro table htable
  simp only [List.mem_cons, List.not_mem_nil, or_false, not_or] at htable
  obtain ⟨hmigrationsNe, hlinksNe, -, -⟩ := htable
  rw [h.tables table hmigrationsNe]
  revert hlinksNe
  cases table <;> decide

end SupportedV19

end SchemaUpgrades
