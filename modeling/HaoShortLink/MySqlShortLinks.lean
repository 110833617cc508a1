import HaoShortLink.ShortLinks
import HaoShortLink.StatisticsSchema

/-! Updates of links in MySQL (MySqlShortLinkRepository.cpp): short_links after migration 005, and
the calls that updateLifecycle makes, none of them in an explicit transaction. -/
namespace MySqlShortLinks

open Cpp ShortLinks Program
open StatisticsSchema (sameCode)

/-- Times are in seconds since 1970. -/
structure LinkRow where
  id : ℕ
  ownerId : ℕ
  code : Option Bytes
  originalUrl : Bytes
  status : Bytes
  expiresAt : Option ℤ
  createdAt : ℤ
  updatedAt : ℤ
  deriving DecidableEq, Repr

/-- Two rows with their ids and codes: the primary key, and uk_short_links_code. -/
def Distinct (a b : LinkRow) : Prop :=
  a.id ≠ b.id ∧ ∀ c d, a.code = some c → b.code = some d → sameCode c d = false

structure LinksTable where
  rows : List LinkRow
  distinct : rows.Pairwise Distinct

/-- The SET of an UPDATE: a column that it leaves alone, or the new value of it. -/
structure Assignments where
  status : Option Bytes
  expiresAt : Option (Option ℤ)
  deriving DecidableEq, Repr

/-- updated_at follows where another column changes. -/
def Assignments.apply (set : Assignments) (now : ℤ) (row : LinkRow) : LinkRow :=
  let changed := { row with
    status := set.status.getD row.status
    expiresAt := set.expiresAt.getD row.expiresAt }
  if changed = row then row else { changed with updatedAt := now }

/-- code = ? -/
def LinkRow.hasCode (row : LinkRow) (code : Bytes) : Bool := row.code.any (sameCode · code)

/-- code = ? AND (? = 0 OR owner_id = ?) -/
def LinkRow.selected (row : LinkRow) (code : Bytes) (ownerId : ℕ) : Bool :=
  row.hasCode code && (ownerId == 0 || row.ownerId == ownerId)

theorem apply_id (set : Assignments) (now : ℤ) (row : LinkRow) :
    (set.apply now row).id = row.id := by
  simp only [Assignments.apply]
  split <;> rfl

theorem apply_ownerId (set : Assignments) (now : ℤ) (row : LinkRow) :
    (set.apply now row).ownerId = row.ownerId := by
  simp only [Assignments.apply]
  split <;> rfl

theorem apply_code (set : Assignments) (now : ℤ) (row : LinkRow) :
    (set.apply now row).code = row.code := by
  simp only [Assignments.apply]
  split <;> rfl

namespace LinksTable

def rowOf (t : LinksTable) (code : Bytes) : Option LinkRow := t.rows.find? (·.hasCode code)

def updateRow (set : Assignments) (now : ℤ) (code : Bytes) (ownerId : ℕ) (row : LinkRow) :
    LinkRow :=
  if row.selected code ownerId then set.apply now row else row

theorem updateRow_keeps (set : Assignments) (now : ℤ) (code : Bytes) (ownerId : ℕ)
    (row : LinkRow) : (updateRow set now code ownerId row).id = row.id ∧
      (updateRow set now code ownerId row).code = row.code := by
  rw [updateRow]
  split
  · exact ⟨apply_id set now row, apply_code set now row⟩
  · exact ⟨rfl, rfl⟩

def update (t : LinksTable) (set : Assignments) (now : ℤ) (code : Bytes) (ownerId : ℕ) :
    LinksTable where
  rows := t.rows.map (updateRow set now code ownerId)
  distinct := by
    refine List.pairwise_map.mpr (t.distinct.imp fun {a b} h => ?_)
    obtain ⟨hida, hcodea⟩ := updateRow_keeps set now code ownerId a
    obtain ⟨hidb, hcodeb⟩ := updateRow_keeps set now code ownerId b
    rw [Distinct, hida, hidb, hcodea, hcodeb]
    exact h

/-- The owner counts where one is given. -/
theorem rowOf_update (t : LinksTable) (set : Assignments) (now : ℤ) (code : Bytes)
    (ownerId : ℕ) :
    (t.update set now code ownerId).rowOf code =
      (t.rowOf code).map (updateRow set now code ownerId) := by
  have hsame : (fun row : LinkRow => row.hasCode code) ∘ updateRow set now code ownerId =
      fun row => row.hasCode code := by
    funext row
    simp only [Function.comp_apply, LinkRow.hasCode, (updateRow_keeps set now code ownerId row).2]
  rw [rowOf, update, List.find?_map, hsame, rowOf]

/-- SELECT … WHERE code = ? AND (? = 0 OR owner_id = ?) LIMIT 1 -/
def selectByCode (t : LinksTable) (code : Bytes) (ownerId : ℕ) : Option LinkRow :=
  t.rows.find? (·.selected code ownerId)

theorem hasCode_unique (t : LinksTable) {a b : LinkRow} {code : Bytes} (ha : a ∈ t.rows)
    (hb : b ∈ t.rows) (hac : a.hasCode code) (hbc : b.hasCode code) : a = b := by
  by_contra hne
  obtain ⟨c, hc, hcode⟩ := (Option.any_eq_true _ _).mp hac
  obtain ⟨d, hd, hcode'⟩ := (Option.any_eq_true _ _).mp hbc
  have hsymm : Std.Symm Distinct := ⟨fun x y hxy => ⟨hxy.1.symm, fun c d hc hd => by
    rw [StatisticsSchema.ShortLinksTable.sameCode_comm]
    exact hxy.2 d c hd hc⟩⟩
  have hdistinct := (t.distinct.forall ha hb hne).2 c d hc hd
  simp only [sameCode, beq_iff_eq, beq_eq_false_iff_ne] at hcode hcode' hdistinct
  exact hdistinct (hcode.trans hcode'.symm)

theorem selectByCode_eq (t : LinksTable) (code : Bytes) (ownerId : ℕ) :
    t.selectByCode code ownerId =
      (t.rowOf code).filter fun row => ownerId == 0 || row.ownerId == ownerId := by
  have hcode : ∀ {row : LinkRow}, row.selected code ownerId → row.hasCode code := fun h =>
    (Bool.and_eq_true_iff.mp h).1
  cases hrow : t.rowOf code with
  | none =>
    refine List.find?_eq_none.mpr fun row hmem hselected => ?_
    exact List.find?_eq_none.mp hrow row hmem (hcode hselected)
  | some row =>
    have hmem := List.mem_of_find?_eq_some hrow
    have hhas := List.find?_some hrow
    have honly : ∀ other ∈ t.rows, other.selected code ownerId → other = row :=
      fun other hother hselected => t.hasCode_unique hother hmem (hcode hselected) hhas
    rw [Option.filter_some]
    by_cases howner : ownerId == 0 || row.ownerId == ownerId
    · rw [if_pos howner]
      have hselected : row.selected code ownerId := Bool.and_eq_true_iff.mpr ⟨hhas, howner⟩
      obtain ⟨found, hfound⟩ := Option.isSome_iff_exists.mp
        (List.find?_isSome (p := (·.selected code ownerId)).mpr ⟨row, hmem, hselected⟩)
      have hfoundSelected : found.selected code ownerId := by
        simpa using List.find?_some hfound
      rw [selectByCode, hfound, honly found (List.mem_of_find?_eq_some hfound) hfoundSelected]
    · rw [if_neg howner]
      refine List.find?_eq_none.mpr fun other hother hselected => howner ?_
      rw [← honly other hother hselected]
      exact (Bool.and_eq_true_iff.mp hselected).2

end LinksTable

inductive Stmt where
  | update (set : Assignments) (code : Bytes) (ownerId : ℕ)
  | selectByCode (code : Bytes) (ownerId : ℕ)
  deriving DecidableEq, Repr

/-- What the code asks of the pool, of a connection and of a result set. -/
inductive DbCall where
  | getConnection
  | execute (s : Stmt)
  | next
  | get
  deriving DecidableEq, Repr

/-- Affected rows, or the row that was selected. -/
@[reducible] def DbCall.Reply : DbCall → Type
  | .execute (.update ..) => ℕ
  | .execute (.selectByCode ..) => Option LinkRow
  | _ => Unit

abbrev LinkClient := Client DbCall DbCall.Reply RepositoryException

/-- Each statement commits on its own. DATE_ADD is refused where its result is no DATETIME. -/
def answer (isDatetime : ℤ → Bool) (now : ℤ) :
    (op : DbCall) → LinksTable → Except RepositoryException op.Reply × LinksTable
  | .execute (.update set code ownerId), t =>
    if set.expiresAt.all fun expiresAt => expiresAt.all isDatetime then
      (.ok (t.rows.countP fun row => LinksTable.updateRow set now code ownerId row ≠ row : ℕ),
        t.update set now code ownerId)
    else (.error (.std (.runtimeError (ascii "Datetime function: datetime field overflow"))), t)
  | .execute (.selectByCode code ownerId), t => (.ok (t.selectByCode code ownerId), t)
  | .getConnection, t => (.ok (), t)
  | .next, t => (.ok (), t)
  | .get, t => (.ok (), t)

section Answers

variable {isDatetime : ℤ → Bool} {set : Assignments}

theorem answer_update (now : ℤ) (t : LinksTable) (code : Bytes) (ownerId : ℕ)
    (h : set.expiresAt.all fun expiresAt => expiresAt.all isDatetime) :
    ∃ affected : ℕ, answer isDatetime now (.execute (.update set code ownerId)) t =
      (.ok affected, t.update set now code ownerId) :=
  ⟨_, if_pos h⟩

theorem answer_refused (now : ℤ) (t : LinksTable) (code : Bytes) (ownerId : ℕ)
    (h : ¬ set.expiresAt.all fun expiresAt => expiresAt.all isDatetime) :
    ∃ e, answer isDatetime now (.execute (.update set code ownerId)) t = (.error e, t) :=
  ⟨_, if_neg h⟩

end Answers

def readRecord (row : LinkRow) : LinkClient ShortLinkRecord := do
  let () ← call DbCall.get
  match parseStatus row.status with
  | none => throw (.std (.runtimeError (ascii "Unknown short link status")))
  | some status =>
    pure ⟨row.id, row.ownerId, row.code.getD [], row.originalUrl, status, row.expiresAt,
      row.createdAt, row.updatedAt⟩

/-- The UPDATE of each branch; there is one branch without. -/
def assignments (update : LifecycleUpdate) : Option Assignments :=
  match update.status, update.expiresAtProvided, update.expiresAt with
  | some status, true, some expiresAt => some ⟨some (statusToString status), some (some expiresAt)⟩
  | some status, true, none => some ⟨some (statusToString status), some none⟩
  | some status, false, _ => some ⟨some (statusToString status), none⟩
  | none, true, some expiresAt => some ⟨none, some (some expiresAt)⟩
  | none, true, none => some ⟨none, some none⟩
  | none, false, _ => none

/-- The SELECT after the UPDATE, and the record in it. -/
def readBack (code : Bytes) (ownerId : ℕ) : LinkClient (Option ShortLinkRecord) := do
  let row : Option LinkRow ← call (DbCall.execute (.selectByCode code ownerId))
  let () ← call DbCall.next
  match row with
  | none => pure none
  | some row => some <$> readRecord row

def updateLifecycle (code : Bytes) (update : LifecycleUpdate) :
    LinkClient (Option ShortLinkRecord) := do
  let () ← call DbCall.getConnection
  let ownerId := update.ownerId.getD 0
  match assignments update with
  | none => readBack code ownerId
  | some set =>
    let _ : ℕ ← call (DbCall.execute (.update set code ownerId))
    readBack code ownerId

end MySqlShortLinks
