import HaoShortLink.AuthRepositories
import HaoShortLink.CallTraces
import HaoShortLink.CreateTransactions

/-! Which errors of the database are reported as conflicts: by MySqlShortLinkRepository::create for
a custom code, and by MySqlAuthRepository::createUser. Both search the text of the exception. -/
namespace ConflictReports

open Cpp AuthRepositories Program SqlSessions CallTraces CreateTransactions
open MySqlRepository (isDuplicate)

/-- The columns that the SELECT of createUser names. -/
structure UserColumns where
  id : ℕ
  username : Bytes
  status : Bytes
  createdAt : ℤ
  updatedAt : ℤ
  deriving DecidableEq, Repr

inductive UserCall where
  | getConnection
  | insertUser (username normalizedUsername passwordHash : Bytes)
  | selectUser
  /-- A read of a result that the client already has. -/
  | fetch
  | release
  deriving DecidableEq, Repr

@[reducible] def UserCall.Reply : UserCall → Type
  | .selectUser => Option UserColumns
  | _ => Unit

abbrev UserClient := Client UserCall UserCall.Reply Thrown

def parseUserStatus (status : Bytes) : Option UserStatus :=
  if status = ascii "active" then some .active
  else if status = ascii "disabled" then some .disabled
  else none

def readUser (row : UserColumns) : UserClient User := do
  let () ← call UserCall.fetch
  match parseUserStatus row.status with
  | none => throw (runtimeError "Unknown user status")
  | some status => pure ⟨row.id, row.username, status, row.createdAt, row.updatedAt⟩

def createUserBody (username normalizedUsername passwordHash : Bytes) :
    UserClient CreateUserResult := do
  let () ← call (UserCall.insertUser username normalizedUsername passwordHash)
  let result : Option UserColumns ← call UserCall.selectUser
  let () ← call UserCall.fetch
  match result with
  | none => throw (runtimeError "Failed to read created user")
  | some row =>
    let user ← readUser row
    pure ⟨.created, some user⟩

def isDuplicateError (error : Thrown) : Bool := (what error).any isDuplicate

/-- The connection goes back to the pool before the handler runs. -/
def createUser (username normalizedUsername passwordHash : Bytes) : UserClient CreateUserResult :=
  tryCatch
    (do
      let () ← call UserCall.getConnection
      ensuring (createUserBody username normalizedUsername passwordHash) (call UserCall.release))
    fun error => if isDuplicateError error then pure ⟨.conflict, none⟩ else throw error

theorem readUser_handsOn (row : UserColumns) : HandsOn (readUser row) := by
  refine handsOn_bind (handsOn_call _) fun _ => ?_
  cases parseUserStatus row.status with
  | none => exact handsOn_throw _
  | some status => exact handsOn_pure _

theorem createUserBody_handsOn (username normalizedUsername passwordHash : Bytes) :
    HandsOn (createUserBody username normalizedUsername passwordHash) := by
  refine handsOn_bind (handsOn_call _) fun _ => ?_
  refine handsOn_bind (handsOn_call _) fun result => ?_
  refine handsOn_bind (handsOn_call _) fun _ => ?_
  cases result with
  | none => exact handsOn_throw _
  | some row => exact handsOn_bind (readUser_handsOn row) fun _ => handsOn_pure _

theorem readRecord_handsOn (row : MySqlShortLinks.LinkRow) : HandsOn (readRecord row) := by
  refine handsOn_bind (handsOn_call _) fun _ => ?_
  cases recordIn row with
  | none => exact handsOn_throw _
  | some record => exact handsOn_pure _

theorem readBack_handsOn (conn id : ℕ) : HandsOn (readBack conn id) := by
  refine handsOn_bind (handsOn_call _) fun result => ?_
  refine handsOn_bind (handsOn_call _) fun _ => ?_
  cases result with
  | none => exact handsOn_throw _
  | some row =>
    refine handsOn_bind (readRecord_handsOn row) fun record => ?_
    exact handsOn_bind (handsOn_call _) fun _ => handsOn_pure _

theorem createBody_handsOn (conn : ℕ) (request : CreateRequest) :
    HandsOn (createBody conn request) := by
  refine handsOn_bind (handsOn_call _) fun _ => ?_
  refine handsOn_bind (handsOn_call _) fun _ => ?_
  refine handsOn_bind (handsOn_call _) fun result => ?_
  refine handsOn_bind (handsOn_call _) fun _ => ?_
  cases result with
  | none => exact handsOn_throw _
  | some id =>
    cases request.customCode.isNone with
    | true =>
      simp only [if_true]
      exact handsOn_bind (handsOn_call _) fun _ => readBack_handsOn conn id
    | false =>
      simp only [Bool.false_eq_true, if_false]
      exact readBack_handsOn conn id

abbrev CreateTrace :=
  Trace fun op : SqlOp ℕ CreateRequest Bytes => Except Thrown (op.Reply MySqlShortLinks.LinkRow)

abbrev UserTrace := Trace fun op : UserCall => Except Thrown op.Reply

def rethrown (request : CreateRequest) (e : Thrown) : Thrown :=
  if request.customCode.isSome && isDuplicateError e then .repository .shortCodeConflict else e

section Runs

variable {request : CreateRequest} {e : Thrown}

theorem rethrow_eq {α : Type} (request : CreateRequest) (e : Thrown) :
    (rethrow request e : CreateClient α) = throw (rethrown request e) := by
  unfold rethrow rethrown isDuplicateError
  split
  · rfl
  · rfl

theorem yields_rethrow {α : Type} {l : CreateTrace} {r : Except Thrown α}
    (h : Yields (rethrow request e : CreateClient α).run l r) :
    l = [] ∧ r = .error (rethrown request e) := by
  rw [rethrow_eq] at h
  exact h

theorem yields_handler {conn : ℕ} {l : CreateTrace} {r : Except Thrown ShortLinks.ShortLinkRecord}
    (h : Yields (do tryCatch (rollback conn) fun _ => pure ()
                    rethrow request e : CreateClient ShortLinks.ShortLinkRecord).run l r) :
    (∃ answer, l = [⟨.rollback conn, answer⟩]) ∧ r = .error (rethrown request e) := by
  have hquiet : ∀ {l : CreateTrace} {r : Except Thrown Unit},
      Yields (tryCatch (rollback conn) fun _ => pure () : CreateClient Unit).run l r →
        (∃ answer, l = [⟨.rollback conn, answer⟩]) ∧ r = .ok () := by
    intro l r h
    rcases yields_catch.mp h with ⟨_, hrollback, rfl⟩ | ⟨_, l₁, l₂, rfl, hrollback, rfl, rfl⟩
    · exact ⟨⟨_, yields_call.mp hrollback⟩, rfl⟩
    · exact ⟨⟨_, by rw [List.append_nil]; exact yields_call.mp hrollback⟩, rfl⟩
  rcases yields_client_bind.mp h with ⟨_, h₁, _⟩ | ⟨_, l₁, l₂, rfl, h₁, h₂⟩
  · cases (hquiet h₁).2
  · obtain ⟨rfl, rfl⟩ := yields_rethrow h₂
    rw [List.append_nil]
    exact ⟨(hquiet h₁).1, rfl⟩

theorem acquire_raises {l : CreateTrace} {r : Except Thrown ℕ} {op : SqlOp ℕ CreateRequest Bytes}
    (h : Yields (tryCatch acquire (rethrow request) : CreateClient ℕ).run l r)
    (hraised : Raised l op e) : r = .error (rethrown request e) := by
  rcases yields_catch.mp h with ⟨_, hcall, rfl⟩ | ⟨_, l₁, l₂, rfl, hcall, hhandler⟩
  · cases (raised_call hcall hraised).2
  · obtain ⟨rfl, rfl⟩ := yields_rethrow hhandler
    rw [List.append_nil] at hraised
    cases (raised_call hcall hraised).2
    rfl

/-- A caller of create sees the exception that a call raised, unless it is taken for a
conflict. -/
theorem create_raises {l : CreateTrace} {r : Except Thrown ShortLinks.ShortLinkRecord}
    {op : SqlOp ℕ CreateRequest Bytes} (h : Yields (create request).run l r) (hop : op.Refusable)
    (hraised : Raised l op e) : r = .error (rethrown request e) := by
  rcases yields_client_bind.mp h with ⟨e₁, hacquire, rfl⟩ | ⟨conn, l₁, _, rfl, hacquire, hrest⟩
  · cases acquire_raises hacquire hraised
    rfl
  obtain ⟨l₂, l₃, _, rfl, hcaught, hrelease⟩ := yields_ensuring.mp hrest
  rcases raised_append.mp hraised with hraised | hraised
  · cases acquire_raises hacquire hraised
  rcases raised_append.mp hraised with hraised | hraised
  · rcases yields_catch.mp hcaught with ⟨_, hbody, rfl⟩ | ⟨_, l₄, l₅, rfl, hbody, hhandler⟩
    · cases createBody_handsOn conn request _ _ op e hbody hraised
    · obtain ⟨⟨answer, rfl⟩, rfl⟩ := yields_handler hhandler
      rcases raised_append.mp hraised with hraised | hraised
      · cases createBody_handsOn conn request _ _ op e hbody hraised
        rfl
      · cases List.mem_singleton.mp hraised
        exact hop.elim
  · obtain ⟨rfl, _⟩ := raised_call hrelease hraised
    exact hop.elim

section Users

variable {username normalizedUsername passwordHash : Bytes} {l : UserTrace}
  {r : Except Thrown CreateUserResult} {op : UserCall}

theorem connected_raises (h : Yields (do
      let () ← call UserCall.getConnection
      ensuring (createUserBody username normalizedUsername passwordHash)
        (call UserCall.release) : UserClient CreateUserResult).run l r)
    (hop : op ≠ .release) (hraised : Raised l op e) : r = .error e := by
  rcases yields_client_bind.mp h with ⟨e₁, hconn, rfl⟩ | ⟨_, l₁, _, rfl, hconn, hrest⟩
  · cases (raised_call hconn hraised).2
    rfl
  obtain ⟨l₂, l₃, _, rfl, hbody, hrelease⟩ := yields_ensuring.mp hrest
  rcases raised_append.mp hraised with hraised | hraised
  · cases (raised_call hconn hraised).2
  rcases raised_append.mp hraised with hraised | hraised
  · exact createUserBody_handsOn _ _ _ _ _ op e hbody hraised
  · exact absurd (raised_call hrelease hraised).1 hop

theorem createUser_raises
    (h : Yields (createUser username normalizedUsername passwordHash).run l r)
    (hop : op ≠ .release) (hraised : Raised l op e) :
    r = if isDuplicateError e then .ok ⟨.conflict, none⟩ else .error e := by
  rcases yields_catch.mp h with ⟨_, hbody, rfl⟩ | ⟨e₁, l₁, l₂, rfl, hbody, hhandler⟩
  · cases connected_raises hbody hop hraised
  have hanswer : l₂ = [] ∧
      r = if isDuplicateError e₁ then .ok ⟨.conflict, none⟩ else .error e₁ := by
    split
    · rename_i hduplicate
      rw [if_pos hduplicate] at hhandler
      exact hhandler
    · rename_i hduplicate
      rw [if_neg hduplicate] at hhandler
      exact hhandler
  obtain ⟨rfl, rfl⟩ := hanswer
  rw [List.append_nil] at hraised
  cases connected_raises hbody hop hraised
  rfl

end Users

end Runs

/-- The violation of the key that the insert asks about, or an error whose text has nothing of
one. -/
def Recognised (error : DbError) : Prop :=
  error.violation = true ∨ isDuplicate error.message = false

theorem isDuplicateError_iff (error : DbError) :
    (isDuplicateError (.database error) = true ↔ error.violation = true) ↔ Recognised error := by
  have hviolation : error.violation = true → isDuplicate error.message = true := fun h =>
    Bool.or_eq_true_iff.mpr (.inl (error.named h))
  change (isDuplicate error.message = true ↔ _) ↔ _
  unfold Recognised
  constructor
  · intro h
    cases hmessage : isDuplicate error.message with
    | true => exact .inl (h.mp hmessage)
    | false => exact .inr rfl
  · rintro (h | h)
    · exact ⟨fun _ => h, hviolation⟩
    · refine ⟨fun hmessage => ?_, hviolation⟩
      rw [h] at hmessage
      cases hmessage

theorem rethrown_eq_conflict {request : CreateRequest} {error : DbError}
    (h : request.customCode.isSome) :
    rethrown request (.database error) = .repository .shortCodeConflict ↔
      isDuplicateError (.database error) = true := by
  unfold rethrown
  by_cases hduplicate : isDuplicateError (.database error) = true
  · simp [h, hduplicate]
  · simp [hduplicate]

def ReportsConflict (r : Except Thrown CreateUserResult) : Prop :=
  ∃ user, r = .ok ⟨.conflict, user⟩

theorem reportsConflict_iff (error : DbError) :
    ReportsConflict (if isDuplicateError (.database error) then .ok ⟨.conflict, none⟩
      else .error (.database error)) ↔ isDuplicateError (.database error) = true := by
  by_cases hduplicate : isDuplicateError (.database error) = true
  · simp [ReportsConflict, hduplicate]
  · simp [ReportsConflict, hduplicate]

/-- An error of the database is reported as a conflict exactly where it is one, unless its text
only looks like a duplicate entry. -/
theorem conflict_reported_iff (error : DbError) :
    (∀ (request : CreateRequest) (l : CreateTrace) (r : Except Thrown ShortLinks.ShortLinkRecord)
        (op : SqlOp ℕ CreateRequest Bytes),
      request.customCode.isSome → Yields (create request).run l r → op.Refusable →
      Raised l op (.database error) →
      ((r = .error (.repository .shortCodeConflict) ↔ error.violation = true) ↔
        Recognised error)) ∧
    ∀ (username normalizedUsername passwordHash : Bytes) (l : UserTrace)
        (r : Except Thrown CreateUserResult) (op : UserCall),
      Yields (createUser username normalizedUsername passwordHash).run l r → op ≠ .release →
      Raised l op (.database error) →
      ((ReportsConflict r ↔ error.violation = true) ↔ Recognised error) := by
  constructor
  · intro request l r op hcustom hrun hop hraised
    rw [create_raises hrun hop hraised, Except.error.injEq, rethrown_eq_conflict hcustom]
    exact isDuplicateError_iff error
  · intro username normalizedUsername passwordHash l r op hrun hop hraised
    rw [createUser_raises hrun hop hraised, reportsConflict_iff]
    exact isDuplicateError_iff error

def demoRequest : CreateRequest := ⟨ascii "https://a", none, 7, some (ascii "abcd")⟩

theorem acquire_refused (e : Thrown) : Yields (create demoRequest).run [⟨.acquire, .error e⟩]
    (.error (rethrown demoRequest e)) := by
  refine ⟨_, _, rfl, ?_⟩
  simp only [rethrow_eq]
  exact ⟨rfl, rfl⟩

theorem insert_refused (e : Thrown) : Yields (create demoRequest).run
    [⟨.acquire, .ok (0 : ℕ)⟩, ⟨.startTransaction 0, .ok ()⟩, ⟨.insert 0 demoRequest, .error e⟩,
      ⟨.rollback 0, .ok ()⟩, ⟨.release 0, .ok ()⟩] (.error (rethrown demoRequest e)) := by
  refine ⟨_, _, rfl, _, _, rfl, _, _, rfl, _, _, rfl, ?_⟩
  simp only [rethrow_eq]
  exact ⟨_, _, rfl, rfl, rfl⟩

theorem insertUser_refused (e : Thrown) : Yields (createUser [] [] []).run
    [⟨.getConnection, .ok ()⟩, ⟨.insertUser [] [] [], .error e⟩, ⟨.release, .ok ()⟩]
    (if isDuplicateError e then .ok ⟨.conflict, none⟩ else .error e) := by
  refine ⟨_, _, rfl, _, _, rfl, _, _, rfl, ?_⟩
  change Yields (if isDuplicateError e then pure ⟨.conflict, none⟩ else throw e :
    UserClient CreateUserResult).run [] _
  split
  · exact ⟨rfl, rfl⟩
  · exact ⟨rfl, rfl⟩

def taken : DbError :=
  ⟨ascii "Duplicate entry 'abcd'", true, fun _ => by decide⟩

/-- The digits of the error number are part of a port. -/
def unreachable : DbError :=
  ⟨ascii "Can't connect to MySQL server on 'db:11062' (111)", false, by simp⟩

theorem conflict_reported_iff_taken :
    (Except.error (rethrown demoRequest (.database taken)) =
        (.error (.repository .shortCodeConflict) : Except Thrown ShortLinks.ShortLinkRecord) ↔
      taken.violation = true) ∧
    (ReportsConflict (if isDuplicateError (.database taken) then .ok ⟨.conflict, none⟩
      else .error (.database taken)) ↔ taken.violation = true) := by
  constructor
  · exact ((conflict_reported_iff taken).1 demoRequest _ _ (.insert 0 demoRequest) rfl
      (insert_refused (.database taken)) trivial (by simp [Raised])).mpr (.inl rfl)
  · exact ((conflict_reported_iff taken).2 [] [] [] _ _ (.insertUser [] [] [])
      (insertUser_refused (.database taken)) (by simp) (by simp [Raised])).mpr (.inl rfl)

/-- A server that cannot be reached is reported as a code that is taken. -/
theorem unreachable_conflict : ∃ (l : CreateTrace) (error : DbError),
    Raised l .acquire (.database error) ∧ error.violation = false ∧
      Yields (create demoRequest).run l (.error (.repository .shortCodeConflict)) := by
  refine ⟨_, unreachable, List.mem_singleton_self _, rfl, ?_⟩
  have hconflict : rethrown demoRequest (.database unreachable) = .repository .shortCodeConflict :=
    (rethrown_eq_conflict rfl).mpr (by decide)
  rw [← hconflict]
  exact acquire_refused _

end ConflictReports
