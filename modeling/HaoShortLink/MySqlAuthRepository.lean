import HaoShortLink.AuthRepositories

/-! MySqlAuthRepository.cpp on the tables users and user_sessions, where the statement that inserts
a session may fail. -/
namespace MySqlAuthRepository

open Cpp AuthRepositories

structure UserRow where
  id : ℕ
  username : Bytes
  usernameNormalized : Bytes
  passwordHash : Bytes
  status : UserStatus
  createdAt : ℤ
  updatedAt : ℤ
  deriving DecidableEq, Repr

structure SessionRow where
  tokenHash : Bytes
  userId : ℕ
  expiresAt : ℤ
  revokedAt : Option ℤ
  deriving DecidableEq, Repr

structure Tables where
  users : List UserRow
  sessions : List SessionRow
  /-- The AUTO_INCREMENT counter of users. -/
  nextId : ℕ
  /-- What the next INSERTs into user_sessions throw, if anything. -/
  faults : ℕ → Option Exception

def UserRow.user (row : UserRow) : User :=
  ⟨row.id, row.username, row.status, row.createdAt, row.updatedAt⟩

def named (t : Tables) (normalizedUsername : Bytes) : Option UserRow :=
  t.users.find? (·.usernameNormalized == normalizedUsername)

/-- uk_users_username_normalized refuses a name that is there, which is answered as a conflict. -/
def createUser (username normalizedUsername passwordHash : Bytes) (now : ℤ) (t : Tables) :
    Except Exception CreateUserResult × Tables :=
  if (named t normalizedUsername).isSome then
    (.ok ⟨.conflict, none⟩, { t with nextId := t.nextId + 1 })
  else
    let row : UserRow := ⟨t.nextId, username, normalizedUsername, passwordHash, .active, now, now⟩
    (.ok ⟨.created, some row.user⟩, { t with users := t.users ++ [row], nextId := t.nextId + 1 })

def findCredentials (normalizedUsername : Bytes) (t : Tables) :
    Except Exception (Option Credentials) :=
  .ok ((named t normalizedUsername).map fun row => ⟨row.user, row.passwordHash⟩)

def duplicateEntry : Exception := .runtimeError (ascii "Duplicate entry")

def createSession (userId : ℕ) (tokenHash : Bytes) (expiresAt : ℤ) (t : Tables) :
    Except Exception Unit × Tables :=
  let t' := { t with faults := fun n => t.faults (n + 1) }
  match t.faults 0 with
  | some e => (.error e, t')
  | none =>
    if t.sessions.any (·.tokenHash == tokenHash) then (.error duplicateEntry, t')
    else (.ok (), { t' with sessions := t.sessions ++ [⟨tokenHash, userId, expiresAt, none⟩] })

def findUserBySession (tokenHash : Bytes) (nowEpochSeconds : ℤ) (t : Tables) :
    Except Exception (Option User) :=
  .ok ((t.sessions.find? fun session => session.tokenHash == tokenHash &&
    session.revokedAt.isNone && decide (nowEpochSeconds < session.expiresAt)).bind fun session =>
      (t.users.find? fun row => row.id == session.userId && row.status == .active).map UserRow.user)

def revokeSession (tokenHash : Bytes) (revokedAt : ℤ) (t : Tables) :
    Except Exception Unit × Tables :=
  (.ok (), { t with sessions := t.sessions.map fun session =>
    if session.tokenHash = tokenHash ∧ session.revokedAt = none
    then { session with revokedAt := some revokedAt } else session })

def repository : AuthRepository Tables where
  createUser := createUser
  findCredentials := findCredentials
  createSession := createSession
  findUserBySession := findUserBySession
  revokeSession := revokeSession

theorem createUser_conflict {t : Tables} {name : Bytes} (h : (named t name).isSome = true)
    (username passwordHash : Bytes) (now : ℤ) : createUser username name passwordHash now t =
      (.ok ⟨.conflict, none⟩, { t with nextId := t.nextId + 1 }) := if_pos h

theorem createUser_created {t : Tables} {name : Bytes} (h : ¬ (named t name).isSome = true)
    (username passwordHash : Bytes) (now : ℤ) :
    ∃ row : UserRow, row.usernameNormalized = name ∧
      createUser username name passwordHash now t = (.ok ⟨.created, some row.user⟩,
        { t with users := t.users ++ [row], nextId := t.nextId + 1 }) :=
  ⟨_, rfl, if_neg h⟩

theorem createSession_users (userId : ℕ) (tokenHash : Bytes) (expiresAt : ℤ) (t : Tables) :
    (createSession userId tokenHash expiresAt t).2.users = t.users := by
  unfold createSession
  dsimp only
  cases t.faults 0 with
  | some e => rfl
  | none =>
    dsimp only
    split <;> rfl

end MySqlAuthRepository
