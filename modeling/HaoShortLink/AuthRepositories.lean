import HaoShortLink.Cpp
import Mathlib.Data.List.AList
import Mathlib.Data.Option.Basic

/-! Users and sessions: the repository interface (AuthRepository.h) and the in-memory one
(MemoryAuthRepository.cpp). -/
namespace AuthRepositories

open Cpp

inductive UserStatus where
  | active
  | disabled
  deriving DecidableEq, Repr

def userStatusToString : UserStatus → Bytes
  | .active => ascii "active"
  | .disabled => ascii "disabled"

structure User where
  id : ℕ
  username : Bytes
  status : UserStatus
  createdAt : ℤ
  updatedAt : ℤ
  deriving DecidableEq, Repr

structure Credentials where
  user : User
  passwordHash : Bytes
  deriving DecidableEq, Repr

inductive CreateUserStatus where
  | created
  | conflict
  deriving DecidableEq, Repr

structure CreateUserResult where
  status : CreateUserStatus
  user : Option User
  deriving DecidableEq, Repr

/-- A repository over states S; createUser takes the clock reading it may store. -/
structure AuthRepository (S : Type) where
  createUser : (username normalizedUsername passwordHash : Bytes) → (now : ℤ) → S →
    Except Exception CreateUserResult × S
  findCredentials : Bytes → S → Except Exception (Option Credentials)
  createSession : (userId : ℕ) → (tokenHash : Bytes) → (expiresAt : ℤ) → S →
    Except Exception Unit × S
  findUserBySession : (tokenHash : Bytes) → (nowEpochSeconds : ℤ) → S →
    Except Exception (Option User)
  revokeSession : (tokenHash : Bytes) → (revokedAt : ℤ) → S → Except Exception Unit × S

structure StoredUser where
  user : User
  normalizedUsername : Bytes
  passwordHash : Bytes
  deriving DecidableEq, Repr

structure Session where
  userId : ℕ
  expiresAt : ℤ
  revokedAt : Option ℤ
  deriving DecidableEq, Repr

structure MemoryAuthRepository where
  users : AList fun _ : ℕ => StoredUser
  userIdsByName : AList fun _ : Bytes => ℕ
  sessions : AList fun _ : Bytes => Session
  nextUserId : ℕ

namespace MemoryAuthRepository

def empty : MemoryAuthRepository := ⟨∅, ∅, ∅, 1⟩

def createUser (username normalizedUsername passwordHash : Bytes) (now : ℤ)
    (r : MemoryAuthRepository) : CreateUserResult × MemoryAuthRepository :=
  if normalizedUsername ∈ r.userIdsByName then (⟨.conflict, none⟩, r)
  else
    let user : User := ⟨r.nextUserId, username, .active, now, now⟩
    (⟨.created, some user⟩,
      { r with
        nextUserId := (r.nextUserId + 1) % 2 ^ 64
        users := r.users.insert user.id ⟨user, normalizedUsername, passwordHash⟩
        userIdsByName := r.userIdsByName.insert normalizedUsername user.id })

def findCredentials (normalizedUsername : Bytes) (r : MemoryAuthRepository) : Option Credentials :=
  ((r.userIdsByName.lookup normalizedUsername).bind r.users.lookup).map fun stored =>
    ⟨stored.user, stored.passwordHash⟩

def createSession (userId : ℕ) (tokenHash : Bytes) (expiresAt : ℤ) (r : MemoryAuthRepository) :
    MemoryAuthRepository :=
  { r with sessions := r.sessions.insert tokenHash ⟨userId, expiresAt, none⟩ }

def findUserBySession (tokenHash : Bytes) (nowEpochSeconds : ℤ) (r : MemoryAuthRepository) :
    Option User := do
  let session ← r.sessions.lookup tokenHash
  guard (session.revokedAt = none ∧ nowEpochSeconds < session.expiresAt)
  let stored ← r.users.lookup session.userId
  guard (stored.user.status = .active)
  pure stored.user

def revokeSession (tokenHash : Bytes) (revokedAt : ℤ) (r : MemoryAuthRepository) :
    MemoryAuthRepository :=
  match r.sessions.lookup tokenHash with
  | none => r
  | some session =>
    { r with sessions := r.sessions.insert tokenHash { session with revokedAt := some revokedAt } }

/-- None of its methods throws. -/
def repository : AuthRepository MemoryAuthRepository where
  createUser username normalizedUsername passwordHash now r :=
    let (result, r) := createUser username normalizedUsername passwordHash now r
    (.ok result, r)
  findCredentials normalizedUsername r := .ok (findCredentials normalizedUsername r)
  createSession userId tokenHash expiresAt r := (.ok (), createSession userId tokenHash expiresAt r)
  findUserBySession tokenHash now r := .ok (findUserBySession tokenHash now r)
  revokeSession tokenHash revokedAt r := (.ok (), revokeSession tokenHash revokedAt r)

theorem createUser_cases (username normalizedUsername passwordHash : Bytes) (now : ℤ)
    (r : MemoryAuthRepository) :
    createUser username normalizedUsername passwordHash now r = (⟨.conflict, none⟩, r) ∨
      ∃ user r', createUser username normalizedUsername passwordHash now r =
          (⟨.created, some user⟩, r') ∧
        user = ⟨r.nextUserId, username, .active, now, now⟩ ∧
        r'.users = r.users.insert user.id ⟨user, normalizedUsername, passwordHash⟩ ∧
        r'.sessions = r.sessions ∧ r'.nextUserId = (r.nextUserId + 1) % 2 ^ 64 := by
  by_cases hname : normalizedUsername ∈ r.userIdsByName
  · exact .inl (if_pos hname)
  · exact .inr ⟨_, _, if_neg hname, rfl, rfl, rfl, rfl⟩

end MemoryAuthRepository

end AuthRepositories
