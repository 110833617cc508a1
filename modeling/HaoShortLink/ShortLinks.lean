import HaoShortLink.Cpp

/-! Short link records and the interface of their repositories (ShortLinkRepository.h). -/
namespace ShortLinks

open Cpp

inductive Status where
  | active
  | disabled
  deriving DecidableEq, Repr

def statusToString : Status → Bytes
  | .active => ascii "active"
  | .disabled => ascii "disabled"

def parseStatus (value : Bytes) : Option Status :=
  if value = ascii "active" then some .active
  else if value = ascii "disabled" then some .disabled
  else none

theorem parseStatus_statusToString (s : Status) : parseStatus (statusToString s) = some s := by
  cases s <;> decide

inductive LookupSource where
  | memory
  | mysql
  | redis
  deriving DecidableEq, Repr

structure ShortLinkRecord where
  id : ℕ
  ownerId : ℕ
  code : Bytes
  originalUrl : Bytes
  status : Status
  expiresAt : Option ℤ
  createdAt : ℤ
  updatedAt : ℤ
  deriving DecidableEq, Repr

structure LookupResult where
  record : Option ShortLinkRecord
  source : LookupSource
  deriving DecidableEq, Repr

structure ListQuery where
  cursor : ℕ
  limit : ℕ
  ownerId : Option ℕ
  status : Option Status
  deriving DecidableEq, Repr

structure LifecycleUpdate where
  status : Option Status
  expiresAtProvided : Bool
  expiresAt : Option ℤ
  ownerId : Option ℕ
  deriving DecidableEq, Repr

inductive RepositoryException where
  | shortCodeConflict
  | std (e : Exception)
  deriving DecidableEq, Repr

/-- A repository over states S. Updates take the clock reading they may store; const methods
leave the state alone by their type. -/
structure ShortLinkRepository (S : Type) where
  create : (originalUrl : Bytes) → (expiresAt : Option ℤ) → (ownerId : ℕ) →
    (customCode : Option Bytes) → (now : ℤ) → S →
    Except RepositoryException (Option ShortLinkRecord) × S
  findByCode : Bytes → S → Except RepositoryException LookupResult
  findByCodeForOwner : Bytes → ℕ → S → Except RepositoryException (Option ShortLinkRecord)
  defaultLookupSource : LookupSource
  list : ListQuery → S → Except RepositoryException (List ShortLinkRecord)
  updateLifecycle : (code : Bytes) → LifecycleUpdate → (now : ℤ) → S →
    Except RepositoryException (Option ShortLinkRecord) × S

end ShortLinks
