import HaoShortLink.ServerStates
import HaoShortLink.ShortCodes

/-! ShortLinkService.cpp: what is checked before the link repository is used. -/
namespace ShortLinkServices

open Cpp Actions ShortLinks ServerStates ServerStates.Server
open ShortCodes (isValidCustomCode)

structure ShortLink where
  record : ShortLinkRecord
  shortUrl : Bytes
  deriving DecidableEq, Repr

inductive RedirectStatus where
  | success
  | notFound
  | disabled
  | expired
  deriving DecidableEq, Repr

structure Redirect where
  status : RedirectStatus
  originalUrl : Option Bytes
  deriving DecidableEq, Repr

def isValidUrl (url : Bytes) : Bool :=
  (ascii "http://").isPrefixOf url || (ascii "https://").isPrefixOf url

def isExpired (record : ShortLinkRecord) (nowEpochSeconds : ℤ) : Bool :=
  record.expiresAt.any (· ≤ nowEpochSeconds)

variable {A L : Type} (api : ShortLinkHttpApi A L)

/-- The clock is read only when there is an expiry to compare with it. -/
def isPast : Option ℤ → Server A L Bool
  | none => pure false
  | some expiresAt => do
    let now ← nowEpochSeconds
    pure (expiresAt ≤ now)

def createShortLink (originalUrl : Bytes) (expiresAt : Option ℤ) (ownerId : ℕ)
    (customCode : Option Bytes) : Server A L (Option ShortLink) :=
  if !isValidUrl originalUrl || ownerId == 0 then pure none
  else do
    let past ← isPast expiresAt
    if past || !customCode.all isValidCustomCode then pure none
    else do
      let now ← nowEpochSeconds
      let record ← updateLinks
        (api.linkRepository.create originalUrl expiresAt ownerId customCode now)
      pure (record.map fun r => ⟨r, ascii "/s/" ++ r.code⟩)

def resolve (code : Bytes) : Server A L Redirect := do
  let lookup ← tryCatch (queryLinks (api.linkRepository.findByCode code)) fun e => do
    record (.redirect .error api.linkRepository.defaultLookupSource)
    throw e
  match lookup.record with
  | none => do
    record (.redirect .notFound lookup.source)
    pure ⟨.notFound, none⟩
  | some link =>
    if link.status = .disabled then do
      record (.redirect .disabled lookup.source)
      pure ⟨.disabled, none⟩
    else do
      let now ← nowEpochSeconds
      if isExpired link now then do
        record (.redirect .expired lookup.source)
        pure ⟨.expired, none⟩
      else do
        record (.redirect .success lookup.source)
        pure ⟨.success, some link.originalUrl⟩

def getForOwner (code : Bytes) (ownerId : ℕ) : Server A L (Option ShortLinkRecord) :=
  queryLinks (api.linkRepository.findByCodeForOwner code ownerId)

def list (query : ListQuery) : Server A L (List ShortLinkRecord) :=
  queryLinks (api.linkRepository.list query)

def updateLifecycle (code : Bytes) (update : LifecycleUpdate) :
    Server A L (Option ShortLinkRecord) := do
  let now ← nowEpochSeconds
  updateLinks (api.linkRepository.updateLifecycle code update now)

theorem resolve_harmless (code : Bytes) : Harmless (resolve api code) := by
  refine .bind (.tryCatch (.queryLinks _) fun e => ?_) fun lookup => ?_
  · exact .bind (.record _) fun _ => .throw e
  · split
    · exact .bind (.record _) fun _ => .pure _
    · split
      · exact .bind (.record _) fun _ => .pure _
      · refine .bind .nowEpochSeconds ?_
        intro now
        split <;> exact .bind (.record _) fun _ => .pure _

end ShortLinkServices
