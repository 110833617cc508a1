import HaoShortLink.Histories
import HaoShortLink.OwnerIsolation

/-! What the calls made to a ShortLinkService so far say about the links in its in-memory store. -/
namespace LinkHistories

open Cpp Actions ShortLinks ShortCodes ServerStates ServerStates.Server ShortLinkServices
open MemoryShortLinks OwnedLinks Histories
open OwnerIsolation (overMemory)
open Routers (IsSegment)

inductive ServiceCall where
  | create (originalUrl : Bytes) (expiresAt : Option ℤ) (ownerId : ℕ) (customCode : Option Bytes)
  | updateLifecycle (code : Bytes) (update : LifecycleUpdate)

/-- A call with what its caller got. -/
structure ServiceEvent where
  call : ServiceCall
  result : Except RepositoryException (Option ShortLinkRecord)

variable {A : Type} (api : ShortLinkHttpApi A MemoryShortLinkRepository)

def ServiceCall.perform :
    ServiceCall → Server A MemoryShortLinkRepository (Option ShortLinkRecord)
  | .create originalUrl expiresAt ownerId customCode => do
    let created ← createShortLink (overMemory api) originalUrl expiresAt ownerId customCode
    pure (created.map ShortLink.record)
  | .updateLifecycle code update => ShortLinkServices.updateLifecycle (overMemory api) code update

/-- A call, whatever the clock shows and whatever else has happened in the server. -/
inductive Step : MemoryShortLinkRepository → ServiceEvent → MemoryShortLinkRepository → Prop where
  | call (s : ServerState A MemoryShortLinkRepository) (c : ServiceCall) :
      Step s.links ⟨c, ((c.perform api).run s).1⟩ ((c.perform api).run s).2.links

/-- The service ran the calls from the empty store. -/
abbrev History (events : List ServiceEvent) (links : MemoryShortLinkRepository) : Prop :=
  Run (Step api) .empty events links

def runCalls (calls : List ServiceCall) (s : ServerState A MemoryShortLinkRepository) :
    List ServiceEvent × ServerState A MemoryShortLinkRepository :=
  calls.foldl (fun (events, s) c =>
    (events ++ [⟨c, ((c.perform api).run s).1⟩], ((c.perform api).run s).2)) ([], s)

theorem runCalls_history (calls : List ServiceCall) {s : ServerState A MemoryShortLinkRepository}
    (hs : s.links = .empty) :
    History api (runCalls api calls s).1 (runCalls api calls s).2.links := by
  induction calls using List.reverseRecOn with
  | nil => exact hs ▸ .start
  | append_singleton calls c ih =>
    rw [runCalls, List.foldl_append]
    exact .snoc ih (.call _ c)

def ServiceEvent.changed : ServiceEvent → Option Bytes
  | ⟨.create _ _ _ _, .ok (some record)⟩ => some record.code
  | ⟨.updateLifecycle code _, .ok (some _)⟩ => some code
  | _ => none

def written {V : Type} (value : ServiceCall → Option V) (code : Bytes) (e : ServiceEvent) :
    Option V :=
  if e.changed = some code then value e.call else none

namespace ServiceCall

def originalUrl : ServiceCall → Option Bytes
  | .create originalUrl _ _ _ => some originalUrl
  | .updateLifecycle _ _ => none

def status : ServiceCall → Option Status
  | .create _ _ _ _ => some .active
  | .updateLifecycle _ update => update.status

def expiresAt : ServiceCall → Option (Option ℤ)
  | .create _ expiresAt _ _ => some expiresAt
  | .updateLifecycle _ update => if update.expiresAtProvided then some update.expiresAt else none

end ServiceCall

theorem encodeBase62_isSegment (id : ℕ) : IsSegment (encodeBase62 id) := by
  refine ⟨encodeBase62_ne_nil id, ?_⟩
  intro hmem
  exact absurd (encodeBase62_char hmem) (by decide)

theorem isValidCustomCode_isSegment {code : Bytes} (h : isValidCustomCode code = true) :
    IsSegment code := by
  constructor
  · rintro rfl
    exact absurd h (by decide)
  · intro hmem
    exact absurd (isValidCustomCode_char h hmem) (by decide)

theorem codeFor_isSegment {customCode : Option Bytes}
    (h : customCode.all isValidCustomCode = true) (id : ℕ) : IsSegment (codeFor customCode id) := by
  cases customCode with
  | none => exact encodeBase62_isSegment id
  | some code => exact isValidCustomCode_isSegment h

/-- A call creates a link under a fresh code, updates a link, or has no effect on the links. -/
inductive Effect (r : MemoryShortLinkRepository) : ServiceEvent → MemoryShortLinkRepository → Prop
  | created {originalUrl expiresAt ownerId customCode record r'} :
      r.links.lookup record.code = none → IsSegment record.code →
      record.originalUrl = originalUrl → record.status = .active → record.expiresAt = expiresAt →
      r'.links = r.links.insert record.code record →
      Effect r ⟨.create originalUrl expiresAt ownerId customCode, .ok (some record)⟩ r'
  | updated {code update record now r'} : r.links.lookup code = some record →
      (∀ code', r'.links.lookup code' =
        if code' = code then some (updated update now record) else r.links.lookup code') →
      Effect r ⟨.updateLifecycle code update, .ok (some (OwnedLinks.updated update now record))⟩ r'
  | unchanged {e r'} : e.changed = none →
      (∀ code, r'.links.lookup code = r.links.lookup code) → Effect r e r'

variable {api} {r r' : MemoryShortLinkRepository} {e : ServiceEvent}

theorem isPast_run (expiresAt : Option ℤ) (s : ServerState A MemoryShortLinkRepository) :
    ∃ past s', (isPast expiresAt).run s = (.ok past, s') ∧ s'.links = s.links := by
  cases expiresAt with
  | none => exact ⟨_, _, rfl, rfl⟩
  | some expiresAt => exact ⟨_, _, rfl, rfl⟩

variable (api) in
/-- A create call of the service is refused before it reaches the store, or runs on it. -/
theorem perform_create (originalUrl : Bytes) (expiresAt : Option ℤ) (ownerId : ℕ)
    (customCode : Option Bytes) (s : ServerState A MemoryShortLinkRepository) :
    ∃ result s', ((ServiceCall.create originalUrl expiresAt ownerId customCode).perform api).run s =
        (result, s') ∧
      (result = .ok none ∧ s'.links = s.links ∨
      customCode.all isValidCustomCode = true ∧ ∃ now, (result, s'.links) =
        MemoryShortLinks.create originalUrl expiresAt ownerId customCode now s.links) := by
  obtain ⟨past, s₁, hpast, hlinks⟩ := isPast_run expiresAt s
  simp only [ServiceCall.perform, createShortLink]
  by_cases hrefused : (!isValidUrl originalUrl || ownerId == 0) = true
  · rw [if_pos hrefused]
    exact ⟨_, _, rfl, .inl ⟨rfl, rfl⟩⟩
  rw [if_neg hrefused, Action.run_bind, Action.run_bind_ok hpast]
  by_cases hcode : (past || !customCode.all isValidCustomCode) = true
  · rw [if_pos hcode]
    exact ⟨_, _, rfl, .inl ⟨rfl, hlinks⟩⟩
  rw [if_neg hcode, ← hlinks]
  have hvalid : customCode.all isValidCustomCode = true := by
    cases hall : customCode.all isValidCustomCode with
    | true => rfl
    | false => exact absurd (by rw [hall, Bool.not_false, Bool.or_true]) hcode
  -- the clock is read again, and the store runs the call
  let now := (s₁.clock 0).tdiv 1000
  let s₂ := { s₁ with clock := fun n => s₁.clock (n + 1) }
  have hnow : (nowEpochSeconds : Server A MemoryShortLinkRepository ℤ).run s₁ = (.ok now, s₂) := rfl
  rcases hcreate : MemoryShortLinks.create originalUrl expiresAt ownerId customCode now s₁.links
    with ⟨created, links⟩
  have hstore : (updateLinks ((overMemory api).linkRepository.create originalUrl expiresAt ownerId
      customCode now)).run s₂ = (created, { s₂ with links := links }) :=
    congrArg (fun done => (done.1, { s₂ with links := done.2 })) hcreate
  refine ⟨created, { s₂ with links := links }, ?_, .inr ⟨hvalid, now, hcreate.symm⟩⟩
  rw [Action.run_bind_ok hnow, Action.run_bind, hstore]
  rcases created with e | _ | record <;> rfl

theorem Step.effect (h : Step api r e r') : Effect r e r' := by
  obtain ⟨s, c⟩ := h
  cases c with
  | create originalUrl expiresAt ownerId customCode =>
    obtain ⟨result, s', hrun, ⟨rfl, hlinks⟩ | ⟨hvalid, now, hcreate⟩⟩ :=
      perform_create api originalUrl expiresAt ownerId customCode s
    · rw [hrun]
      exact .unchanged rfl fun code => by rw [hlinks]
    · rw [hrun]
      unfold MemoryShortLinks.create at hcreate
      dsimp only at hcreate
      split at hcreate
      · obtain ⟨rfl, hlinks⟩ := Prod.mk.inj hcreate
        exact .unchanged rfl fun code => by rw [hlinks]
      · next hfresh =>
        obtain ⟨rfl, hlinks⟩ := Prod.mk.inj hcreate
        exact .created (AList.lookup_eq_none.mpr hfresh) (codeFor_isSegment hvalid _) rfl rfl rfl
          (by rw [hlinks])
  | updateLifecycle code update =>
    change Effect s.links ⟨_, .ok (MemoryShortLinks.updateLifecycle code update
      ((s.clock 0).tdiv 1000) s.links).1⟩ (MemoryShortLinks.updateLifecycle code update
      ((s.clock 0).tdiv 1000) s.links).2
    rw [updateLifecycle_result]
    cases hallowed : (s.links.links.lookup code).filter (mayUpdate update) with
    | none =>
      refine .unchanged rfl ?_
      intro code'
      rw [updateLifecycle_lookup]
      split
      · next hcode =>
        rw [hcode]
        cases hlookup : s.links.links.lookup code with
        | none => rfl
        | some record =>
          have hdenied : mayUpdate update record = false := by simpa [hlookup] using hallowed
          rw [Option.map_some, hdenied]
          rfl
      · rfl
    | some record =>
      obtain ⟨hlookup, hmay⟩ := Option.filter_eq_some_iff.mp hallowed
      refine .updated hlookup ?_
      intro code'
      rw [updateLifecycle_lookup, hlookup, Option.map_some, if_pos hmay]

/-- A field of the records with the values that calls write to it. -/
structure Writes {V : Type} (field : ShortLinkRecord → V) (value : ServiceCall → Option V) :
    Prop where
  create : ∀ record ownerId customCode, record.status = .active →
    value (.create record.originalUrl record.expiresAt ownerId customCode) = some (field record)
  update : ∀ code update now record, field (OwnedLinks.updated update now record) =
    (value (.updateLifecycle code update)).getD (field record)

variable {V : Type} {field : ShortLinkRecord → V} {value : ServiceCall → Option V}
  {events : List ServiceEvent} {links : MemoryShortLinkRepository} {code : Bytes}

theorem Effect.field_eq (h : Effect r e r') (hwrites : Writes field value) (code : Bytes) :
    (r'.links.lookup code).map field =
      (written value code e).or ((r.links.lookup code).map field) := by
  cases h with
  | @created originalUrl expiresAt ownerId customCode record r' _ _ hurl hstatus hexpiry hlinks =>
    subst hurl hexpiry
    by_cases hcode : code = record.code
    · subst hcode
      simp [written, ServiceEvent.changed, hlinks, hwrites.create record ownerId customCode hstatus]
    · simp [written, ServiceEvent.changed, hlinks, AList.lookup_insert_ne hcode, Ne.symm hcode]
  | @updated code' update record now r' hlookup hlinks =>
    rw [hlinks]
    by_cases hcode : code = code'
    · subst hcode
      rw [if_pos rfl, hlookup, Option.map_some, hwrites.update code]
      simp only [written, ServiceEvent.changed, if_true]
      cases value (.updateLifecycle code update) <;> rfl
    · simp [written, ServiceEvent.changed, hcode, Ne.symm hcode]
  | unchanged hchanged hlinks => simp [written, hchanged, hlinks]

theorem field_eq_lastWrite (h : History api events links) (hwrites : Writes field value)
    (code : Bytes) :
    (links.links.lookup code).map field = lastWrite (written value code) events :=
  h.view_eq_lastWrite (fun links => (links.links.lookup code).map field) rfl
    fun _ _ _ hstep => hstep.effect.field_eq hwrites code

theorem writes_originalUrl : Writes ShortLinkRecord.originalUrl ServiceCall.originalUrl :=
  ⟨fun _ _ _ _ => rfl, fun _ _ _ _ => rfl⟩

theorem writes_status : Writes ShortLinkRecord.status ServiceCall.status :=
  ⟨fun _ _ _ hactive => congrArg some hactive.symm, fun _ _ _ _ => rfl⟩

theorem writes_expiresAt : Writes ShortLinkRecord.expiresAt ServiceCall.expiresAt := by
  refine ⟨fun _ _ _ _ => rfl, ?_⟩
  intro code update now record
  simp only [OwnedLinks.updated, ServiceCall.expiresAt]
  split <;> rfl

/-- A code is created once, and its link keeps the URL given then. -/
theorem originalUrl_iff (h : History api events links) (code url : Bytes) :
    (links.links.lookup code).map ShortLinkRecord.originalUrl = some url ↔
      ∃ e ∈ events, written ServiceCall.originalUrl code e = some url := by
  refine h.view_eq_some_iff
    (fun links => (links.links.lookup code).map ShortLinkRecord.originalUrl) rfl
    (fun _ _ _ hstep => hstep.effect.field_eq writes_originalUrl code)
    (fun r e r' hstep hwrite => ?_) url
  cases hstep.effect with
  | @created originalUrl expiresAt ownerId customCode record r' hfresh =>
    by_cases hcode : record.code = code
    · rw [← hcode, hfresh]
      rfl
    · simp [written, ServiceEvent.changed, hcode] at hwrite
  | updated => simp [written, ServiceCall.originalUrl] at hwrite
  | unchanged hchanged => simp [written, hchanged] at hwrite

theorem code_isSegment (h : History api events links) (code : Bytes)
    (hlookup : (links.links.lookup code).isSome) : IsSegment code := by
  refine h.invariant (P := fun links => ∀ code, (links.links.lookup code).isSome → IsSegment code)
    (fun code h => absurd h (by simp [MemoryShortLinkRepository.empty])) 
    (fun r e r' hstep ih code hcode => ?_) code hlookup
  cases hstep.effect with
  | @created originalUrl expiresAt ownerId customCode record r' _ hsegment _ _ _ hlinks =>
    by_cases heq : code = record.code
    · exact heq ▸ hsegment
    · rw [hlinks, AList.lookup_insert_ne heq] at hcode
      exact ih code hcode
  | @updated code' update record now r' hlookup hlinks =>
    rw [hlinks] at hcode
    split at hcode
    · next heq => exact ih code (by rw [heq, hlookup]; rfl)
    · exact ih code hcode
  | unchanged _ hlinks => exact ih code (hlinks code ▸ hcode)

end LinkHistories
