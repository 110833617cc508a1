import HaoShortLink.ApiHandlers
import HaoShortLink.Sessions

/-! The error code of a create request that the service refuses. -/
namespace CreateErrors

open Cpp Actions HttpRequests ShortLinks ServerStates ServerStates.Server ShortLinkServices
open ApiHandlers
open ShortCodes (isValidCustomCode)

variable {A L : Type} (api : ShortLinkHttpApi A L) {request : HttpRequest} {create : CreateRequest}
  {ownerId : ℕ} {s s₁ s₂ s₃ : ServerState A L}

def seconds (s : ServerState A L) : ℤ := (s.clock 0).tdiv 1000

def Past (expiresAt : Option ℤ) (s : ServerState A L) : Prop := ∃ t ∈ expiresAt, t ≤ seconds s

def BadCode (customCode : Option Bytes) : Prop := ∃ c ∈ customCode, isValidCustomCode c = false

/-- The reading that the repository may store. An expiry takes one reading before it. -/
def storedAt (expiresAt : Option ℤ) (s : ServerState A L) : ℤ :=
  (s.clock (if expiresAt.isSome then 1 else 0)).tdiv 1000

def Declined (originalUrl : Bytes) (expiresAt : Option ℤ) (ownerId : ℕ)
    (customCode : Option Bytes) (s : ServerState A L) : Prop :=
  (api.linkRepository.create originalUrl expiresAt ownerId customCode (storedAt expiresAt s)
    s.links).1 = .ok none

theorem isPast_run (expiresAt : Option ℤ) (s : ServerState A L) :
    ∃ s', (isPast expiresAt).run s = (.ok (expiresAt.any (· ≤ seconds s)), s') ∧
      s'.links = s.links ∧ (s'.clock 0).tdiv 1000 = storedAt expiresAt s := by
  cases expiresAt with
  | none => exact ⟨s, rfl, rfl, rfl⟩
  | some t => exact ⟨_, rfl, rfl, rfl⟩

theorem past_iff (expiresAt : Option ℤ) (s : ServerState A L) :
    expiresAt.any (· ≤ seconds s) = true ↔ Past expiresAt s := by
  cases expiresAt <;> simp [Past]

theorem badCode_iff (customCode : Option Bytes) :
    (!customCode.all isValidCustomCode) = true ↔ BadCode customCode := by
  cases customCode <;> simp [BadCode]

theorem stored_none_iff (originalUrl : Bytes) (expiresAt : Option ℤ) (ownerId : ℕ)
    (customCode : Option Bytes) (s : ServerState A L) :
    ((do
      let now ← nowEpochSeconds
      let record ← updateLinks
        (api.linkRepository.create originalUrl expiresAt ownerId customCode now)
      pure (record.map fun r => ShortLink.mk r (ascii "/s/" ++ r.code)) :
        Server A L (Option ShortLink)).run s).1 = .ok none ↔
      (api.linkRepository.create originalUrl expiresAt ownerId customCode
        ((s.clock 0).tdiv 1000) s.links).1 = .ok none := by
  have hnow : (nowEpochSeconds : Server A L ℤ).run s =
      (.ok ((s.clock 0).tdiv 1000), { s with clock := fun n => s.clock (n + 1) }) := rfl
  rw [Action.run_bind_ok hnow, Action.run_bind]
  simp only [updateLinks]
  rcases (api.linkRepository.create originalUrl expiresAt ownerId customCode
    ((s.clock 0).tdiv 1000) s.links).1 with e | _ | r
  · simp
  · simp
  · simp

theorem createShortLink_none_iff (originalUrl : Bytes) (expiresAt : Option ℤ) (ownerId : ℕ)
    (customCode : Option Bytes) (s : ServerState A L) :
    ((createShortLink api originalUrl expiresAt ownerId customCode).run s).1 = .ok none ↔
      isValidUrl originalUrl = false ∨ ownerId = 0 ∨ Past expiresAt s ∨ BadCode customCode ∨
        Declined api originalUrl expiresAt ownerId customCode s := by
  rw [createShortLink]
  by_cases hfirst : isValidUrl originalUrl = false ∨ ownerId = 0
  · rw [if_pos (by simpa using hfirst)]
    simp only [Action.run_pure, true_iff]
    tauto
  · rw [if_neg (by simpa using hfirst)]
    obtain ⟨s', hpast, hlinks, hclock⟩ := isPast_run expiresAt s
    rw [Action.run_bind_ok hpast]
    by_cases hsecond : Past expiresAt s ∨ BadCode customCode
    · rw [if_pos (by rwa [Bool.or_eq_true, past_iff, badCode_iff])]
      simp only [Action.run_pure, true_iff]
      tauto
    · rw [if_neg (by rwa [Bool.or_eq_true, past_iff, badCode_iff])]
      have hrest : isValidUrl originalUrl = false ∨ ownerId = 0 ∨ Past expiresAt s ∨
          BadCode customCode ∨ Declined api originalUrl expiresAt ownerId customCode s ↔
          Declined api originalUrl expiresAt ownerId customCode s := by tauto
      rw [hrest, Declined, ← hlinks, ← hclock]
      exact stored_none_iff api originalUrl expiresAt ownerId customCode s'

def OtherCause (create : CreateRequest) (ownerId : ℕ) (s : ServerState A L) : Prop :=
  isValidUrl create.url = false ∨ ownerId = 0 ∨ Past create.expiresAt s ∨
    Declined api create.url create.expiresAt ownerId create.customCode s

/-- The code names a field that is wrong. -/
structure NamesField (create : CreateRequest) (s : ServerState A L) (code : String) : Prop where
  customCode : code = "invalid_custom_code" → BadCode create.customCode
  url : code = "invalid_url" → isValidUrl create.url = false ∨ Past create.expiresAt s

/-- A valid custom code is there and something else is wrong, or nothing is wrong with the fields
and the owner or the repository is the cause. -/
def Misnamed (create : CreateRequest) (ownerId : ℕ) (s : ServerState A L) : Prop :=
  (∃ c ∈ create.customCode, isValidCustomCode c = true ∧ OtherCause api create ownerId s) ∨
  create.customCode = none ∧ isValidUrl create.url = true ∧ ¬ Past create.expiresAt s ∧
    (ownerId = 0 ∨ Declined api create.url create.expiresAt ownerId none s)

theorem namesField_iff (h : ((createShortLink api create.url create.expiresAt ownerId
      create.customCode).run s).1 = .ok none) :
    NamesField create s (createRefusal create.customCode).code ↔
      ¬ Misnamed api create ownerId s := by
  rw [createShortLink_none_iff] at h
  obtain ⟨url, expiresAt, customCode⟩ := create
  cases customCode with
  | none =>
    have hnames : NamesField ⟨url, expiresAt, none⟩ s "invalid_url" ↔
        isValidUrl url = false ∨ Past expiresAt s :=
      ⟨fun hn => hn.url rfl, fun hu => ⟨fun hc => absurd hc (by decide), fun _ => hu⟩⟩
    have hgood : ¬ BadCode none := by simp [BadCode]
    simp only [createRefusal, hnames, Misnamed, Option.not_mem_none, false_and, exists_false,
      false_or, true_and, hgood] at h ⊢
    cases hurl : isValidUrl url
    · simp
    · simp only [hurl, Bool.true_eq_false, false_or, true_and] at h ⊢
      tauto
  | some c =>
    have hbad : BadCode (some c) ↔ isValidCustomCode c = false := by simp [BadCode]
    have hnames : NamesField ⟨url, expiresAt, some c⟩ s "invalid_custom_code" ↔
        isValidCustomCode c = false :=
      ⟨fun hn => hbad.mp (hn.customCode rfl),
        fun hc => ⟨fun _ => hbad.mpr hc, fun hu => absurd hu (by decide)⟩⟩
    simp only [createRefusal, hnames, Misnamed, Option.mem_some_iff, exists_eq_left',
      reduceCtorEq, false_and, or_false, OtherCause, hbad] at h ⊢
    cases hcode : isValidCustomCode c
    · simp
    · simp only [hcode, Bool.true_eq_false, false_or] at h
      simp only [Bool.true_eq_false, true_and, false_iff, not_not]
      exact h

theorem performCreate_refused (h : (createShortLink api create.url create.expiresAt ownerId
      create.customCode).run s = (.ok none, s₁)) :
    ∃ s₂, (performCreate api create ownerId).run s = (.ok (), s₂) ∧
      s₂.response = s₁.response.setErrorResponse 400
        (ascii (createRefusal create.customCode).code)
        (ascii (createRefusal create.customCode).message) := by
  refine ⟨_, Action.run_tryCatch_ok ((Action.run_bind_ok h _).trans rfl) _, rfl⟩

/-- The answer to a refused request names a wrong field unless the request is of that kind. -/
theorem handleCreate_names_field_iff (create : CreateRequest)
    (hlimit : (passRateLimiter api).run s = (.ok true, s₁))
    (hparse : (parseCreate api request).run s₁ = (.ok (.ok create), s₂))
    (hrefused : (createShortLink api create.url create.expiresAt ownerId create.customCode).run s₂ =
      (.ok none, s₃)) :
    ∃ s₄, (handleCreate api request ownerId).run s = (.ok (), s₄) ∧
      s₄.response = s₃.response.setErrorResponse 400
        (ascii (createRefusal create.customCode).code)
        (ascii (createRefusal create.customCode).message) ∧
      (NamesField create s₂ (createRefusal create.customCode).code ↔
        ¬ Misnamed api create ownerId s₂) := by
  obtain ⟨s₄, hrun, hresponse⟩ := performCreate_refused api hrefused
  refine ⟨s₄, ?_, hresponse, namesField_iff api (by rw [hrefused])⟩
  rw [handleCreate, Action.run_bind_ok hlimit, if_pos rfl, Action.run_bind_ok hparse]
  exact hrun

open AuthRepositories (MemoryAuthRepository)
open MemoryShortLinks (MemoryShortLinkRepository)
open Sessions (demoApi demoStart)

/-- The body of every request is read as one object. -/
def demoCreateApi (members : List (Bytes × JsonValues.Json)) :
    ShortLinkHttpApi MemoryAuthRepository MemoryShortLinkRepository :=
  { demoApi with
    json := ⟨fun _ => none, fun _ => some (.object members), fun _ => .ok []⟩ }

def demoPost : HttpRequest where
  headers := .insert .empty (ascii "Content-Type") (ascii "application/json")

def demoNoScheme : ShortLinkHttpApi MemoryAuthRepository MemoryShortLinkRepository :=
  demoCreateApi [(ascii "url", .string (ascii "a"))]

/-- A URL without scheme, and no custom code. -/
theorem handleCreate_names_url :
    ∃ s₄, (handleCreate demoNoScheme demoPost 1).run demoStart = (.ok (), s₄) ∧
      s₄.response = demoStart.response.setErrorResponse 400
        (ascii (createRefusal none).code) (ascii (createRefusal none).message) ∧
      (NamesField ⟨ascii "a", none, none⟩ demoStart (createRefusal none).code ↔
        ¬ Misnamed demoNoScheme ⟨ascii "a", none, none⟩ 1 demoStart) := by
  have hlimit : (passRateLimiter demoNoScheme).run demoStart = (.ok true, demoStart) := rfl
  have hparse : (parseCreate demoNoScheme demoPost).run demoStart =
      (.ok (.ok ⟨ascii "a", none, none⟩), demoStart) := rfl
  have hrefused : (createShortLink demoNoScheme (ascii "a") none 1 none).run demoStart =
      (.ok none, demoStart) := rfl
  exact handleCreate_names_field_iff demoNoScheme ⟨ascii "a", none, none⟩ hlimit hparse hrefused

/-- The same URL with a custom code that would have been taken. -/
theorem url_blamed_on_code :
    ((handleCreate (demoCreateApi [(ascii "custom_code", .string (ascii "good-code")),
        (ascii "url", .string (ascii "a"))]) demoPost 1).run demoStart).2.response =
      demoStart.response.setErrorResponse 400 (ascii "invalid_custom_code")
        (ascii "custom_code must contain 4-32 allowed characters") ∧
    isValidCustomCode (ascii "good-code") = true :=
  ⟨rfl, by decide⟩

end CreateErrors
