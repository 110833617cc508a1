import HaoShortLink.GuardedRoutes
import HaoShortLink.OwnedLinks

/-! What a user's answers depend on: the user's own links and their statistics. -/
namespace OwnerIsolation

open Cpp Actions HttpRequests HttpResponses Routers ShortLinks ServerStates ServerStates.Server
open MemoryShortLinks OwnedLinks SameOriginPolicies AuthHttp ShortLinkServices ApiHandlers
open StatisticsHandlers ApiRoutes
open AuthRepositories (User MemoryAuthRepository)

variable {A α : Type} {owner : ℕ}

/-- Two states that a user cannot tell apart: everyone else's links, and all that only other
requests read, may differ. -/
structure Agree (owner : ℕ) (s t : ServerState A MemoryShortLinkRepository) : Prop where
  auth : s.auth = t.auth
  clock : s.clock = t.clock
  response : s.response = t.response
  links : owned owner s.links = owned owner t.links
  ids : OwnIdsDistinct owner s.links
  statistics : ∀ code, (owned owner s.links code).isSome → s.statistics code = t.statistics code

/-- The answer and what follows depend on what the user can see. -/
def Blind (owner : ℕ) (x : Server A MemoryShortLinkRepository α) : Prop := Lockstep (Agree owner) x

namespace Blind

variable {β : Type} {x : Server A MemoryShortLinkRepository α}
  {g : α → Server A MemoryShortLinkRepository β}

theorem pure (a : α) : Blind owner (pure a : Server A MemoryShortLinkRepository α) :=
  lockstep_pure a

theorem throw (e : RepositoryException) :
    Blind owner (throw e : Server A MemoryShortLinkRepository α) := lockstep_throw e

theorem bind (hx : Blind owner x) (hg : ∀ a, Blind owner (g a)) : Blind owner (x >>= g) :=
  lockstep_bind hx hg

theorem nowEpochSeconds :
    Blind owner (Server.nowEpochSeconds : Server A MemoryShortLinkRepository ℤ) := by
  refine bind (fun s t h => ⟨?_, ?_⟩) fun _ => pure _
  · exact congrArg (fun clock => Except.ok (clock 0)) h.clock
  · exact ⟨h.auth, congrArg (fun clock n => clock (n + 1)) h.clock, h.response, h.links, h.ids,
      h.statistics⟩

theorem respond (f : HttpResponse → HttpResponse) :
    Blind owner (Server.respond f : Server A MemoryShortLinkRepository Unit) :=
  lockstep_modify fun _ _ h =>
    ⟨h.auth, h.clock, congrArg f h.response, h.links, h.ids, h.statistics⟩

theorem setErrorResponse (statusCode : ℕ) (errorCode message : String) : Blind owner
    (Server.setErrorResponse statusCode errorCode message :
      Server A MemoryShortLinkRepository Unit) := respond _

theorem addHeader (name : String) (value : Bytes) :
    Blind owner (Server.addHeader name value : Server A MemoryShortLinkRepository Unit) :=
  respond _

theorem queryAuth (f : A → Except Exception α) :
    Blind owner (Server.queryAuth f : Server A MemoryShortLinkRepository α) :=
  lockstep_query fun _ _ h =>
    congrArg (fun auth => (f auth).mapError RepositoryException.std) h.auth

end Blind

variable (api : ShortLinkHttpApi A MemoryShortLinkRepository)

def overMemory : ShortLinkHttpApi A MemoryShortLinkRepository :=
  { api with linkRepository := MemoryShortLinks.repository }

variable {api} {request : HttpRequest}

theorem setJson_blind (status : ℕ) (message : String) (body : JsonValues.Json) :
    Blind owner (setJson (overMemory api) status message body) := by
  refine .bind (.respond _) ?_
  intro _
  split
  · exact .respond _
  · exact .throw _

theorem notFound_blind : Blind owner (notFound : Server A MemoryShortLinkRepository Unit) :=
  .setErrorResponse _ _ _

theorem refuse_blind (e : FieldError) :
    Blind owner (refuse e : Server A MemoryShortLinkRepository Unit) := .setErrorResponse _ _ _

theorem authenticate_blind (request : HttpRequest) :
    Blind owner (ApiHandlers.authenticate (overMemory api) request) := by
  refine .bind (.bind ?_ fun user => ?_) fun user => ?_
  · unfold authenticateRequest AuthServices.authenticate
    dsimp only
    split
    · exact .pure _
    · split
      · exact .pure _
      · exact .bind .nowEpochSeconds fun _ => .queryAuth _
  · split
    · exact .bind (.addHeader _ _) fun _ => .bind (.setErrorResponse _ _ _) fun _ => .pure _
    · exact .pure _
  · split
    · exact .pure _
    · exact .bind (.addHeader _ _) fun _ => .pure _

theorem requireSameOriginRequest_blind (request : HttpRequest) : Blind owner
    (requireSameOriginRequest request : Server A MemoryShortLinkRepository Bool) := by
  refine .bind (.addHeader _ _) ?_
  intro _
  split
  · exact .pure _
  · exact .bind (.setErrorResponse _ _ _) fun _ => .pure _

theorem getForOwner_run (code : Bytes) (s : ServerState A MemoryShortLinkRepository) :
    (getForOwner (overMemory api) code owner).run s = (.ok (owned owner s.links code), s) := rfl

theorem getForOwner_blind (code : Bytes) :
    Blind owner (getForOwner (overMemory api) code owner) := by
  intro s t h
  rw [LockstepAt, getForOwner_run, getForOwner_run, h.links]
  exact ⟨rfl, h⟩

theorem list_blind {query : ListQuery} (hquery : query.ownerId = some owner) :
    Blind owner (ShortLinkServices.list (overMemory api) query) :=
  lockstep_query fun _ _ h => congrArg Except.ok (list_owned h.links h.ids hquery)

theorem updateLifecycle_blind {update : LifecycleUpdate} (howner : update.ownerId = some owner)
    (code : Bytes) :
    Blind owner (ShortLinkServices.updateLifecycle (overMemory api) code update) := by
  refine .bind .nowEpochSeconds fun now s t h => ⟨?_, ?_⟩
  · apply congrArg Except.ok
    change (MemoryShortLinks.updateLifecycle code update now s.links).1 =
      (MemoryShortLinks.updateLifecycle code update now t.links).1
    rw [updateLifecycle_owned_result howner, updateLifecycle_owned_result howner, h.links]
  · refine ⟨h.auth, h.clock, h.response, ?_, updateLifecycle_ids howner h.ids,
      fun code' hsome => ?_⟩
    · funext code'
      change owned owner (MemoryShortLinks.updateLifecycle code update now s.links).2 code' =
        owned owner (MemoryShortLinks.updateLifecycle code update now t.links).2 code'
      rw [updateLifecycle_owned howner, updateLifecycle_owned howner, h.links]
    · exact h.statistics code' ((updateLifecycle_owned_isSome howner code').symm.trans hsome)

theorem getStatistics_lockstep {s t : ServerState A MemoryShortLinkRepository} {code : Bytes}
    (hown : (owned owner s.links code).isSome) (h : Agree owner s t)
    (query : AccessStatistics.AccessStatisticsQuery) :
    LockstepAt (Agree owner) (getStatistics code query) s t :=
  ⟨congrArg (fun statistics => (statistics query).mapError RepositoryException.std)
    (h.statistics code hown), h⟩

theorem handleDetail_blind : Blind owner (handleDetail (overMemory api) request owner) := by
  refine .bind (getForOwner_blind _) ?_
  intro record
  split
  · exact notFound_blind
  · exact setJson_blind _ _ _

theorem parseListQuery_owner {query : ListQuery} {requestedLimit : ℕ}
    (h : parseListQuery request owner = .ok (query, requestedLimit)) :
    query.ownerId = some owner := by
  simp only [parseListQuery, bind, Except.bind, pure, Except.pure] at h
  split at h
  · cases h
  · split at h
    · cases h
    · split at h
      · cases h
      · cases h
        rfl

theorem handleList_blind : Blind owner (handleList (overMemory api) request owner) := by
  unfold handleList
  split
  · exact refuse_blind _
  · next hparse =>
    exact .bind (list_blind (parseListQuery_owner hparse)) fun _ => setJson_blind _ _ _

theorem updateField_owner {update update' : LifecycleUpdate} {item : Bytes × JsonValues.Json}
    (h : updateField update item = .ok update') : update'.ownerId = update.ownerId := by
  unfold updateField at h
  repeat' split at h
  all_goals cases h
  all_goals rfl

theorem updateFields_owner {update update' : LifecycleUpdate}
    {items : List (Bytes × JsonValues.Json)} (h : items.foldlM updateField update = .ok update') :
    update'.ownerId = update.ownerId := by
  induction items generalizing update with
  | nil =>
    cases h
    rfl
  | cons item items ih =>
    rw [List.foldlM_cons] at h
    cases hfield : updateField update item with
    | error e =>
      rw [hfield] at h
      cases h
    | ok next =>
      rw [hfield] at h
      exact (ih h).trans (updateField_owner hfield)

theorem parseUpdate_owner {update : LifecycleUpdate}
    (h : parseUpdate (overMemory api) request owner = .ok update) :
    update.ownerId = some owner := by
  simp only [parseUpdate, bind, Except.bind] at h
  split at h
  · cases h
  · split at h
    · cases h
    · exact updateFields_owner h

theorem handleUpdate_blind : Blind owner (handleUpdate (overMemory api) request owner) := by
  unfold handleUpdate
  split
  · exact refuse_blind _
  · next hparse =>
    refine .bind (updateLifecycle_blind (parseUpdate_owner hparse) _) ?_
    intro record
    split
    · exact notFound_blind
    · exact setJson_blind _ _ _

theorem handleStatistics_blind : Blind owner (handleStatistics (overMemory api) request owner) := by
  intro s t h
  apply (getForOwner_blind _ s t h).bind
  intro record hrecord
  rw [getForOwner_run] at hrecord
  rw [getForOwner_run, getForOwner_run]
  cases record with
  | none => exact notFound_blind s t h
  | some record =>
    have hown : (owned owner s.links (request.getPathParameters (ascii "param1"))).isSome := by
      rw [Except.ok.inj hrecord]
      rfl
    have hparse : Blind owner (parseStatisticsQuery request :
        Server A MemoryShortLinkRepository _) := by
      unfold parseStatisticsQuery
      split
      · exact .pure _
      · exact .bind .nowEpochSeconds fun _ => .pure _
    apply (hparse s t h).bind
    intro query _
    have hagree := (hparse s t h).2
    have hlinks := congrArg (fun parts => parts.2.1) (parseStatisticsQuery_harmless request s)
    cases query with
    | error e => exact refuse_blind e _ _ hagree
    | ok query =>
      refine (getStatistics_lockstep ?_ hagree query).bind fun snapshot _ => ?_
      · rw [show (parseStatisticsQuery request).run s |>.2.links = s.links from hlinks]
        exact hown
      · cases snapshot with
        | none => exact notFound_blind _ _ hagree
        | some snapshot => exact setJson_blind _ _ _ _ _ hagree

def foreignLinks (owner : ℕ) (s : ServerState A MemoryShortLinkRepository) :
    Bytes → Option ShortLinkRecord := foreign owner s.links

theorem Harmless.keepsForeign {x : Server A MemoryShortLinkRepository α} (h : Harmless x) :
    Keeps (foreignLinks owner) x := fun s =>
  congrArg (fun parts : A × MemoryShortLinkRepository × List Bytes => foreign owner parts.2.1) (h s)

theorem handleUpdate_keepsForeign :
    Keeps (foreignLinks owner) (handleUpdate (overMemory api) request owner) := by
  unfold handleUpdate
  split
  · exact Harmless.keepsForeign (refuse_harmless _)
  · next hparse =>
    refine keeps_bind ?_ fun record => ?_
    · exact keeps_bind (Harmless.keepsForeign .nowEpochSeconds) fun now s =>
        updateLifecycle_foreign (parseUpdate_owner hparse)
    · split
      · exact Harmless.keepsForeign notFound_harmless
      · exact Harmless.keepsForeign (setJson_harmless _ _ _ _)

def OwnerRoute (method : Method) (pattern : Bytes) : Prop :=
  method = .get ∧ pattern ∈ [ascii "/api/short-links", ascii "/api/short-links/:code",
    ascii "/api/short-links/:code/statistics"] ∨
  method = .put ∧ pattern = ascii "/api/short-links/:code"

instance (method : Method) (pattern : Bytes) : Decidable (OwnerRoute method pattern) :=
  inferInstanceAs (Decidable (_ ∧ _ ∨ _ ∧ _))

variable (api) in
/-- What a handler promises to the user whose session the request carries. -/
structure Isolates (handler : Handler A MemoryShortLinkRepository) : Prop where
  lockstep : ∀ request user s t, sessionUser (overMemory api) request s = some user →
    Agree user.id s t → LockstepAt (Agree user.id) (handler request) s t
  foreign : ∀ request user s, sessionUser (overMemory api) request s = some user →
    KeepsAt (foreignLinks user.id) (handler request) s

/-- Behind forUser the owner is the user of the session. -/
theorem isolates_forUser {handler : HttpRequest → ℕ → Server A MemoryShortLinkRepository Unit}
    (hblind : ∀ request owner, Blind owner (handler request owner))
    (hforeign : ∀ request owner, Keeps (foreignLinks owner) (handler request owner)) :
    Isolates api (forUser (overMemory api) handler) where
  lockstep request user s t huser h := by
    apply (authenticate_blind request s t h).bind
    intro found hfound
    cases found with
    | none => exact Blind.pure () _ _ (authenticate_blind request s t h).2
    | some found =>
      obtain rfl : found = user :=
        Option.some.inj ((authenticate_some _ hfound).symm.trans huser)
      exact hblind request found.id _ _ (authenticate_blind request s t h).2
  foreign request user s huser := by
    apply (Harmless.keepsForeign (authenticate_harmless _ request) s).bind
    intro found hfound
    cases found with
    | none => exact keeps_pure () _
    | some found =>
      obtain rfl : found = user :=
        Option.some.inj ((authenticate_some _ hfound).symm.trans huser)
      exact hforeign request found.id _

theorem isolates_fromSameOrigin {handler : Handler A MemoryShortLinkRepository}
    (h : Isolates api handler) : Isolates api (fromSameOrigin handler) where
  lockstep request user s t huser hagree := by
    apply (requireSameOriginRequest_blind request s t hagree).bind
    intro same _
    have hafter := (requireSameOriginRequest_blind request s t hagree).2
    cases same with
    | true =>
      exact h.lockstep request user _ _
        ((requireSameOriginRequest_sessionUser _ request s).trans huser) hafter
    | false => exact Blind.pure () _ _ hafter
  foreign request user s huser := by
    refine (Harmless.keepsForeign (requireSameOriginRequest_harmless request) s).bind
      fun same _ => ?_
    cases same with
    | true =>
      exact h.foreign request user _
        ((requireSameOriginRequest_sessionUser _ request s).trans huser)
    | false => exact keeps_pure () _

variable (api) in
def Isolated (route : Route (Handler A MemoryShortLinkRepository)) : Prop :=
  OwnerRoute route.method route.path → Isolates api route.handler

theorem isolated_other {method : Method} {path : String}
    {handler : Handler A MemoryShortLinkRepository} (h : ¬ OwnerRoute method (ascii path)) :
    Isolated api ⟨method, ascii path, handler⟩ := fun howner => absurd howner h

theorem routes_isolated : EachRoute (overMemory api) (Isolated api) where
  health := isolated_other (by decide)
  live := isolated_other (by decide)
  ready := isolated_other (by decide)
  register := isolated_other (by decide)
  login := isolated_other (by decide)
  logout := isolated_other (by decide)
  me := isolated_other (by decide)
  create := isolated_other (by decide)
  list _ := isolates_forUser (fun _ _ => handleList_blind)
    fun _ _ => Harmless.keepsForeign (handleList_harmless _ _ _)
  detail _ := isolates_forUser (fun _ _ => handleDetail_blind)
    fun _ _ => Harmless.keepsForeign (handleDetail_harmless _ _ _)
  update _ := isolates_fromSameOrigin
    (isolates_forUser (fun _ _ => handleUpdate_blind) fun _ _ => handleUpdate_keepsForeign)
  statistics _ := isolates_forUser (fun _ _ => handleStatistics_blind)
    fun _ _ => Harmless.keepsForeign (handleStatistics_harmless _ _ _)
  redirect := isolated_other (by decide)
  metrics := isolated_other (by decide)

variable (api) in
/-- The request goes to one of the routes for a user's own links. -/
def OwnerRequest (request : HttpRequest) : Prop :=
  ∃ found, (registerShortLinkHttpApi (overMemory api)).route request = some found ∧
    OwnerRoute request.method found.pattern

theorem sessionUser_parameters (request : HttpRequest)
    (parameters : OrderedMaps.OrderedMap Bytes Bytes)
    (s : ServerState A MemoryShortLinkRepository) :
    sessionUser (overMemory api) { request with pathParameters := parameters } s =
      sessionUser (overMemory api) request s := rfl

theorem OwnerRequest.handler (h : OwnerRequest api request) :
    ∃ found, (registerShortLinkHttpApi (overMemory api)).route request = some found ∧
      Isolates api found.handler ∧
      ∃ parameters, found.request = { request with pathParameters := parameters } := by
  obtain ⟨found, hroute, howner⟩ := h
  refine ⟨found, hroute, ?_⟩
  cases Router.route_answers hroute with
  | @exact route hmem hmethod hpath =>
    exact ⟨(registered_every _ routes_isolated).1 route hmem (hmethod ▸ howner),
      request.pathParameters, rfl⟩
  | @pattern route values hmem hmethod hmatch =>
    exact ⟨(registered_every _ routes_isolated).2 route hmem (hmethod ▸ howner),
      extractPathParameters_rest values request⟩

theorem handleException_blind (e : RepositoryException) :
    Blind owner (handleException e : Server A MemoryShortLinkRepository Unit) := by
  unfold handleException
  split
  · exact .throw _
  · exact .setErrorResponse _ _ _

/-- A user's requests for own links get the same answer from any two stores that agree on the
user's links, and leave the links of everyone else exactly as they were. -/
theorem owner_isolation (api : ShortLinkHttpApi A MemoryShortLinkRepository) (request : HttpRequest)
    (user : User) (s : ServerState A MemoryShortLinkRepository)
    (huser : sessionUser (overMemory api) request s = some user)
    (hrequest : OwnerRequest api request) :
    (∀ t, Agree user.id s t →
      answer (overMemory api) request s = answer (overMemory api) request t) ∧
    foreign user.id (stateAfter (overMemory api) request s).links = foreign user.id s.links := by
  obtain ⟨found, hroute, hisolates, parameters, hparameters⟩ := hrequest.handler
  have hfound : sessionUser (overMemory api) found.request s = some user := by
    rw [hparameters, sessionUser_parameters, huser]
  constructor
  · intro t hagree
    have hhandler := (hisolates.lockstep found.request user s t hfound hagree).tryCatch
      handleException_blind
    have hrun : LockstepAt (Agree user.id) (handleRequest (overMemory api) request) s t := by
      simp only [handleRequest, hroute]
      exact hhandler.bind fun _ _ => Blind.respond _ _ _ hhandler.2
    unfold answer
    rcases hs : (handleRequest (overMemory api) request).run s with ⟨e | a, s'⟩ <;>
      rcases ht : (handleRequest (overMemory api) request).run t with ⟨e' | a', t'⟩ <;>
        simp only [LockstepAt, hs, ht] at hrun
    · exact congrArg _ (Except.error.inj hrun.1)
    · exact absurd hrun.1 (by simp)
    · exact absurd hrun.1 (by simp)
    · exact congrArg _ hrun.2.response
  · have hkeeps : KeepsAt (foreignLinks user.id) (handleRequest (overMemory api) request) s := by
      simp only [handleRequest, hroute]
      exact ((hisolates.foreign found.request user s hfound).tryCatch fun e =>
        Harmless.keepsForeign (GuardedRoutes.handleException_harmless e)).bind fun _ _ =>
          Harmless.keepsForeign (.respond _) _
    exact hkeeps

def demoToken : Bytes := (List.replicate 4 (ascii "0123456789abcdef")).flatten

/-- The SHA-256 digest of the token. -/
def demoDigest : Bytes :=
  [168, 174, 110, 110, 233, 41, 171, 234, 58, 252, 252, 82, 88, 200, 204, 214,
    248, 82, 115, 224, 212, 98, 109, 38, 199, 39, 159, 50, 80, 247, 124, 142]

def demoApi : ShortLinkHttpApi MemoryAuthRepository MemoryShortLinkRepository where
  authRepository := MemoryAuthRepository.repository
  linkRepository := MemoryShortLinks.repository
  openSsl := ⟨fun data => if data = demoToken then some demoDigest else none, fun _ _ => none⟩
  json := ⟨fun _ => none, fun _ => none, fun _ => .ok []⟩
  sessionTtlSeconds := 604800
  dummyPasswordHash := ascii "!"
  hasRateLimiter := false
  hasStatistics := false
  eventNonce := 0
  renderPrometheus _ := []
  config := {}

def demoUser : User := ⟨1, ascii "ada", .active, 0, 0⟩

def demoAuth : MemoryAuthRepository where
  users := AList.insert 1 ⟨demoUser, ascii "ada", ascii "!"⟩ ∅
  userIdsByName := AList.insert (ascii "ada") 1 ∅
  sessions := AList.insert (AuthServices.toHex demoDigest) ⟨1, 604800, none⟩ ∅
  nextUserId := 2

def demoState (links : MemoryShortLinkRepository) :
    ServerState MemoryAuthRepository MemoryShortLinkRepository where
  auth := demoAuth
  links := links
  statistics _ _ := .ok none
  clock _ := 0
  random _ := none
  limiter _ := ⟨.allowed, 0⟩
  consulted := []
  published := []
  eventSequence := 0
  metrics := []
  httpMetricsText := []
  mysqlHealthy := false
  response := {}

def demoRequest : HttpRequest where
  method := .get
  version := ascii "HTTP/1.1"
  path := ascii "/api/short-links/mine"
  headers := .insert .empty (ascii "Cookie") (ascii "hao_session=" ++ demoToken)

def demoLink (owner : ℕ) (code : Bytes) : ShortLinkRecord :=
  ⟨owner, owner, code, ascii "https://a.example", .active, none, 0, 0⟩

def demoMine : MemoryShortLinkRepository :=
  ⟨AList.insert (ascii "mine") (demoLink 1 (ascii "mine")) ∅, 3⟩

def demoBoth : MemoryShortLinkRepository :=
  ⟨AList.insert (ascii "their") (demoLink 2 (ascii "their")) demoMine.links, 3⟩

theorem demoMine_owned {code : Bytes} {record : ShortLinkRecord}
    (h : owned 1 demoMine code = some record) : code = ascii "mine" := by
  by_contra hne
  have hlookup := (owned_eq_some.mp h).1
  rw [demoMine, AList.lookup_insert_ne hne] at hlookup
  cases hlookup

theorem demo_agree : Agree demoUser.id (demoState demoMine) (demoState demoBoth) where
  auth := rfl
  clock := rfl
  response := rfl
  links := by
    funext code
    simp only [demoState, owned, findByCodeForOwner, demoBoth]
    by_cases h : code = ascii "their"
    · subst h
      rw [AList.lookup_insert]
      decide
    · rw [AList.lookup_insert_ne h]
  ids code₁ code₂ record₁ record₂ h₁ h₂ _ := (demoMine_owned h₁).trans (demoMine_owned h₂).symm
  statistics _ _ := rfl

theorem owner_isolation_demo :
    answer (overMemory demoApi) demoRequest (demoState demoMine) =
      answer (overMemory demoApi) demoRequest (demoState demoBoth) ∧
    foreign 1 (stateAfter (overMemory demoApi) demoRequest (demoState demoBoth)).links =
      foreign 1 demoBoth := by
  have hrequest : OwnerRequest demoApi demoRequest := ⟨_, rfl, by decide⟩
  exact ⟨(owner_isolation demoApi demoRequest demoUser (demoState demoMine) (by decide)
      hrequest).1 _ demo_agree,
    (owner_isolation demoApi demoRequest demoUser (demoState demoBoth) (by decide) hrequest).2⟩

end OwnerIsolation
