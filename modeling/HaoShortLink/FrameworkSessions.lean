import HaoShortLink.Histories
import HaoShortLink.HttpRequests
import HaoShortLink.HttpResponses
import Mathlib.Data.List.AList

/-! Sessions of the HTTP framework (Session.cpp, SessionManager.cpp, SessionStorage.cpp). A
handle is the place of an object among all those made so far; the storage and any number of
requests may hold it. Times are clock ticks of a nanosecond. -/
namespace FrameworkSessions

open Cpp
open Histories
open HttpRequests (HttpRequest)
open HttpResponses (HttpResponse)
open RequestIds (hexDigit)

structure Session where
  sessionId : Bytes
  data : AList fun _ : Bytes => Bytes
  expiryTime : ℤ
  maxAge : ℤ
  /-- There is one manager; a session may not have been told of it. -/
  hasManager : Bool

namespace Session

def isExpired (now : ℤ) (s : Session) : Bool := s.expiryTime < now

def refresh (now : ℤ) (s : Session) : Session :=
  { s with expiryTime := now + s.maxAge * 10 ^ 9 }

def make (sessionId : Bytes) (hasManager : Bool) (maxAge now : ℤ) : Session :=
  refresh now ⟨sessionId, ∅, 0, maxAge, hasManager⟩

end Session

/-- All the objects, and those that MemorySessionStorage holds by their ids. -/
structure Memory where
  objects : List Session
  sessions : AList fun _ : Bytes => ℕ

/-- What one call of getSession reads: the request, the clock and the random numbers. -/
structure Visit where
  request : HttpRequest
  clock : ℕ → ℤ
  draws : ℕ → Fin 16

/-- 32 hexadecimal digits. -/
def generateSessionId (draws : ℕ → Fin 16) : Bytes :=
  (List.range 32).map fun i => hexDigit (draws i).val

def getSessionIdFromCookie (request : HttpRequest) : Bytes :=
  let key := ascii "sessionId="
  match (request.getHeader (ascii "Cookie")).tails.find? key.isPrefixOf with
  | some found => (found.drop key.length).takeWhile (· != 59)
  | none => []

def setSessionCookie (sessionId : Bytes) (resp : HttpResponse) : HttpResponse :=
  resp.addHeader (ascii "Set-Cookie")
    (ascii "sessionId=" ++ sessionId ++ ascii "; Path=/; HttpOnly")

namespace Memory

def empty : Memory := ⟨[], ∅⟩

def idOf (session : ℕ) (m : Memory) : Option Bytes := m.objects[session]?.map Session.sessionId

def isExpired (session : ℕ) (now : ℤ) (m : Memory) : Bool :=
  m.objects[session]?.any (Session.isExpired now)

def hasManager (session : ℕ) (m : Memory) : Bool := m.objects[session]?.any Session.hasManager

def modify (session : ℕ) (f : Session → Session) (m : Memory) : Memory :=
  { m with objects := m.objects.modify session f }

def save (session : ℕ) (m : Memory) : Memory :=
  match m.idOf session with
  | some sessionId => { m with sessions := m.sessions.insert sessionId session }
  | none => m

def load (sessionId : Bytes) (now : ℤ) (m : Memory) : Option ℕ × Memory :=
  match m.sessions.lookup sessionId with
  | none => (none, m)
  | some session =>
    if m.isExpired session now then (none, { m with sessions := m.sessions.erase sessionId })
    else (some session, m)

def remove (sessionId : Bytes) (m : Memory) : Memory :=
  { m with sessions := m.sessions.erase sessionId }

def updateSession (session : ℕ) (m : Memory) : Memory := m.save session

/-- The live session that the cookie names. -/
def loadByCookie (v : Visit) (m : Memory) : Option ℕ × Memory :=
  let sessionId := getSessionIdFromCookie v.request
  let (session, m) := if sessionId = [] then (none, m) else m.load sessionId (v.clock 0)
  (session.filter fun session => !m.isExpired session (v.clock 1), m)

def getSession (v : Visit) (resp : HttpResponse) (m : Memory) : ℕ × HttpResponse × Memory :=
  match m.loadByCookie v with
  | (none, m) =>
    let sessionId := generateSessionId v.draws
    let session := m.objects.length
    let m := { m with objects := m.objects ++ [Session.make sessionId true 3600 (v.clock 2)] }
    (session, setSessionCookie sessionId resp,
      (m.modify session (Session.refresh (v.clock 3))).save session)
  | (some session, m) =>
    let m := m.modify session fun s => { s with hasManager := true }
    (session, resp, (m.modify session (Session.refresh (v.clock 3))).save session)

def destroySession (sessionId : Bytes) (m : Memory) : Memory := m.remove sessionId

def setValue (session : ℕ) (key value : Bytes) (m : Memory) : Memory :=
  let m := m.modify session fun s => { s with data := s.data.insert key value }
  if m.hasManager session then m.updateSession session else m

def removeValue (session : ℕ) (key : Bytes) (m : Memory) : Memory :=
  m.modify session fun s => { s with data := s.data.erase key }

def clear (session : ℕ) (m : Memory) : Memory := m.modify session fun s => { s with data := ∅ }

end Memory

inductive Event where
  | getSession (v : Visit) (resp : HttpResponse)
  | setValue (session : ℕ) (key value : Bytes)
  | remove (session : ℕ) (key : Bytes)
  | clear (session : ℕ)
  | destroySession (sessionId : Bytes)

/-- Only handles that getSession has returned can be used. -/
def next (m : Memory) : Event → Option Memory
  | .getSession v resp => some (m.getSession v resp).2.2
  | .setValue session key value =>
    if session < m.objects.length then some (m.setValue session key value) else none
  | .remove session key =>
    if session < m.objects.length then some (m.removeValue session key) else none
  | .clear session => if session < m.objects.length then some (m.clear session) else none
  | .destroySession sessionId => some (m.destroySession sessionId)

abbrev Step (m : Memory) (e : Event) (m' : Memory) : Prop := next m e = some m'

def returnedId (v : Visit) (resp : HttpResponse) (m : Memory) : Option Bytes :=
  (m.getSession v resp).2.2.idOf (m.getSession v resp).1

def destroyedBy : Event → Option Bytes
  | .destroySession sessionId => some sessionId
  | _ => none

def destroyed (steps : List (Memory × Event × Memory)) : List Bytes :=
  steps.filterMap fun t => destroyedBy t.2.1

/-- A getSession after these steps returns no session that was destroyed in their course. -/
def ReturnsLive (before : List (Memory × Event × Memory)) (t : Memory × Event × Memory) : Prop :=
  ∀ v resp, t.2.1 = .getSession v resp → ∀ sessionId ∈ destroyed before,
    returnedId v resp t.1 ≠ some sessionId

/-- Nobody writes a value through a handle whose session was destroyed, and no id is drawn anew
that was destroyed. -/
def Careful (dead : List Bytes) (m : Memory) : Event → Prop
  | .getSession v _ => (m.loadByCookie v).1 = none → generateSessionId v.draws ∉ dead
  | .setValue session _ _ => ∀ sessionId ∈ m.idOf session, sessionId ∉ dead
  | _ => True

instance (dead : List Bytes) (m : Memory) : ∀ e, Decidable (Careful dead m e)
  | .getSession v _ =>
    decidable_of_iff ((m.loadByCookie v).1 = none → !dead.contains (generateSessionId v.draws))
      (by simp [Careful])
  | .setValue session _ _ =>
    decidable_of_iff ((m.idOf session).all (!dead.contains ·))
      (by simp [Careful, Option.all_eq_true])
  | .remove .. | .clear .. | .destroySession .. => .isTrue trivial

section Ids

variable {m : Memory} {session : ℕ} {sessionId : Bytes}

theorem idOf_modify {f : Session → Session} (hf : ∀ s, (f s).sessionId = s.sessionId)
    (other : ℕ) : (m.modify session f).idOf other = m.idOf other := by
  simp only [Memory.idOf, Memory.modify, List.getElem?_modify, Option.map_eq_map, Option.map_map]
  congr 1
  funext s
  by_cases h : session = other
  · simp [h, hf]
  · simp [h]

theorem save_eq (h : m.idOf session = some sessionId) :
    m.save session = { m with sessions := m.sessions.insert sessionId session } := by
  rw [Memory.save, h]

theorem idOf_save (other : ℕ) : (m.save session).idOf other = m.idOf other := by
  rw [Memory.save]
  cases m.idOf session <;> rfl

theorem lookup_save (h : m.idOf session = some sessionId) (other : Bytes) :
    (m.save session).sessions.lookup other =
      if other = sessionId then some session else m.sessions.lookup other := by
  rw [save_eq h]
  by_cases hother : other = sessionId
  · rw [if_pos hother, hother]
    exact AList.lookup_insert _
  · rw [if_neg hother]
    exact AList.lookup_insert_ne hother

theorem idOf_of_lt (h : session < m.objects.length) :
    ∃ sessionId, m.idOf session = some sessionId := by
  rw [Memory.idOf, List.getElem?_eq_getElem h]
  exact ⟨_, rfl⟩

end Ids

/-- Every object keeps its id, and what is stored afterwards was stored before or has just been
saved under its own id. -/
structure Stores (m m' : Memory) (saved : Option Bytes) : Prop where
  ids : ∀ session sessionId, m.idOf session = some sessionId → m'.idOf session = some sessionId
  entries : ∀ sessionId session, m'.sessions.lookup sessionId = some session →
    m.sessions.lookup sessionId = some session ∨
      saved = some sessionId ∧ m'.idOf session = some sessionId

namespace Stores

variable {m m₁ m₂ : Memory} {saved : Option Bytes} {session : ℕ} {sessionId : Bytes}

theorem modify {f : Session → Session} (hf : ∀ s, (f s).sessionId = s.sessionId) :
    Stores m (m.modify session f) none := by
  constructor
  · intro other sessionId h
    rw [idOf_modify hf, h]
  · intro sessionId other h
    exact .inl h

theorem save (h : m.idOf session = some sessionId) :
    Stores m (m.save session) (some sessionId) := by
  constructor
  · intro other otherId hother
    rw [idOf_save, hother]
  · intro otherId other hother
    rw [lookup_save h] at hother
    by_cases heq : otherId = sessionId
    · rw [if_pos heq] at hother
      obtain rfl := Option.some.inj hother
      subst heq
      exact .inr ⟨rfl, by rw [idOf_save, h]⟩
    · rw [if_neg heq] at hother
      exact .inl hother

theorem erase (sessionId : Bytes) : Stores m (m.remove sessionId) none := by
  constructor
  · intro session otherId h
    exact h
  · intro otherId session h
    by_cases heq : otherId = sessionId
    · subst heq
      rw [Memory.remove, AList.lookup_erase] at h
      cases h
    · rw [Memory.remove, AList.lookup_erase_ne heq] at h
      exact .inl h

theorem append (o : Session) : Stores m { m with objects := m.objects ++ [o] } none := by
  constructor
  · intro session sessionId h
    obtain ⟨s, hs, rfl⟩ := Option.map_eq_some_iff.mp h
    have hlt := (List.getElem?_eq_some_iff.mp hs).1
    simp only [Memory.idOf, List.getElem?_append_left hlt, hs, Option.map_some]
  · intro sessionId session h
    exact .inl h

theorem load (sessionId : Bytes) (now : ℤ) : Stores m (m.load sessionId now).2 none := by
  rw [Memory.load]
  cases m.sessions.lookup sessionId with
  | none => exact ⟨fun _ _ h => h, fun _ _ h => .inl h⟩
  | some session =>
    by_cases hexpired : m.isExpired session now
    · simp only [hexpired, if_true]
      exact erase sessionId
    · simp only [hexpired]
      exact ⟨fun _ _ h => h, fun _ _ h => .inl h⟩

theorem trans (h : Stores m m₁ none) (h' : Stores m₁ m₂ saved) : Stores m m₂ saved := by
  constructor
  · intro session sessionId hid
    exact h'.ids _ _ (h.ids _ _ hid)
  · intro sessionId session hlookup
    rcases h'.entries _ _ hlookup with hlookup | hsaved
    · rcases h.entries _ _ hlookup with hlookup | ⟨hnone, _⟩
      · exact .inl hlookup
      · cases hnone
    · exact .inr hsaved

end Stores

section Steps

variable {m : Memory} {v : Visit} {resp : HttpResponse} {session : ℕ} {sessionId : Bytes}

theorem loadByCookie_stores (v : Visit) : Stores m (m.loadByCookie v).2 none := by
  rw [Memory.loadByCookie]
  by_cases hempty : getSessionIdFromCookie v.request = []
  · simp only [hempty, if_true]
    exact ⟨fun _ _ h => h, fun _ _ h => .inl h⟩
  · simp only [hempty, if_false]
    exact .load _ _

theorem load_some {now : ℤ} (h : (m.load sessionId now).1 = some session) :
    m.sessions.lookup sessionId = some session ∧ (m.load sessionId now).2 = m := by
  rw [Memory.load] at h ⊢
  cases hlookup : m.sessions.lookup sessionId with
  | none =>
    rw [hlookup] at h
    cases h
  | some other =>
    rw [hlookup] at h
    by_cases hexpired : m.isExpired other now
    · simp [hexpired] at h
    · simp only [hexpired, Bool.false_eq_true, if_false, Option.some.injEq] at h ⊢
      exact ⟨h, trivial⟩

theorem loadByCookie_some (h : (m.loadByCookie v).1 = some session) :
    m.sessions.lookup (getSessionIdFromCookie v.request) = some session ∧
      (m.loadByCookie v).2 = m := by
  rw [Memory.loadByCookie] at h ⊢
  by_cases hempty : getSessionIdFromCookie v.request = []
  · simp [hempty] at h
  · simp only [hempty, if_false] at h ⊢
    exact load_some (Option.filter_eq_some_iff.mp h).1

theorem refreshed_stores (now : ℤ) (h : m.idOf session = some sessionId) :
    ((m.modify session (Session.refresh now)).save session).idOf session = some sessionId ∧
      Stores m ((m.modify session (Session.refresh now)).save session) (some sessionId) := by
  have hrefresh : Stores m (m.modify session (Session.refresh now)) none := .modify fun _ => rfl
  have hid := hrefresh.ids _ _ h
  exact ⟨(Stores.save hid).ids _ _ hid, hrefresh.trans (.save hid)⟩

theorem getSession_new (h : (m.loadByCookie v).1 = none) :
    returnedId v resp m = some (generateSessionId v.draws) ∧
      Stores m (m.getSession v resp).2.2 (some (generateSessionId v.draws)) := by
  have hload := loadByCookie_stores (m := m) v
  rw [returnedId, Memory.getSession]
  rcases hm : m.loadByCookie v with ⟨found, m₁⟩
  rw [hm] at h hload
  obtain rfl : found = none := h
  have hid : Memory.idOf m₁.objects.length { m₁ with objects := m₁.objects ++
      [Session.make (generateSessionId v.draws) true 3600 (v.clock 2)] } =
      some (generateSessionId v.draws) := by
    simp [Memory.idOf, Session.make, Session.refresh]
  obtain ⟨hreturned, hstores⟩ := refreshed_stores (v.clock 3) hid
  exact ⟨hreturned, hload.trans ((Stores.append _).trans hstores)⟩

theorem getSession_found (h : (m.loadByCookie v).1 = some session)
    (hid : m.idOf session = some sessionId) :
    returnedId v resp m = some sessionId ∧
      Stores m (m.getSession v resp).2.2 (some sessionId) := by
  obtain ⟨_, hload⟩ := loadByCookie_some h
  rw [returnedId, Memory.getSession]
  rcases hm : m.loadByCookie v with ⟨found, m₁⟩
  rw [hm] at h hload
  obtain rfl : found = some session := h
  obtain rfl : m₁ = m := hload
  have hmanager : Stores m₁ (m₁.modify session fun s => { s with hasManager := true }) none :=
    .modify fun _ => rfl
  obtain ⟨hreturned, hstores⟩ := refreshed_stores (v.clock 3) (hmanager.ids _ _ hid)
  exact ⟨hreturned, hmanager.trans hstores⟩

theorem setValue_stores (key value : Bytes) (h : m.idOf session = some sessionId) :
    Stores m (m.setValue session key value) (some sessionId) := by
  rw [Memory.setValue]
  have hmodify : Stores m (m.modify session fun s => { s with data := s.data.insert key value })
    none := .modify fun _ => rfl
  split
  · exact hmodify.trans (.save (hmodify.ids _ _ h))
  · exact hmodify.trans ⟨fun _ _ h => h, fun _ _ h => .inl h⟩

end Steps

/-- What is stored lies under its own id, and nothing that was destroyed is stored. -/
structure Buried (dead : List Bytes) (m : Memory) : Prop where
  keyed : ∀ sessionId session, m.sessions.lookup sessionId = some session →
    m.idOf session = some sessionId
  gone : ∀ sessionId ∈ dead, m.sessions.lookup sessionId = none

section Runs

variable {dead : List Bytes} {m m' : Memory} {saved : Option Bytes} {e : Event}
  {steps : List (Memory × Event × Memory)} {v : Visit} {resp : HttpResponse} {session : ℕ}

theorem Buried.kept (h : Buried dead m) (hstores : Stores m m' saved)
    (hsaved : ∀ sessionId ∈ saved, sessionId ∉ dead) : Buried dead m' := by
  constructor
  · intro sessionId session hlookup
    rcases hstores.entries _ _ hlookup with hlookup | ⟨_, hid⟩
    · exact hstores.ids _ _ (h.keyed _ _ hlookup)
    · exact hid
  · intro sessionId hdead
    apply Option.eq_none_iff_forall_ne_some.mpr
    intro session hlookup
    rcases hstores.entries _ _ hlookup with hlookup | ⟨hid, _⟩
    · rw [h.gone _ hdead] at hlookup
      cases hlookup
    · exact hsaved _ hid hdead

theorem Buried.modify {f : Session → Session} (h : Buried dead m)
    (hf : ∀ s, (f s).sessionId = s.sessionId) : Buried dead (m.modify session f) := by
  apply h.kept (Stores.modify hf)
  intro sessionId hsaved
  cases hsaved

theorem Buried.destroy (h : Buried dead m) (sessionId : Bytes) :
    Buried (dead ++ [sessionId]) (m.destroySession sessionId) := by
  have hkept : Buried dead (m.destroySession sessionId) := by
    apply h.kept (Stores.erase sessionId)
    intro otherId hsaved
    cases hsaved
  constructor
  · exact hkept.keyed
  · intro otherId hdead
    rcases List.mem_append.mp hdead with hdead | hdead
    · exact hkept.gone _ hdead
    · obtain rfl := List.mem_singleton.mp hdead
      exact AList.lookup_erase _ _

/-- A careful getSession returns a session that was not destroyed. -/
theorem Buried.getSession (h : Buried dead m) (hcareful : Careful dead m (.getSession v resp)) :
    ∃ sessionId ∉ dead, returnedId v resp m = some sessionId ∧
      Stores m (m.getSession v resp).2.2 (some sessionId) := by
  cases hload : (m.loadByCookie v).1 with
  | none => exact ⟨_, hcareful hload, getSession_new hload⟩
  | some session =>
    have hlookup := (loadByCookie_some hload).1
    refine ⟨_, ?_, getSession_found hload (h.keyed _ _ hlookup)⟩
    intro hdead
    rw [h.gone _ hdead] at hlookup
    cases hlookup

theorem Buried.step (h : Buried dead m) (hcareful : Careful dead m e) (hstep : Step m e m') :
    Buried (dead ++ (destroyedBy e).toList) m' := by
  cases e with
  | getSession v resp =>
    obtain rfl := Option.some.inj hstep
    obtain ⟨sessionId, hfresh, _, hstores⟩ := h.getSession hcareful
    simpa [destroyedBy] using h.kept hstores fun _ hid => Option.some.inj hid ▸ hfresh
  | setValue session key value =>
    obtain ⟨hlt, hm'⟩ := Option.ite_none_right_eq_some.mp hstep
    obtain rfl := Option.some.inj hm'
    obtain ⟨sessionId, hid⟩ := idOf_of_lt hlt
    simpa [destroyedBy] using h.kept (setValue_stores key value hid) fun _ hsaved =>
      hcareful _ (hid.trans hsaved)
  | remove session key =>
    obtain ⟨_, hm'⟩ := Option.ite_none_right_eq_some.mp hstep
    obtain rfl := Option.some.inj hm'
    change Buried (dead ++ []) _
    rw [List.append_nil]
    exact h.modify fun _ => rfl
  | clear session =>
    obtain ⟨_, hm'⟩ := Option.ite_none_right_eq_some.mp hstep
    obtain rfl := Option.some.inj hm'
    change Buried (dead ++ []) _
    rw [List.append_nil]
    exact h.modify fun _ => rfl
  | destroySession sessionId =>
    obtain rfl := Option.some.inj hstep
    exact h.destroy sessionId

theorem destroyed_snoc (t : Memory × Event × Memory) :
    destroyed (steps ++ [t]) = destroyed steps ++ (destroyedBy t.2.1).toList := by
  rw [destroyed, List.filterMap_append]
  congr 1

theorem buried_of_path (h : Path Step .empty steps m)
    (hcareful : AtEach (fun before t => Careful (destroyed before) t.1 t.2.1) steps) :
    Buried (destroyed steps) m := by
  induction h with
  | start =>
    constructor
    · intro sessionId session hlookup
      cases hlookup
    · intro sessionId hdead
      cases hdead
  | snoc _ hlast ih =>
    obtain ⟨hbefore, hthis⟩ := atEach_snoc.mp hcareful
    rw [destroyed_snoc]
    exact (ih hbefore).step hthis hlast

/-- In a run whose steps are all careful a destroyed session stays dead. -/
theorem returnsLive_of_careful (h : Path Step .empty steps m)
    (hcareful : AtEach (fun before t => Careful (destroyed before) t.1 t.2.1) steps) :
    AtEach ReturnsLive steps := by
  induction h with
  | start => exact atEach_nil
  | snoc hpath hlast ih =>
    obtain ⟨hbefore, hthis⟩ := atEach_snoc.mp hcareful
    refine atEach_snoc.mpr ⟨ih hbefore, ?_⟩
    rintro v resp rfl sessionId hdead hreturned
    obtain ⟨liveId, hlive, hid, _⟩ := (buried_of_path hpath hbefore).getSession hthis
    rw [hid] at hreturned
    obtain rfl := Option.some.inj hreturned
    exact hlive hdead

theorem objects_save (m : Memory) (session : ℕ) : (m.save session).objects = m.objects := by
  rw [Memory.save]
  cases m.idOf session <;> rfl

theorem any_setValue {p : Session → Bool} (key value : Bytes)
    (hp : ∀ s : Session, p { s with data := s.data.insert key value } = p s) :
    (m.setValue session key value).objects[session]?.any p = m.objects[session]?.any p := by
  have hmodify : (m.modify session fun s =>
      { s with data := s.data.insert key value }).objects[session]?.any p =
      m.objects[session]?.any p := by
    simp only [Memory.modify, List.getElem?_modify_eq, Option.map_eq_map]
    cases m.objects[session]? with
    | none => rfl
    | some s => exact hp s
  rw [Memory.setValue]
  split
  · rw [Memory.updateSession, objects_save, hmodify]
  · exact hmodify

/-- A write through a handle stores its session again, whether or not it was destroyed. -/
theorem setValue_revives {key value : Bytes}
    (hid : m.idOf session = some (getSessionIdFromCookie v.request))
    (hcookie : getSessionIdFromCookie v.request ≠ []) (hmanager : m.hasManager session)
    (hload : m.isExpired session (v.clock 0) = false)
    (hget : m.isExpired session (v.clock 1) = false) :
    returnedId v resp (m.setValue session key value) =
      some (getSessionIdFromCookie v.request) := by
  have hstores := setValue_stores key value hid
  have hlookup : (m.setValue session key value).sessions.lookup
      (getSessionIdFromCookie v.request) = some session := by
    have hmodify : Stores m (m.modify session fun s =>
        { s with data := s.data.insert key value }) none := .modify fun _ => rfl
    rw [Memory.setValue, if_pos, Memory.updateSession, lookup_save (hmodify.ids _ _ hid),
      if_pos rfl]
    rw [← hmanager]
    simp only [Memory.hasManager, Memory.modify, List.getElem?_modify_eq, Option.map_eq_map,
      Option.any_map]
  have hexpired (now : ℤ) : (m.setValue session key value).isExpired session now =
      m.isExpired session now := any_setValue key value fun _ => rfl
  have hfound : ((m.setValue session key value).loadByCookie v).1 = some session := by
    simp only [Memory.loadByCookie, if_neg hcookie, Memory.load, hlookup, hexpired, hload,
      Bool.false_eq_true, if_false, Option.filter_some, hget, Bool.not_false, if_true]
  exact (getSession_found hfound (hstores.ids _ _ hid)).1

def Issued (m : Memory) : Prop :=
  ∀ o ∈ m.objects, o.hasManager ∧ ∃ draws, o.sessionId = generateSessionId draws

theorem Issued.modify {f : Session → Session} (h : Issued m)
    (hf : ∀ s, (f s).sessionId = s.sessionId ∧ (s.hasManager → (f s).hasManager)) :
    Issued (m.modify session f) := by
  intro o ho
  obtain ⟨i, ho⟩ := List.mem_iff_getElem?.mp ho
  simp only [Memory.modify, List.getElem?_modify, Option.map_eq_map, Option.map_eq_some_iff] at ho
  obtain ⟨s, hs, rfl⟩ := ho
  obtain ⟨hmanager, hid⟩ := h s (List.mem_of_getElem? hs)
  by_cases heq : session = i
  · rw [if_pos heq, (hf s).1]
    exact ⟨(hf s).2 hmanager, hid⟩
  · rw [if_neg heq]
    exact ⟨hmanager, hid⟩

theorem Issued.of_objects (h : Issued m) (hobjects : m'.objects = m.objects) : Issued m' := by
  simp only [Issued, hobjects]
  exact h

theorem Issued.refreshed (h : Issued m) (session : ℕ) (now : ℤ) :
    Issued ((m.modify session (Session.refresh now)).save session) := by
  have hrefresh : Issued (m.modify session (Session.refresh now)) := h.modify fun _ => ⟨rfl, id⟩
  exact hrefresh.of_objects (objects_save _ _)

theorem objects_loadByCookie (v : Visit) : (m.loadByCookie v).2.objects = m.objects := by
  simp only [Memory.loadByCookie]
  by_cases hempty : getSessionIdFromCookie v.request = []
  · simp [hempty]
  · simp only [hempty, if_false, Memory.load]
    split
    · rfl
    · split <;> rfl

theorem Issued.getSession (h : Issued m) : Issued (m.getSession v resp).2.2 := by
  have hload : Issued (m.loadByCookie v).2 := h.of_objects (objects_loadByCookie v)
  rw [Memory.getSession]
  rcases hm : m.loadByCookie v with ⟨_ | session, m₁⟩
  · rw [hm] at hload
    apply Issued.refreshed
    intro o ho
    rcases List.mem_append.mp ho with ho | ho
    · exact hload o ho
    · obtain rfl := List.mem_singleton.mp ho
      exact ⟨rfl, v.draws, rfl⟩
  · rw [hm] at hload
    apply Issued.refreshed
    exact hload.modify fun s => ⟨rfl, fun _ => rfl⟩

theorem Issued.step (h : Issued m) (hstep : Step m e m') : Issued m' := by
  cases e with
  | getSession v resp =>
    obtain rfl := Option.some.inj hstep
    exact h.getSession
  | setValue session key value =>
    obtain ⟨_, hm'⟩ := Option.ite_none_right_eq_some.mp hstep
    obtain rfl := Option.some.inj hm'
    have hmodify : Issued (m.modify session fun s => { s with data := s.data.insert key value }) :=
      h.modify fun _ => ⟨rfl, id⟩
    rw [Memory.setValue]
    split
    · exact hmodify.of_objects (objects_save _ _)
    · exact hmodify
  | remove session key =>
    obtain ⟨_, hm'⟩ := Option.ite_none_right_eq_some.mp hstep
    obtain rfl := Option.some.inj hm'
    exact h.modify fun _ => ⟨rfl, id⟩
  | clear session =>
    obtain ⟨_, hm'⟩ := Option.ite_none_right_eq_some.mp hstep
    obtain rfl := Option.some.inj hm'
    exact h.modify fun _ => ⟨rfl, id⟩
  | destroySession sessionId =>
    obtain rfl := Option.some.inj hstep
    exact h

theorem issued_of_path (h : Path Step .empty steps m) : Issued m := by
  induction h with
  | start =>
    intro o ho
    cases ho
  | snoc _ hlast ih => exact ih.step hlast

def visitWith (sessionId : Bytes) (now : ℤ) : Visit where
  request := { headers := .insert .empty (ascii "Cookie") (ascii "sessionId=" ++ sessionId) }
  clock _ := now
  draws _ := 0

theorem getSessionIdFromCookie_visitWith {sessionId : Bytes} (h : (59 : UInt8) ∉ sessionId)
    (now : ℤ) : getSessionIdFromCookie (visitWith sessionId now).request = sessionId := by
  have hheader : (visitWith sessionId now).request.getHeader (ascii "Cookie") =
      ascii "sessionId=" ++ sessionId := by
    simp [visitWith, HttpRequest.getHeader, OrderedMaps.OrderedMap.find?_insert]
  have hfound : (ascii "sessionId=" ++ sessionId).tails.find? (ascii "sessionId=").isPrefixOf =
      some (ascii "sessionId=" ++ sessionId) := by
    change (_ :: (List.tails _)).find? _ = _
    apply List.find?_cons_of_pos
    exact List.isPrefixOf_iff_prefix.mpr (List.prefix_append _ _)
  rw [getSessionIdFromCookie, hheader, hfound]
  simp only [List.drop_left]
  exact takeWhile_ne h

theorem semicolon_not_mem (draws : ℕ → Fin 16) : (59 : UInt8) ∉ generateSessionId draws := by
  have hall : ∀ i < 16, hexDigit i ≠ 59 := by decide
  intro hmem
  obtain ⟨i, _, hi⟩ := List.mem_map.mp hmem
  exact hall _ (draws i).isLt hi

/-- In a run whose steps are all careful a destroyed session stays dead, and a write through any
handle makes the next request with its cookie find its session, though it be destroyed. -/
theorem destroyed_stays_dead (h : Path Step .empty steps m) :
    (AtEach (fun before t => Careful (destroyed before) t.1 t.2.1) steps →
      AtEach ReturnsLive steps) ∧
    ∀ session sessionId, m.idOf session = some sessionId → ∃ v, ∀ key value resp,
      returnedId v resp (m.setValue session key value) = some sessionId := by
  refine ⟨returnsLive_of_careful h, ?_⟩
  intro session sessionId hid
  obtain ⟨o, ho, rfl⟩ := Option.map_eq_some_iff.mp hid
  obtain ⟨hmanager, draws, hdraws⟩ := issued_of_path h o (List.mem_of_getElem? ho)
  have hcookie := getSessionIdFromCookie_visitWith (hdraws ▸ semicolon_not_mem draws) o.expiryTime
  have hlive : m.isExpired session o.expiryTime = false := by
    simp [Memory.isExpired, ho, Session.isExpired]
  refine ⟨visitWith o.sessionId o.expiryTime, ?_⟩
  intro key value resp
  rw [setValue_revives (hcookie.symm ▸ hid) _ _ hlive hlive, hcookie]
  · rw [hcookie, hdraws]
    simp [generateSessionId]
  · rw [Memory.hasManager, ho]
    exact hmanager

end Runs

section Demo

def demoVisit (cookie : Bytes) (digit : Fin 16) : Visit where
  request := { headers := .insert .empty (ascii "Cookie") cookie }
  clock _ := 0
  draws _ := digit

def demoId : Bytes := generateSessionId fun _ => 10

def demoCookie : Bytes := ascii "theme=dark; sessionId=" ++ demoId

/-- The first request writes to its session after the logout. -/
def lateWrite : List Event :=
  [.getSession (demoVisit [] 10) {}, .destroySession demoId,
    .setValue 0 (ascii "cart") (ascii "42"), .getSession (demoVisit demoCookie 11) {}]

theorem destroyed_session_returns : ∃ m, Path Step .empty (trace next .empty lateWrite) m ∧
    ¬ AtEach ReturnsLive (trace next .empty lateWrite) := by
  have hdone : (lateWrite.foldlM next .empty).isSome := by decide
  obtain ⟨m, hm⟩ := Option.isSome_iff_exists.mp hdone
  refine ⟨m, Path.of_foldlM hm, ?_⟩
  intro h
  have hlast := atEach_iff.mp h ⟨3, by decide⟩ (demoVisit demoCookie 11) {} rfl demoId (by decide)
  exact hlast (by decide)

def earlyWrite : List Event :=
  [.getSession (demoVisit [] 10) {}, .setValue 0 (ascii "cart") (ascii "42"),
    .destroySession demoId, .clear 0, .getSession (demoVisit demoCookie 11) {}]

theorem destroyed_stays_dead_earlyWrite : ∃ m, Path Step .empty (trace next .empty earlyWrite) m ∧
    AtEach ReturnsLive (trace next .empty earlyWrite) := by
  have hdone : (earlyWrite.foldlM next .empty).isSome := by decide
  obtain ⟨m, hm⟩ := Option.isSome_iff_exists.mp hdone
  have hcareful : AtEach (fun before t => Careful (destroyed before) t.1 t.2.1)
      (trace next .empty earlyWrite) := by decide
  exact ⟨m, Path.of_foldlM hm, (destroyed_stays_dead (Path.of_foldlM hm)).1 hcareful⟩

end Demo

end FrameworkSessions
