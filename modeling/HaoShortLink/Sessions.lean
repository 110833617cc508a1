import HaoShortLink.AuthServices
import HaoShortLink.Leases
import HaoShortLink.MemoryShortLinks

/-! The sessions of AuthService over the in-memory repository, over whole histories of calls. -/
namespace Sessions

open Cpp Actions Action AuthRepositories AuthServices ServerStates ServerStates.Server Histories
open Leases

/-- A call with what it returned. -/
inductive Exchange where
  | registerUser (username password : Bytes) (result : Result)
  | login (username password : Bytes) (result : Result)
  | authenticate (token : Bytes) (user : Option User)
  | logout (token : Bytes)
  deriving DecidableEq

/-- The clock stands still during the call; it shows milliseconds. -/
structure Event where
  clock : ℤ
  exchange : Exchange
  deriving DecidableEq

def Event.now (e : Event) : ℤ := e.clock.tdiv 1000

def Event.session (e : Event) : Option AuthenticatedSession :=
  match e.exchange with
  | .registerUser _ _ result | .login _ _ result =>
    if result.status = .success then result.session else none
  | _ => none

def Event.tokens (e : Event) : List Bytes :=
  match e.exchange with
  | .authenticate token _ | .logout token => [token]
  | _ => (e.session.map AuthenticatedSession.token).toList

variable {L : Type} (api : ShortLinkHttpApi MemoryAuthRepository L)

def overMemory : ShortLinkHttpApi MemoryAuthRepository L :=
  { api with authRepository := MemoryAuthRepository.repository }

def Performs (s : ServerState MemoryAuthRepository L) :
    Exchange → ServerState MemoryAuthRepository L → Prop
  | .registerUser username password result, s' =>
    (registerUser (overMemory api) username password).run s = (.ok result, s')
  | .login username password result, s' =>
    (login (overMemory api) username password).run s = (.ok result, s')
  | .authenticate token user, s' => (authenticate (overMemory api) token).run s = (.ok user, s')
  | .logout token, s' => (logout (overMemory api) token).run s = (.ok (), s')

/-- RAND_bytes gives anything, or fails. -/
def Step (s : ServerState MemoryAuthRepository L) (e : Event)
    (s' : ServerState MemoryAuthRepository L) : Prop :=
  ∃ random, Performs api { s with clock := fun _ => e.clock, random := random } e.exchange s'

variable {api} {s s' : ServerState MemoryAuthRepository L} {c : ℤ}

theorem nowEpochSeconds_returns (hclock : s.clock = fun _ => c) :
    Returns (fun now s' => now = c.tdiv 1000 ∧ s'.auth = s.auth ∧ s'.clock = fun _ => c)
      nowEpochSeconds s := by
  refine ⟨_, _, rfl, ?_, rfl, ?_⟩
  · rw [hclock]
  · simp only [hclock]

theorem randBytes_returns (count : ℕ) (hclock : s.clock = fun _ => c) :
    Returns (fun bytes s' => (∀ b ∈ bytes, b.length = count) ∧ s'.auth = s.auth ∧
      s'.clock = fun _ => c) (randBytes count) s := by
  refine ⟨_, _, rfl, ?_, rfl, hclock⟩
  intro b hb
  obtain ⟨byte, _, rfl⟩ := Option.map_eq_some_iff.mp hb
  simp

/-- A session for the user, or none where the token or its digest cannot be made. -/
def NewSession (api : ShortLinkHttpApi MemoryAuthRepository L) (now : ℤ) (user : User)
    (r : MemoryAuthRepository) (session : Option AuthenticatedSession)
    (r' : MemoryAuthRepository) : Prop :=
  (session = none ∧ r' = r) ∨ ∃ token, token.length = 64 ∧
    session = some ⟨user, token, now + api.sessionTtlSeconds⟩ ∧
    r' = r.createSession user.id (tokenHash api token) (now + api.sessionTtlSeconds)

theorem createSession_returns (user : User) (hclock : s.clock = fun _ => c) :
    Returns (fun session s' => NewSession api (c.tdiv 1000) user s.auth session s'.auth)
      (createSession (overMemory api) user) s := by
  refine .bind (.bind ((randBytes_returns 32 hclock).mono ?_))
  rintro bytes s₁ ⟨hlength, hauth, hclock₁⟩
  refine .pure ?_
  cases bytes with
  | none => exact .pure (.inl ⟨rfl, hauth⟩)
  | some bytes =>
    refine .bind ((nowEpochSeconds_returns hclock₁).mono ?_)
    rintro _ s₂ ⟨rfl, hauth₂, _⟩
    rw [hauth] at hauth₂
    dsimp only
    split
    · exact .pure (.inl ⟨rfl, hauth₂⟩)
    · refine .bind ⟨_, _, rfl, .pure (.inr ⟨toHex bytes, ?_, rfl, ?_⟩)⟩
      · rw [toHex_length, hlength bytes rfl]
      · rw [← hauth₂]
        rfl

theorem createUser_returns (username normalizedUsername passwordHash : Bytes) (now : ℤ) :
    Returns (fun created s' => s.auth.createUser username normalizedUsername passwordHash now =
        (created, s'.auth) ∧ s'.clock = s.clock)
      (updateAuth ((overMemory api).authRepository.createUser username normalizedUsername
        passwordHash now)) s :=
  ⟨_, _, rfl, rfl, rfl⟩

theorem registerUser_returns (username password : Bytes) (hclock : s.clock = fun _ => c) :
    Returns (fun result s' => (result.status ≠ .success ∧ s'.auth = s.auth) ∨
        ∃ passwordHash user r session, s.auth.createUser username (normalizeUsername username)
          passwordHash (c.tdiv 1000) = (⟨.created, some user⟩, r) ∧
          result = sessionResult session ∧
          NewSession api (c.tdiv 1000) user r session s'.auth)
      (registerUser (overMemory api) username password) s := by
  simp only [registerUser]
  split
  · exact .pure (.inl ⟨by simp, rfl⟩)
  split
  · exact .pure (.inl ⟨by simp, rfl⟩)
  refine .bind (.bind ((randBytes_returns kSaltBytes hclock).mono ?_))
  rintro salt s₁ ⟨_, hauth, hclock₁⟩
  refine .pure ?_
  split
  · exact .pure (.inl ⟨by simp, hauth⟩)
  · next passwordHash _ =>
    refine .bind ((nowEpochSeconds_returns hclock₁).mono ?_)
    rintro _ s₂ ⟨rfl, hauth₂, hclock₂⟩
    rw [hauth] at hauth₂
    refine .bind ((createUser_returns _ _ _ _).mono ?_)
    rintro created s₃ ⟨hcreated, hclock₃⟩
    rw [hauth₂] at hcreated
    rcases MemoryAuthRepository.createUser_cases username (normalizeUsername username) passwordHash
      (c.tdiv 1000) s.auth with hconflict | ⟨user, r, hnew, _⟩
    · obtain ⟨rfl, hauth₃⟩ := Prod.mk.inj (hcreated.symm.trans hconflict)
      exact .pure (.inl ⟨by simp, hauth₃⟩)
    · obtain ⟨rfl, hauth₃⟩ := Prod.mk.inj (hcreated.symm.trans hnew)
      refine .bind ((createSession_returns user (hclock₃.trans hclock₂)).mono ?_)
      intro session s₄ hsession
      rw [hauth₃] at hsession
      exact .pure (.inr ⟨passwordHash, user, r, session, hnew, rfl, hsession⟩)

theorem login_returns (username password : Bytes) (hclock : s.clock = fun _ => c) :
    Returns (fun result s' => (result.status ≠ .success ∧ s'.auth = s.auth) ∨
        ∃ credentials session,
          s.auth.findCredentials (normalizeUsername username) = some credentials ∧
          result = sessionResult session ∧
          NewSession api (c.tdiv 1000) credentials.user s.auth session s'.auth)
      (login (overMemory api) username password) s := by
  refine .bind ⟨_, _, rfl, ?_⟩
  dsimp only
  split
  · exact .pure (.inl ⟨by simp, rfl⟩)
  · next credentials hcredentials =>
    split
    · exact .pure (.inl ⟨by simp, rfl⟩)
    · refine .bind ((createSession_returns credentials.user hclock).mono ?_)
      intro session s₁ hsession
      exact .pure (.inr ⟨credentials, session, hcredentials, rfl, hsession⟩)

theorem authenticate_returns (token : Bytes) (hclock : s.clock = fun _ => c) :
    Returns (fun user s' => s'.auth = s.auth ∧ user = if token.length = 64 then
        s.auth.findUserBySession (tokenHash api token) (c.tdiv 1000) else none)
      (authenticate (overMemory api) token) s := by
  simp only [authenticate]
  by_cases htoken : token.length = 64
  · simp only [if_pos htoken]
    rw [if_neg (not_not.mpr htoken)]
    refine .bind ((nowEpochSeconds_returns hclock).mono ?_)
    rintro _ s₁ ⟨rfl, hauth, _⟩
    exact ⟨_, _, rfl, hauth, by rw [← hauth]; rfl⟩
  · rw [if_pos htoken, if_neg htoken]
    exact .pure ⟨rfl, rfl⟩

theorem logout_returns (token : Bytes) (hclock : s.clock = fun _ => c) :
    Returns (fun _ s' => s'.auth = if token.length = 64 then
        s.auth.revokeSession (tokenHash api token) (c.tdiv 1000) else s.auth)
      (logout (overMemory api) token) s := by
  simp only [logout]
  split
  · refine .bind ((nowEpochSeconds_returns hclock).mono ?_)
    rintro _ s₁ ⟨rfl, hauth, _⟩
    exact ⟨_, _, rfl, by rw [← hauth]; rfl⟩
  · exact .pure rfl

def Event.isRegistration (e : Event) : Bool :=
  match e.exchange with
  | .registerUser .. => true
  | _ => false

/-- The registerUser calls, failed ones too. -/
def registrations (events : List Event) : ℕ := events.countP Event.isRegistration

/-- A registration may have added a user, under the next id. -/
inductive Grows (e : Event) (r : MemoryAuthRepository) : MemoryAuthRepository → Prop where
  | same : Grows e r r
  | created {r'} (stored : StoredUser) : e.isRegistration → stored.user.id = r.nextUserId →
      stored.user.status = .active → r'.users = r.users.insert r.nextUserId stored →
      r'.sessions = r.sessions → r'.nextUserId = (r.nextUserId + 1) % 2 ^ 64 → Grows e r r'

inductive Change (api : ShortLinkHttpApi MemoryAuthRepository L) (r : MemoryAuthRepository)
    (e : Event) (r' : MemoryAuthRepository) : Prop where
  | quiet : e.session = none → (∀ token, e.exchange = .logout token → token.length ≠ 64) →
      Grows e r r' → Change api r e r'
  | opens (session : AuthenticatedSession) (r₁ : MemoryAuthRepository) (stored : StoredUser) :
      Grows e r r₁ → e.session = some session → (∀ token, e.exchange ≠ .logout token) →
      session.token.length = 64 → r₁.users.lookup session.user.id = some stored →
      stored.user = session.user →
      r' = r₁.createSession session.user.id (tokenHash api session.token)
        (e.now + api.sessionTtlSeconds) → Change api r e r'
  | ends (token : Bytes) : e.exchange = .logout token → token.length = 64 →
      r' = r.revokeSession (tokenHash api token) e.now → Change api r e r'

/-- The counter has given out n ids. -/
structure UsersKept (n : ℕ) (r : MemoryAuthRepository) : Prop where
  nextUserId : r.nextUserId = (n + 1) % 2 ^ 64
  users : ∀ id stored, r.users.lookup id = some stored →
    stored.user.id = id ∧ stored.user.status = .active ∧ ∃ i < n, id = (i + 1) % 2 ^ 64
  sessions : ∀ digest session, r.sessions.lookup digest = some session →
    (r.users.lookup session.userId).isSome

variable {e : Event} {r r₁ r' : MemoryAuthRepository} {n : ℕ} {token : Bytes} {now : ℤ}

theorem createUser_grows {username normalizedUsername passwordHash : Bytes} {user : User}
    (he : e.isRegistration)
    (h : r.createUser username normalizedUsername passwordHash now = (⟨.created, some user⟩, r')) :
    Grows e r r' ∧ ∃ stored, r'.users.lookup user.id = some stored ∧ stored.user = user := by
  rcases MemoryAuthRepository.createUser_cases username normalizedUsername passwordHash now r with
    hconflict | ⟨user', r₂, hnew, huser, husers, hsessions, hnext⟩
  · cases hconflict.symm.trans h
  · obtain ⟨hresult, rfl⟩ := Prod.mk.inj (hnew.symm.trans h)
    obtain rfl : user' = user := by simpa using hresult
    refine ⟨.created ⟨user', normalizedUsername, passwordHash⟩ he ?_ ?_ ?_ hsessions hnext,
      ⟨user', normalizedUsername, passwordHash⟩, ?_, rfl⟩
    · rw [huser]
    · rw [huser]
    · rw [husers, huser]
    · rw [husers, AList.lookup_insert]

theorem findCredentials_user {normalizedUsername : Bytes} {credentials : Credentials}
    (hr : UsersKept n r) (h : r.findCredentials normalizedUsername = some credentials) :
    ∃ stored, r.users.lookup credentials.user.id = some stored ∧
      stored.user = credentials.user := by
  obtain ⟨stored, hstored, rfl⟩ := Option.map_eq_some_iff.mp h
  obtain ⟨id, _, hlookup⟩ := Option.bind_eq_some_iff.mp hstored
  refine ⟨stored, ?_, rfl⟩
  rw [(hr.users id stored hlookup).1]
  exact hlookup

theorem newSession_change {user : User} {stored : StoredUser}
    {session : Option AuthenticatedSession} (hgrows : Grows e r r₁)
    (hlookup : r₁.users.lookup user.id = some stored) (huser : stored.user = user)
    (hsession : e.session = session) (hlogout : ∀ token, e.exchange ≠ .logout token)
    (h : NewSession api e.now user r₁ session r') : Change api r e r' := by
  rcases h with ⟨rfl, rfl⟩ | ⟨token, hlength, rfl, hr'⟩
  · exact .quiet hsession (fun token h => absurd h (hlogout token)) hgrows
  · exact .opens _ r₁ stored hgrows hsession hlogout hlength hlookup huser hr'

theorem session_of_result {result : Result} {session : Option AuthenticatedSession}
    (h : result = sessionResult session) :
    (if result.status = .success then result.session else none) = session := by
  subst h
  cases session <;> rfl

theorem step_change (h : Step api s e s') (hs : UsersKept n s.auth) :
    Change api s.auth e s'.auth := by
  obtain ⟨random, h⟩ := h
  rcases e with ⟨c, exchange⟩
  cases exchange with
  | registerUser username password result =>
    rcases (registerUser_returns username password rfl).of_run h with ⟨hfailed, hauth⟩ |
      ⟨passwordHash, user, r, session, hcreated, hresult, hnew⟩
    · rw [hauth]
      exact .quiet (if_neg hfailed) (by simp) .same
    · obtain ⟨hgrows, stored, hlookup, huser⟩ :=
        createUser_grows (e := ⟨c, .registerUser username password result⟩) rfl hcreated
      exact newSession_change hgrows hlookup huser (session_of_result hresult) (by simp) hnew
  | login username password result =>
    rcases (login_returns username password rfl).of_run h with ⟨hfailed, hauth⟩ |
      ⟨credentials, session, hcredentials, hresult, hnew⟩
    · rw [hauth]
      exact .quiet (if_neg hfailed) (by simp) .same
    · obtain ⟨stored, hlookup, huser⟩ := findCredentials_user hs hcredentials
      exact newSession_change .same hlookup huser (session_of_result hresult) (by simp) hnew
  | authenticate token user =>
    rw [((authenticate_returns token rfl).of_run h).1]
    exact .quiet rfl (by simp) .same
  | logout token =>
    have hauth := (logout_returns token rfl).of_run h
    split at hauth
    · next hlength => exact .ends token rfl hlength hauth
    · next hlength =>
      rw [hauth]
      refine .quiet rfl (?_) .same
      intro token' htoken
      obtain rfl := Exchange.logout.inj htoken
      exact hlength

theorem lookup_sessions_insert {digest digest' : Bytes} {session : Session} :
    (r.sessions.insert digest session).lookup digest' =
      if digest' = digest then some session else r.sessions.lookup digest' := by
  by_cases hdigest : digest' = digest
  · rw [if_pos hdigest, hdigest, AList.lookup_insert]
  · rw [if_neg hdigest, AList.lookup_insert_ne hdigest]

theorem grows_lookup (hs : UsersKept n r) (hn : n + registrations [e] ≤ 2 ^ 64)
    (h : Grows e r r') {id : ℕ} {stored : StoredUser} (hstored : r.users.lookup id = some stored) :
    r'.users.lookup id = some stored := by
  cases h with
  | same => exact hstored
  | created _ he _ _ husers _ _ =>
    rw [registrations, List.countP_singleton, if_pos he] at hn
    rw [husers, AList.lookup_insert_ne, hstored]
    obtain ⟨i, hi, hid⟩ := (hs.users id stored hstored).2.2
    rw [hid, hs.nextUserId]
    omega

theorem grows_kept (hs : UsersKept n r) (hn : n + registrations [e] ≤ 2 ^ 64)
    (h : Grows e r r') : ∃ m ≤ n + registrations [e], UsersKept m r' := by
  have hkept {id : ℕ} {stored : StoredUser} (hstored : r.users.lookup id = some stored) :=
    grows_lookup hs hn h hstored
  cases h with
  | same => exact ⟨n, by omega, hs⟩
  | created stored he hid hactive husers hsessions hnext =>
    refine ⟨n + 1, by rw [registrations, List.countP_singleton, if_pos he], ?_,
      fun id found hfound => ?_, fun digest session hsession => ?_⟩
    · rw [hnext, hs.nextUserId, Nat.mod_add_mod]
    · by_cases hnew : id = r.nextUserId
      · rw [husers, hnew, AList.lookup_insert] at hfound
        obtain rfl := Option.some.inj hfound
        exact ⟨hid.trans hnew.symm, hactive, n, by omega, hnew.trans hs.nextUserId⟩
      · rw [husers, AList.lookup_insert_ne hnew] at hfound
        obtain ⟨hid', hactive', i, hi, hgiven⟩ := hs.users id found hfound
        exact ⟨hid', hactive', i, by omega, hgiven⟩
    · rw [hsessions] at hsession
      obtain ⟨found, hfound⟩ := Option.isSome_iff_exists.mp (hs.sessions digest session hsession)
      rw [hkept hfound]
      rfl

theorem createSession_kept (hs : UsersKept n r) {userId : ℕ} {stored : StoredUser}
    (hstored : r.users.lookup userId = some stored) (digest : Bytes) (expiresAt : ℤ) :
    UsersKept n (r.createSession userId digest expiresAt) := by
  refine ⟨hs.nextUserId, hs.users, ?_⟩
  intro digest' session hsession
  simp only [MemoryAuthRepository.createSession, lookup_sessions_insert] at hsession ⊢
  split_ifs at hsession with hdigest
  · obtain rfl := Option.some.inj hsession
    rw [hstored]
    rfl
  · exact hs.sessions digest' session hsession

theorem revokeSession_kept (hs : UsersKept n r) (digest : Bytes) (revokedAt : ℤ) :
    UsersKept n (r.revokeSession digest revokedAt) := by
  cases hfound : r.sessions.lookup digest with
  | none =>
    simp only [MemoryAuthRepository.revokeSession, hfound]
    exact hs
  | some found =>
    simp only [MemoryAuthRepository.revokeSession, hfound]
    refine ⟨hs.nextUserId, hs.users, ?_⟩
    intro digest' session hsession
    simp only [lookup_sessions_insert] at hsession
    split_ifs at hsession with hdigest
    · obtain rfl := Option.some.inj hsession
      exact hs.sessions digest found hfound
    · exact hs.sessions digest' session hsession

theorem change_kept (h : Change api r e r') (hs : UsersKept n r)
    (hn : n + registrations [e] ≤ 2 ^ 64) : ∃ m ≤ n + registrations [e], UsersKept m r' := by
  cases h with
  | quiet _ _ hgrows => exact grows_kept hs hn hgrows
  | opens session r₁ stored hgrows _ _ _ hlookup _ hr' =>
    obtain ⟨m, hm, hkept⟩ := grows_kept hs hn hgrows
    rw [hr']
    exact ⟨m, hm, createSession_kept hkept hlookup _ _⟩
  | ends token _ _ hr' =>
    rw [hr']
    exact ⟨n, by omega, revokeSession_kept hs _ _⟩

def sessionLease (api : ShortLinkHttpApi MemoryAuthRepository L) (token : Bytes)
    (r : MemoryAuthRepository) : Option (Lease User) :=
  if token.length = 64 then
    (r.sessions.lookup (tokenHash api token)).bind fun session =>
      (r.users.lookup session.userId).map fun stored =>
        ⟨stored.user, session.expiresAt, session.revokedAt.isSome⟩
  else none

def terms (ttl : ℤ) (token : Bytes) : Terms Event User where
  opens e := (e.session.filter fun session => session.token = token).map fun session =>
    (session.user, e.now + ttl)
  ends e := e.exchange = .logout token

theorem session_token_mem {session : AuthenticatedSession} (h : e.session = some session) :
    session.token ∈ e.tokens := by
  rcases e with ⟨c, exchange⟩
  cases exchange with
  | registerUser | login => simp only [Event.tokens, h, Option.map_some, Option.toList_some,
      List.mem_singleton]
  | authenticate | logout => cases h

theorem terms_opens_none {ttl : ℤ} (h : ∀ session ∈ e.session, session.token ≠ token) :
    (terms ttl token).opens e = none := by
  simp only [terms, Option.map_eq_none_iff, Option.filter_eq_none_iff, decide_eq_true_eq]
  exact h

theorem findUserBySession_eq (hs : UsersKept n r) (htoken : token.length = 64) :
    r.findUserBySession (tokenHash api token) now =
      (sessionLease api token r).bind (Lease.holder now) := by
  simp only [MemoryAuthRepository.findUserBySession, sessionLease, if_pos htoken]
  cases hsession : r.sessions.lookup (tokenHash api token) with
  | none => rfl
  | some session =>
    obtain ⟨stored, hstored⟩ := Option.isSome_iff_exists.mp (hs.sessions _ _ hsession)
    have hactive := (hs.users _ _ hstored).2.1
    simp only [Option.bind_eq_bind, Option.bind_some, hstored, Option.map_some, hactive,
      Lease.holder, Option.isSome_eq_false_iff, Option.isNone_iff_eq_none]
    by_cases hvalid : session.revokedAt = none ∧ now < session.expiresAt
    · rw [if_pos hvalid, guard, if_pos hvalid]
      rfl
    · rw [if_neg hvalid, guard, if_neg hvalid]
      rfl

theorem grows_lease (hs : UsersKept n r) (hn : n + registrations [e] ≤ 2 ^ 64)
    (h : Grows e r r') :
    sessionLease api token r' = sessionLease api token r := by
  have hsessions : r'.sessions = r.sessions := by
    cases h with
    | same => rfl
    | created _ _ _ _ _ hsessions _ => exact hsessions
  simp only [sessionLease, hsessions]
  cases hsession : r.sessions.lookup (tokenHash api token) with
  | none => rfl
  | some session =>
    obtain ⟨stored, hstored⟩ := Option.isSome_iff_exists.mp (hs.sessions _ _ hsession)
    simp only [Option.bind_some, hstored, grows_lookup hs hn h hstored]

theorem createSession_lease {userId : ℕ} {stored : StoredUser}
    (hstored : r.users.lookup userId = some stored) (htoken : token.length = 64) (digest : Bytes)
    (expiresAt : ℤ) :
    sessionLease api token (r.createSession userId digest expiresAt) =
      if tokenHash api token = digest then some ⟨stored.user, expiresAt, false⟩
      else sessionLease api token r := by
  simp only [sessionLease, if_pos htoken, MemoryAuthRepository.createSession,
    lookup_sessions_insert]
  split
  · simp only [Option.bind_some, hstored, Option.map_some, Option.isSome_none]
  · rfl

theorem revokeSession_lease (htoken : token.length = 64) (digest : Bytes) (revokedAt : ℤ) :
    sessionLease api token (r.revokeSession digest revokedAt) =
      if tokenHash api token = digest then
        (sessionLease api token r).map fun lease => { lease with ended := true }
      else sessionLease api token r := by
  simp only [sessionLease, if_pos htoken]
  cases hfound : r.sessions.lookup digest with
  | none =>
    simp only [MemoryAuthRepository.revokeSession, hfound]
    split
    · next hdigest => rw [hdigest, hfound, Option.bind_none, Option.map_none]
    · rfl
  | some found =>
    simp only [MemoryAuthRepository.revokeSession, hfound, lookup_sessions_insert]
    split
    · next hdigest =>
      rw [hdigest, hfound, Option.bind_some, Option.bind_some, Option.map_map]
      rfl
    · rfl

theorem change_lease (h : Change api r e r') (hs : UsersKept n r)
    (hn : n + registrations [e] ≤ 2 ^ 64)
    (hapart : ∀ a ∈ e.tokens, tokenHash api token = tokenHash api a → token = a) :
    sessionLease api token r' =
      (terms api.sessionTtlSeconds token).after (sessionLease api token r) e := by
  cases h with
  | quiet hsession hlogout hgrows =>
    have hopens : (terms api.sessionTtlSeconds token).opens e = none :=
      terms_opens_none (by simp [hsession])
    rw [grows_lease hs hn hgrows]
    by_cases hends : e.exchange = .logout token
    · rw [after_ends hopens (by simpa [terms] using hends), sessionLease,
        if_neg (hlogout token hends), Option.map_none]
    · rw [after_other hopens (by simpa [terms] using hends)]
  | opens session r₁ stored hgrows hsession hlogout hlength hlookup huser hr' =>
    have hends : (terms api.sessionTtlSeconds token).ends e = false := by
      simpa [terms] using hlogout token
    have hmem := session_token_mem hsession
    by_cases hsame : token = session.token
    · have hopens : (terms api.sessionTtlSeconds token).opens e =
          some (session.user, e.now + api.sessionTtlSeconds) := by simp [terms, hsession, hsame]
      rw [after_opens hopens, hr', hsame, createSession_lease hlookup hlength, if_pos rfl, huser]
    · have hopens : (terms api.sessionTtlSeconds token).opens e = none :=
        terms_opens_none (by simpa [hsession] using Ne.symm hsame)
      rw [after_other hopens hends, hr', ← grows_lease hs hn hgrows]
      by_cases htoken : token.length = 64
      · rw [createSession_lease hlookup htoken, if_neg fun h => hsame (hapart _ hmem h)]
      · simp only [sessionLease, if_neg htoken]
  | ends ended hexchange hlength hr' =>
    have hopens : (terms api.sessionTtlSeconds token).opens e = none :=
      terms_opens_none (by simp [Event.session, hexchange])
    by_cases hsame : token = ended
    · have hends : (terms api.sessionTtlSeconds token).ends e = true := by
        simpa [terms, hsame] using hexchange
      rw [after_ends hopens hends, hr', hsame, revokeSession_lease hlength, if_pos rfl]
    · have hends : (terms api.sessionTtlSeconds token).ends e = false := by
        simpa [terms, hexchange] using Ne.symm hsame
      rw [after_other hopens hends, hr']
      by_cases htoken : token.length = 64
      · have hmem : ended ∈ e.tokens := by simp [Event.tokens, hexchange]
        rw [revokeSession_lease htoken, if_neg fun h => hsame (hapart _ hmem h)]
      · simp only [sessionLease, if_neg htoken]

theorem empty_kept : UsersKept 0 .empty where
  nextUserId := rfl
  users id stored h := by simp [MemoryAuthRepository.empty] at h
  sessions digest session h := by simp [MemoryAuthRepository.empty] at h

variable {s₀ : ServerState MemoryAuthRepository L} {events : List Event} {user : User} {ttl : ℤ}

theorem run_lease (token : Bytes) (hstart : s₀.auth = .empty) (h : Run (Step api) s₀ events s)
    (hbound : registrations events ≤ 2 ^ 64)
    (hapart : ∀ e ∈ events, ∀ a ∈ e.tokens, tokenHash api token = tokenHash api a → token = a) :
    (∃ n ≤ registrations events, UsersKept n s.auth) ∧
      sessionLease api token s.auth = (terms api.sessionTtlSeconds token).lease events := by
  induction h with
  | start =>
    rw [hstart]
    refine ⟨⟨0, le_rfl, empty_kept⟩, ?_⟩
    simp [sessionLease, MemoryAuthRepository.empty, Terms.lease]
  | @snoc events s e s' _ hlast ih =>
    rw [registrations, List.countP_append, ← registrations, ← registrations] at hbound ⊢
    obtain ⟨⟨n, hn, hkept⟩, hlease⟩ := ih (by omega) fun e he => hapart e (by simp [he])
    have hchange := step_change hlast hkept
    obtain ⟨m, hm, hkept'⟩ := change_kept hchange hkept (by omega)
    refine ⟨⟨m, by omega, hkept'⟩, ?_⟩
    rw [lease_snoc, ← hlease]
    exact change_lease hchange hkept (by omega) (hapart e (by simp))

/-- The call returned the token to the user. -/
def Opens (e : Event) (token : Bytes) (user : User) : Prop :=
  ∃ session, e.session = some session ∧ session.token = token ∧ session.user = user

/-- A call returned the token to the user, less than ttl ago, and there was no logout since. -/
def Valid (ttl : ℤ) (events : List Event) (token : Bytes) (user : User) (now : ℤ) : Prop :=
  ∃ before e since, events = before ++ e :: since ∧ Opens e token user ∧ now < e.now + ttl ∧
    ∀ x ∈ since, x.exchange ≠ .logout token

def issued (events : List Event) : List Bytes :=
  events.filterMap fun e => e.session.map AuthenticatedSession.token

def presented (events : List Event) : List Bytes := events.flatMap Event.tokens

structure Assumed (api : ShortLinkHttpApi MemoryAuthRepository L) (events : List Event) :
    Prop where
  digests : ∀ token ∈ presented events, (api.openSsl.sha256 token).isSome
  collisionFree : ∀ a ∈ presented events, ∀ b ∈ presented events,
    api.openSsl.sha256 a = api.openSsl.sha256 b → a = b
  neverRepeats : (issued events).Nodup
  nondecreasing : events.Pairwise fun e e' => e.now ≤ e'.now

theorem terms_opens_iff (ttl : ℤ) {expiresAt : ℤ} :
    (terms ttl token).opens e = some (user, expiresAt) ↔
      Opens e token user ∧ e.now + ttl = expiresAt := by
  simp only [terms, Opens, Option.map_eq_some_iff, Option.filter_eq_some_iff, decide_eq_true_eq,
    Prod.mk.injEq]
  constructor
  · rintro ⟨session, ⟨hsession, htoken⟩, huser, hexpires⟩
    exact ⟨⟨session, hsession, htoken, huser⟩, hexpires⟩
  · rintro ⟨⟨session, hsession, htoken, huser⟩, hexpires⟩
    exact ⟨session, ⟨hsession, htoken⟩, huser, hexpires⟩

theorem terms_once (h : (issued events).Nodup) : (terms ttl token).Once events := by
  refine (List.pairwise_filterMap.mp h).imp fun {e e'} hne hopens => terms_opens_none ?_
  intro session' hsession' htoken'
  obtain ⟨⟨user, expiresAt⟩, hopens⟩ := Option.isSome_iff_exists.mp hopens
  obtain ⟨⟨session, hsession, htoken, _⟩, _⟩ := (terms_opens_iff _).mp hopens
  rw [Option.mem_def] at hsession'
  exact hne token (by simp [hsession, htoken]) token (by simp [hsession', htoken']) rfl

theorem valid_iff_lease (h : (issued events).Nodup) :
    Valid ttl events token user now ↔
      ((terms ttl token).lease events).bind (Lease.holder now) = some user := by
  simp only [Option.bind_eq_some_iff, Lease.holder_eq_some]
  constructor
  · rintro ⟨before, e, since, hevents, hopens, hnow, hsince⟩
    refine ⟨⟨user, e.now + ttl, false⟩, ?_, rfl, hnow⟩
    rw [once_lease_open_iff (terms_once h)]
    exact ⟨before, e, since, hevents, (terms_opens_iff _).mpr ⟨hopens, rfl⟩,
      fun x hx => by simpa [terms] using hsince x hx⟩
  · rintro ⟨lease, hlease, hopen, hnow⟩
    rw [hopen, once_lease_open_iff (terms_once h)] at hlease
    obtain ⟨before, e, since, hevents, hopens, hsince⟩ := hlease
    obtain ⟨hopens, hexpires⟩ := (terms_opens_iff _).mp hopens
    exact ⟨before, e, since, hevents, hopens, by omega,
      fun x hx => by simpa [terms] using hsince x hx⟩

theorem opens_unique {e' : Event} {user' : User} (h : (issued events).Nodup)
    (hmem : e ∈ events) (hmem' : e' ∈ events) (hopens : Opens e token user)
    (hopens' : Opens e' token user') : e = e' := by
  have hopens := (terms_opens_iff 0).mpr ⟨hopens, rfl⟩
  have hopens' := (terms_opens_iff 0).mpr ⟨hopens', rfl⟩
  exact opened_unique (terms_once h) hmem hmem' (by rw [hopens]; rfl) (by rw [hopens']; rfl)

/-- The call is an authenticate, after those before it. -/
def Asked (events before : List Event) (e : Event) (token : Bytes) (answer : Option User) : Prop :=
  before ++ [e] <+: events ∧ e.exchange = .authenticate token answer

/-- An authenticate finds the user exactly when the token is valid; in particular a token that was
revoked or that expired is good for nothing any more, and a logout ends no other session. -/
structure SessionsRight (ttl : ℤ) (events : List Event) : Prop where
  authenticates : ∀ before e token answer, Asked events before e token answer →
    ∀ user, answer = some user ↔ Valid ttl before token user e.now
  revoked : ∀ before e token answer, Asked events before e token answer →
    ∀ opened out user, [opened, out].Sublist before → Opens opened token user →
      out.exchange = .logout token → answer = none
  expired : ∀ before e token answer, Asked events before e token answer →
    ∀ opened ∈ before, ∀ user, Opens opened token user →
      ∀ x ∈ before, opened.now + ttl ≤ x.now → answer = none
  othersStay : ∀ before out e token other answer, Asked events (before ++ [out]) e token answer →
    out.exchange = .logout other → other ≠ token →
      ∀ user, Valid ttl before token user e.now → answer = some user

theorem authenticate_answer {answer : Option User} (h : Step api s e s')
    (hs : UsersKept n s.auth) (he : e.exchange = .authenticate token answer) :
    answer = (sessionLease api token s.auth).bind (Lease.holder e.now) := by
  obtain ⟨random, h⟩ := h
  rw [he] at h
  rw [((authenticate_returns token rfl).of_run h).2]
  split
  · next htoken => exact findUserBySession_eq hs htoken
  · next htoken => rw [sessionLease, if_neg htoken, Option.bind_none]

theorem Assumed.apart (h : Assumed api events) :
    ∀ a ∈ presented events, ∀ b ∈ presented events, tokenHash api a = tokenHash api b → a = b := by
  intro a ha b hb hhash
  obtain ⟨digest, hdigest⟩ := Option.isSome_iff_exists.mp (h.digests a ha)
  obtain ⟨digest', hdigest'⟩ := Option.isSome_iff_exists.mp (h.digests b hb)
  simp only [tokenHash, hdigest, hdigest', Option.map_some, Option.getD_some] at hhash
  exact h.collisionFree a ha b hb (by rw [hdigest, hdigest', toHex_injective hhash])

theorem asked_iff_valid (hstart : s₀.auth = .empty) (h : Run (Step api) s₀ events s)
    (hassumed : Assumed api events) (hbound : registrations events ≤ 2 ^ 64)
    {before : List Event} {answer : Option User}
    (hasked : Asked events before e token answer) :
    answer = some user ↔ Valid api.sessionTtlSeconds before token user e.now := by
  obtain ⟨⟨after, rfl⟩, he⟩ := hasked
  rw [List.append_assoc, List.singleton_append] at h hassumed hbound
  obtain ⟨s₁, s₂, hbefore, hstep⟩ := h.of_append
  rw [registrations, List.countP_append, ← registrations] at hbound
  have hnodup := hassumed.neverRepeats
  rw [issued, List.filterMap_append] at hnodup
  obtain ⟨⟨n, _, hkept⟩, hlease⟩ := run_lease token hstart hbefore (by omega)
    fun e' he' a ha => hassumed.apart token
      (List.mem_flatMap.mpr ⟨e, by simp, by simp [Event.tokens, he]⟩) a
      (List.mem_flatMap.mpr ⟨e', by simp [he'], ha⟩)
  rw [valid_iff_lease hnodup.of_append_left, ← hlease, authenticate_answer hstep hkept he]

theorem not_valid_of_logout {opened out : Event} {user' : User}
    (hnodup : (issued events).Nodup) (horder : [opened, out].Sublist events)
    (hopens : Opens opened token user) (hlogout : out.exchange = .logout token) :
    ¬ Valid ttl events token user' now := by
  rw [valid_iff_lease hnodup, Option.bind_eq_some_iff]
  rintro ⟨lease, hlease, hholder⟩
  rw [(Lease.holder_eq_some.mp hholder).1] at hlease
  refine lease_ended (terms_once hnodup) horder ?_ (by simpa [terms] using hlogout) hlease
  rw [(terms_opens_iff ttl).mpr ⟨hopens, rfl⟩]
  rfl

theorem not_valid_of_expired {opened : Event} {user' : User}
    (hnodup : (issued events).Nodup) (hmem : opened ∈ events) (hopens : Opens opened token user)
    (hnow : opened.now + ttl ≤ now) : ¬ Valid ttl events token user' now := by
  rintro ⟨before, e, since, rfl, hopens', hvalid, _⟩
  obtain rfl := opens_unique hnodup hmem (by simp) hopens hopens'
  omega

theorem valid_snoc {out : Event} (hlogout : out.exchange ≠ .logout token)
    (h : Valid ttl events token user now) : Valid ttl (events ++ [out]) token user now := by
  obtain ⟨before, e, since, rfl, hopens, hnow, hsince⟩ := h
  refine ⟨before, e, since ++ [out], by simp, hopens, hnow, ?_⟩
  intro x hx
  rcases List.mem_append.mp hx with hx | hx
  · exact hsince x hx
  · rwa [List.mem_singleton.mp hx]

/-- Any sequence of calls on the service, with no more registrations than there are user ids:
authenticate shows exactly the sessions that are valid. -/
theorem authenticate_iff_valid (hstart : s₀.auth = .empty) (h : Run (Step api) s₀ events s)
    (hassumed : Assumed api events) (hbound : registrations events ≤ 2 ^ 64) :
    SessionsRight api.sessionTtlSeconds events := by
  have hnodup {before : List Event} {e : Event} (hpre : before ++ [e] <+: events) :
      (issued before).Nodup := by
    obtain ⟨after, rfl⟩ := hpre
    have h := hassumed.neverRepeats
    rw [issued, List.append_assoc, List.filterMap_append] at h
    exact h.of_append_left
  refine ⟨fun before e token answer hasked user => asked_iff_valid hstart h hassumed hbound hasked,
    fun before e token answer hasked opened out user horder hopens hlogout => ?_,
    fun before e token answer hasked opened hmem user hopens x hx hexpired => ?_,
    fun before out e token other answer hasked hlogout hother user hvalid => ?_⟩
  · apply Option.eq_none_iff_forall_ne_some.mpr
    intro user' hanswer
    rw [asked_iff_valid hstart h hassumed hbound hasked] at hanswer
    exact not_valid_of_logout (hnodup hasked.1) horder hopens hlogout hanswer
  · apply Option.eq_none_iff_forall_ne_some.mpr
    intro user' hanswer
    rw [asked_iff_valid hstart h hassumed hbound hasked] at hanswer
    refine not_valid_of_expired (hnodup hasked.1) hmem hopens ?_ hanswer
    have hordered := hassumed.nondecreasing.sublist hasked.1.sublist
    have hlate := (List.pairwise_append.mp hordered).2.2 x hx e (by simp)
    omega
  · rw [asked_iff_valid hstart h hassumed hbound hasked]
    refine valid_snoc ?_ hvalid
    rw [hlogout]
    exact fun h => hother (Exchange.logout.inj h)

section Demo

open MemoryShortLinks (MemoryShortLinkRepository)

def returned {α : Type} [DecidableEq α] {σ ε : Type} (a : α) : Except ε α × σ → Option σ
  | (.ok b, s) => if b = a then some s else none
  | (.error _, _) => none

theorem returned_eq_some {α σ ε : Type} [DecidableEq α] {a : α} {out : Except ε α × σ} {t : σ}
    (h : returned a out = some t) : out = (.ok a, t) := by
  rcases out with ⟨_ | b, t'⟩
  · cases h
  · simp only [returned, Option.ite_none_right_eq_some, Option.some.injEq] at h
    obtain ⟨rfl, rfl⟩ := h
    rfl

def next (api : ShortLinkHttpApi MemoryAuthRepository L) (random : ℤ → ℕ → Option (ℕ → UInt8))
    (s : ServerState MemoryAuthRepository L) (e : Event) :
    Option (ServerState MemoryAuthRepository L) :=
  let s := { s with clock := fun _ => e.clock, random := random e.clock }
  match e.exchange with
  | .registerUser username password result =>
    returned result ((registerUser (overMemory api) username password).run s)
  | .login username password result =>
    returned result ((login (overMemory api) username password).run s)
  | .authenticate token user => returned user ((authenticate (overMemory api) token).run s)
  | .logout token => returned () ((logout (overMemory api) token).run s)

theorem next_step {random : ℤ → ℕ → Option (ℕ → UInt8)} (h : next api random s e = some s') :
    Step api s e s' := by
  refine ⟨random e.clock, ?_⟩
  simp only [next] at h
  rcases e with ⟨c, exchange⟩
  cases exchange <;> exact returned_eq_some h

def demoToken (byte : UInt8) : Bytes := toHex (List.replicate 32 byte)

/-- Their SHA-256 digests. -/
def demoDigests (token : Bytes) : Option Bytes :=
  if token = demoToken 1 then
    some [88, 186, 221, 155, 69, 81, 69, 180, 135, 173, 36, 199, 242, 89, 204, 67,
      124, 196, 255, 208, 120, 71, 22, 132, 82, 73, 50, 31, 181, 150, 28, 252]
  else if token = demoToken 2 then
    some [116, 159, 26, 151, 255, 108, 208, 14, 164, 108, 203, 58, 71, 187, 18, 50,
      131, 254, 86, 200, 250, 50, 75, 234, 41, 93, 146, 143, 85, 129, 97, 223]
  else none

def demoSalt : Bytes := (List.range 16).map Nat.toUInt8

/-- What scrypt derives from the password and the salt. -/
def demoScrypt (password salt : Bytes) : Option Bytes :=
  if password = ascii "correct horse" ∧ salt = demoSalt then
    some [92, 102, 38, 40, 172, 78, 177, 6, 138, 40, 126, 42, 162, 162, 2, 174,
      36, 142, 152, 219, 4, 214, 29, 51, 39, 231, 52, 45, 182, 236, 112, 151]
  else none

def demoApi : ShortLinkHttpApi MemoryAuthRepository MemoryShortLinkRepository where
  authRepository := MemoryAuthRepository.repository
  linkRepository := MemoryShortLinks.repository
  openSsl := ⟨demoDigests, demoScrypt⟩
  json := ⟨fun _ => none, fun _ => none, fun _ => .ok []⟩
  sessionTtlSeconds := 60
  dummyPasswordHash := ascii "!"
  hasRateLimiter := false
  hasStatistics := false
  eventNonce := 0
  renderPrometheus _ := []
  config := {}

def demoRandom (clock : ℤ) (n : ℕ) : Option (ℕ → UInt8) :=
  some fun i => if clock ≠ 100000 then 2 else if n = 0 then i.toUInt8 else 1

def demoUser : User := ⟨1, ascii "Ada", .active, 100, 100⟩

/-- Ada registers, logs in once more and logs out of the first session. -/
def demoEvents : List Event :=
  [⟨100000, .registerUser (ascii "Ada") (ascii "correct horse")
      ⟨.success, some ⟨demoUser, demoToken 1, 160⟩⟩⟩,
    ⟨110000, .login (ascii "ada") (ascii "correct horse")
      ⟨.success, some ⟨demoUser, demoToken 2, 170⟩⟩⟩,
    ⟨120000, .logout (demoToken 1)⟩, ⟨120000, .authenticate (demoToken 1) none⟩,
    ⟨169999, .authenticate (demoToken 2) (some demoUser)⟩,
    ⟨170000, .authenticate (demoToken 2) none⟩]

def demoStart : ServerState MemoryAuthRepository MemoryShortLinkRepository where
  auth := .empty
  links := .empty
  statistics _ _ := .ok none
  clock _ := 0
  random _ := none
  limiter _ := ⟨.allowed, 0⟩
  consulted := []
  published := []
  eventSequence := 0
  metrics := []
  httpMetricsText := []
  mysqlHealthy := false
  response := {}

theorem demoEvents_assumed : Assumed demoApi demoEvents where
  digests := by decide
  collisionFree := by decide
  neverRepeats := by decide
  nondecreasing := by decide

theorem authenticate_iff_valid_demo :
    ∃ s, Run (Step demoApi) demoStart demoEvents s ∧ SessionsRight 60 demoEvents := by
  have hdone : (demoEvents.foldlM (next demoApi demoRandom) demoStart).isSome := by decide
  obtain ⟨s, hs⟩ := Option.isSome_iff_exists.mp hdone
  have hrun := (Run.of_foldlM hs).mono fun _ _ _ => next_step
  exact ⟨s, hrun, authenticate_iff_valid rfl hrun demoEvents_assumed (by decide)⟩

end Demo

end Sessions
