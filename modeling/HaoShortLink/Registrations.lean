import HaoShortLink.Sessions

/-! The users that registerUser stores and the passwords that login takes, over whole histories
of calls on the in-memory repository. -/
namespace Registrations

open Cpp Actions Action AuthRepositories AuthServices ServerStates ServerStates.Server Histories
open Decimals
open Sessions (overMemory)

/-- One byte, or a capital and its small letter. -/
def SameLetter (a b : UInt8) : Prop :=
  a = b ∨ (isUpper a ∧ b = a + 32) ∨ (isUpper b ∧ a = b + 32)

def SameName : Bytes → Bytes → Prop := List.Forall₂ SameLetter

theorem isUpper_toLower {c : UInt8} (h : isUpper c) : isUpper (c + 32) = false := by
  simp only [isUpper, Bool.and_eq_true, decide_eq_true_eq, UInt8.le_iff_toNat_le] at h
  obtain ⟨hlow, hhigh⟩ : 65 ≤ c.toNat ∧ c.toNat ≤ 90 := h
  have hsum : (c + 32).toNat = c.toNat + 32 :=
    (UInt8.toNat_add c 32).trans (Nat.mod_eq_of_lt (show c.toNat + 32 < 256 by omega))
  have hbeyond : ¬ (c + 32).toNat ≤ 90 := by omega
  simp only [isUpper, Bool.and_eq_false_iff, decide_eq_false_iff_not, UInt8.le_iff_toNat_le]
  exact .inr hbeyond

theorem sameLetter_iff {a b : UInt8} : SameLetter a b ↔ toLower a = toLower b := by
  unfold SameLetter toLower
  by_cases ha : isUpper a
  · by_cases hb : isUpper b
    · have hne : b ≠ a + 32 := by
        rintro rfl
        simp [isUpper_toLower ha] at hb
      have hne' : a ≠ b + 32 := by
        rintro rfl
        simp [isUpper_toLower hb] at ha
      simp [ha, hb, hne, hne']
    · simp only [ha, hb, if_true]
      constructor
      · rintro (rfl | ⟨_, rfl⟩ | ⟨hb', _⟩)
        · exact absurd ha hb
        · rfl
        · cases hb'
      · exact fun h => .inr (.inl ⟨trivial, h.symm⟩)
  · by_cases hb : isUpper b
    · simp only [ha, hb, if_true]
      constructor
      · rintro (rfl | ⟨ha', _⟩ | ⟨_, rfl⟩)
        · exact absurd hb ha
        · cases ha'
        · rfl
      · exact fun h => .inr (.inr ⟨trivial, h⟩)
    · simp [ha, hb]

/-- The normalized name stands for all spellings. -/
theorem sameName_iff {a b : Bytes} : SameName a b ↔ normalizeUsername a = normalizeUsername b := by
  have hletters : SameLetter = fun a b => toLower a = toLower b := by
    ext a b
    exact sameLetter_iff
  rw [SameName, hletters, normalizeUsername, normalizeUsername, ← List.forall₂_eq_eq_eq,
    List.forall₂_map_left_iff, List.forall₂_map_right_iff]

inductive Call where
  | registerUser (username password : Bytes)
  | login (username password : Bytes)
  deriving DecidableEq

/-- A call with what the clock shows and RAND_bytes fills in during it, and what it returned. -/
structure Event where
  call : Call
  clock : ℕ → ℤ
  random : ℕ → ℕ → UInt8
  result : Result

def Event.salt (e : Event) : Bytes := (List.range kSaltBytes).map (e.random 0)

variable {L : Type} (api : ShortLinkHttpApi MemoryAuthRepository L)

def perform : Call → Server MemoryAuthRepository L Result
  | .registerUser username password => registerUser (overMemory api) username password
  | .login username password => login (overMemory api) username password

def during (e : Event) (s : ServerState MemoryAuthRepository L) :
    ServerState MemoryAuthRepository L :=
  { s with clock := e.clock, random := fun n => some (e.random n) }

def Step (s : ServerState MemoryAuthRepository L) (e : Event)
    (s' : ServerState MemoryAuthRepository L) : Prop :=
  (perform api e.call).run (during e s) = (.ok e.result, s')

/-- Keys and digests can always be computed. -/
structure Succeeds (openSsl : OpenSsl) : Prop where
  scrypt : ∀ password salt, ∃ key, openSsl.scrypt password salt = some key ∧
    kHashBytes ≤ key.length
  sha256 : ∀ token, ∃ digest, openSsl.sha256 token = some digest ∧ digest ≠ []

/-- A registration that succeeded, with the id it returned and the salt it drew. -/
structure Account where
  id : ℕ
  username : Bytes
  password : Bytes
  salt : Bytes
  deriving DecidableEq

def Event.account (e : Event) : Option Account :=
  match e.call, e.result.session with
  | .registerUser username password, some session =>
    some ⟨session.user.id, username, password, e.salt⟩
  | _, _ => none

def registered (events : List Event) : List Account := events.filterMap Event.account

/-- What the repository and the answers show of the registrations so far. -/
structure NamesRight (events : List Event) (r : MemoryAuthRepository) : Prop where
  unique : ∀ id id' stored stored', r.users.lookup id = some stored →
    r.users.lookup id' = some stored' → SameName stored.user.username stored'.user.username →
    id = id'
  indexed : ∀ name id, r.userIdsByName.lookup name = some id ↔
    ∃ stored, r.users.lookup id = some stored ∧ normalizeUsername stored.user.username = name
  conflict : AtEach (fun before e => ∀ username password,
    e.call = .registerUser username password → isValidUsername username →
    isValidPassword password → (e.result.status = .usernameConflict ↔
      ∃ account ∈ registered before, SameName account.username username)) events
  login : AtEach (fun before e => ∀ username password, e.call = .login username password →
    (e.result.status = .success ↔ ∃ account ∈ registered before,
      SameName account.username username ∧ derive api.openSsl password account.salt =
        derive api.openSsl account.password account.salt)) events
  refused : AtEach (fun _ e => ∀ username password, e.call = .login username password →
    e.result.status ≠ .success → e.result = ⟨.invalidCredentials, none⟩) events

structure Stores (account : Account) (stored : StoredUser) : Prop where
  id : stored.user.id = account.id
  username : stored.user.username = account.username
  status : stored.user.status = .active
  normalizedUsername : stored.normalizedUsername = normalizeUsername account.username
  salt : account.salt.length = kSaltBytes
  passwordHash : ∃ key, key.length = kHashBytes ∧
    derive api.openSsl account.password account.salt = some key ∧
    stored.passwordHash = encodeHash account.salt key

def store (stored : StoredUser) (r : MemoryAuthRepository) : MemoryAuthRepository :=
  { r with
    nextUserId := (r.nextUserId + 1) % 2 ^ 64
    users := r.users.insert stored.user.id stored
    userIdsByName := r.userIdsByName.insert stored.normalizedUsername stored.user.id }

def Admits (user : User) (r : MemoryAuthRepository) (result : Result)
    (r' : MemoryAuthRepository) : Prop :=
  ∃ session digest, result = ⟨.success, some session⟩ ∧ session.user = user ∧
    r' = r.createSession user.id digest session.expiresAt

/-- What a call that drew its salt for the account returns and leaves. -/
inductive Outcome (e : Event) (r : MemoryAuthRepository) : MemoryAuthRepository → Prop where
  | invalid {username password} : e.call = .registerUser username password →
      ¬ (isValidUsername username ∧ isValidPassword password) → e.result.status ≠ .success →
      e.result.session = none → Outcome e r r
  | taken {username password} : e.call = .registerUser username password →
      normalizeUsername username ∈ r.userIdsByName → e.result = ⟨.usernameConflict, none⟩ →
      Outcome e r r
  | stored {username password stored r'} : e.call = .registerUser username password →
      normalizeUsername username ∉ r.userIdsByName →
      Stores api ⟨r.nextUserId, username, password, e.salt⟩ stored →
      Admits stored.user (store stored r) e.result r' → Outcome e r r'
  | refused {username password} : e.call = .login username password →
      (∀ credentials, r.findCredentials (normalizeUsername username) = some credentials →
        credentials.user.status = .active →
        verify api.openSsl password credentials.passwordHash = false) →
      e.result = ⟨.invalidCredentials, none⟩ → Outcome e r r
  | admitted {username password credentials r'} : e.call = .login username password →
      r.findCredentials (normalizeUsername username) = some credentials →
      verify api.openSsl password credentials.passwordHash = true →
      Admits credentials.user r e.result r' → Outcome e r r'

variable {api} {s s' : ServerState MemoryAuthRepository L} {random : ℕ → ℕ → UInt8}
  {username password : Bytes}

theorem createUser_free {normalizedUsername passwordHash : Bytes} {now : ℤ}
    {r : MemoryAuthRepository} (h : normalizedUsername ∉ r.userIdsByName) :
    r.createUser username normalizedUsername passwordHash now =
      (⟨.created, some ⟨r.nextUserId, username, .active, now, now⟩⟩,
        store ⟨⟨r.nextUserId, username, .active, now, now⟩, normalizedUsername, passwordHash⟩ r) :=
  if_neg h

theorem randBytes_draws (count : ℕ) (hrandom : s.random = fun n => some (random n)) :
    Returns (fun bytes s' => bytes = some ((List.range count).map (random 0)) ∧
      s'.auth = s.auth ∧ s'.random = fun n => some (random (n + 1)))
      (randBytes count : Server MemoryAuthRepository L _) s := by
  refine ⟨_, _, rfl, ?_, rfl, ?_⟩
  · rw [hrandom]
    rfl
  · simp only [hrandom]

theorem nowEpochSeconds_keeps : Returns (fun _ s' => s'.auth = s.auth ∧ s'.random = s.random)
    nowEpochSeconds s := ⟨_, _, rfl, rfl, rfl⟩

theorem tokenHash_ne_nil (hopenSsl : Succeeds api.openSsl) (token : Bytes) :
    tokenHash api token ≠ [] := by
  obtain ⟨digest, hdigest, hne⟩ := hopenSsl.sha256 token
  intro hempty
  have hlength := congrArg List.length hempty
  simp only [tokenHash, hdigest, Option.map_some, Option.getD_some, toHex_length,
    List.length_nil] at hlength
  exact hne (List.length_eq_zero_iff.mp (by omega))

theorem createSession_admits (hopenSsl : Succeeds api.openSsl) (user : User)
    (hrandom : s.random = fun n => some (random n)) :
    Returns (fun session s' => Admits user s.auth (sessionResult session) s'.auth ∧
        ∀ opened ∈ session, opened.token = toHex ((List.range 32).map (random 0)))
      (createSession (overMemory api) user) s := by
  refine .bind (.bind ((randBytes_draws 32 hrandom).mono ?_))
  rintro _ s₁ ⟨rfl, hauth, _⟩
  refine .pure (.bind (nowEpochSeconds_keeps.mono ?_))
  rintro now s₂ ⟨hauth₂, _⟩
  dsimp only
  generalize toHex ((List.range 32).map (random 0)) = token
  have hhash : tokenHash (overMemory api) token ≠ [] := tokenHash_ne_nil hopenSsl token
  rw [if_neg hhash]
  refine .bind ⟨_, _, rfl, .pure ⟨⟨_, tokenHash (overMemory api) token, rfl, rfl, ?_⟩, ?_⟩⟩
  · rw [← hauth, ← hauth₂]
    rfl
  · rintro _ ⟨⟩
    rfl

theorem createUser_stores (username normalizedUsername passwordHash : Bytes) (now : ℤ) :
    Returns (fun created s' => s.auth.createUser username normalizedUsername passwordHash now =
        (created, s'.auth) ∧ s'.random = s.random)
      (updateAuth ((overMemory api).authRepository.createUser username normalizedUsername
        passwordHash now)) s :=
  ⟨_, _, rfl, rfl, rfl⟩

theorem hash_returns (hopenSsl : Succeeds api.openSsl) (password : Bytes)
    (hrandom : s.random = fun n => some (random n)) :
    Returns (fun passwordHash s' => (∃ key, key.length = kHashBytes ∧
        derive api.openSsl password ((List.range kSaltBytes).map (random 0)) = some key ∧
        passwordHash = some (encodeHash ((List.range kSaltBytes).map (random 0)) key)) ∧
      s'.auth = s.auth ∧ s'.random = fun n => some (random (n + 1)))
      (hash (overMemory api) password) s := by
  refine .bind ((randBytes_draws kSaltBytes hrandom).mono ?_)
  rintro _ s₁ ⟨rfl, hauth, hrandom₁⟩
  refine .pure ⟨?_, hauth, hrandom₁⟩
  obtain ⟨key, hkey, hlength⟩ :=
    hopenSsl.scrypt password ((List.range kSaltBytes).map (random 0))
  have hderive : derive api.openSsl password ((List.range kSaltBytes).map (random 0)) =
      some (key.take kHashBytes) := by rw [derive, hkey, Option.map_some]
  refine ⟨key.take kHashBytes, ?_, hderive, ?_⟩
  · rw [List.length_take, Nat.min_eq_left hlength]
  · exact congrArg (Option.map (encodeHash ((List.range kSaltBytes).map (random 0)))) hderive

/-- The token of the session that a registration opens. -/
def tokenFrom (random : ℕ → ℕ → UInt8) : Bytes := toHex ((List.range 32).map (random 1))

theorem registerUser_outcome (hopenSsl : Succeeds api.openSsl) {e : Event}
    (hcall : e.call = .registerUser username password)
    (hrandom : s.random = fun n => some (e.random n)) :
    Returns (fun result s' => (result = e.result → Outcome api e s.auth s'.auth) ∧
        ∀ session ∈ result.session, session.token = tokenFrom e.random)
      (registerUser (overMemory api) username password) s := by
  simp only [registerUser]
  split
  · next hname =>
    exact .pure ⟨fun hresult => .invalid hcall (by simp_all) (by simp [← hresult])
      (by simp [← hresult]), by simp⟩
  split
  · next hpassword =>
    exact .pure ⟨fun hresult => .invalid hcall (by simp_all) (by simp [← hresult])
      (by simp [← hresult]), by simp⟩
  refine .bind ((hash_returns hopenSsl password hrandom).mono ?_)
  rintro _ s₁ ⟨⟨key, hlength, hkey, rfl⟩, hauth, hrandom₁⟩
  refine .bind (nowEpochSeconds_keeps.mono ?_)
  rintro now s₂ ⟨hauth₂, hrandom₂⟩
  rw [hauth] at hauth₂
  rw [hrandom₁] at hrandom₂
  refine .bind ((createUser_stores _ _ _ _).mono ?_)
  rintro created s₃ ⟨hcreated, hrandom₃⟩
  rw [hrandom₂] at hrandom₃
  rw [hauth₂] at hcreated
  by_cases htaken : normalizeUsername username ∈ s.auth.userIdsByName
  · obtain ⟨rfl, hauth₃⟩ := Prod.mk.inj (hcreated.symm.trans (if_pos htaken))
    refine .pure ⟨fun hresult => ?_, by simp⟩
    rw [hauth₃]
    exact .taken hcall htaken hresult.symm
  · obtain ⟨rfl, hauth₃⟩ := Prod.mk.inj (hcreated.symm.trans (createUser_free htaken))
    have hstores : Stores api ⟨s.auth.nextUserId, username, password, e.salt⟩
        ⟨⟨s.auth.nextUserId, username, .active, now, now⟩, normalizeUsername username,
          encodeHash e.salt key⟩ :=
      ⟨rfl, rfl, rfl, rfl, by simp [Event.salt], key, hlength, hkey, rfl⟩
    refine .bind ((createSession_admits hopenSsl _ hrandom₃).mono ?_)
    rintro session s₄ ⟨hadmits, htoken⟩
    rw [hauth₃] at hadmits
    refine .pure ⟨fun hresult => .stored hcall htaken hstores (hresult ▸ hadmits), ?_⟩
    cases session with
    | none => simp [sessionResult]
    | some session => exact htoken

theorem login_outcome (hopenSsl : Succeeds api.openSsl) {e : Event}
    (hcall : e.call = .login username password)
    (hrandom : s.random = fun n => some (e.random n)) :
    Returns (fun result s' => result = e.result → Outcome api e s.auth s'.auth)
      (login (overMemory api) username password) s := by
  refine .bind ⟨_, _, rfl, ?_⟩
  dsimp only
  split
  · next hnone =>
    refine .pure fun hresult => .refused hcall (?_) hresult.symm
    intro credentials h
    cases h.symm.trans hnone
  · next credentials hcredentials =>
    have hfound : s.auth.findCredentials (normalizeUsername username) = some credentials :=
      hcredentials
    simp only [hfound, Option.map_some, Option.getD_some]
    split
    · next hrefused =>
      refine .pure fun hresult => .refused hcall (?_) hresult.symm
      intro credentials' h hactive
      obtain rfl := Option.some.inj (h.symm.trans hfound)
      exact hrefused.resolve_left (not_not.mpr hactive)
    · next hmatches =>
      refine .bind ((createSession_admits hopenSsl credentials.user hrandom).mono ?_)
      rintro session s₁ ⟨hadmits, _⟩
      refine .pure fun hresult => .admitted hcall hfound ?_ (hresult ▸ hadmits)
      exact Bool.eq_true_of_not_eq_false (not_or.mp hmatches).2

theorem step_outcome (hopenSsl : Succeeds api.openSsl) {e : Event} (h : Step api s e s') :
    Outcome api e s.auth s'.auth := by
  cases hcall : e.call with
  | registerUser username password =>
    rw [Step, hcall] at h
    exact ((registerUser_outcome (s := during e s) hopenSsl hcall rfl).of_run h).1 rfl
  | login username password =>
    rw [Step, hcall] at h
    exact (login_outcome (s := during e s) hopenSsl hcall rfl).of_run h rfl

structure SameUsers (r r' : MemoryAuthRepository) : Prop where
  nextUserId : r'.nextUserId = r.nextUserId
  users : r'.users = r.users
  userIdsByName : r'.userIdsByName = r.userIdsByName

variable {e : Event} {r r' : MemoryAuthRepository} {account : Account} {accounts : List Account}
  {stored : StoredUser} {user : User} {result : Result}

theorem Admits.sameUsers (h : Admits user r result r') : SameUsers r r' := by
  obtain ⟨session, digest, _, _, rfl⟩ := h
  exact ⟨rfl, rfl, rfl⟩

theorem Outcome.account_cases (h : Outcome api e r r') :
    (e.account = none ∧ SameUsers r r') ∨
      ∃ account stored, e.account = some account ∧ account.id = r.nextUserId ∧
        normalizeUsername account.username ∉ r.userIdsByName ∧ Stores api account stored ∧
        SameUsers (store stored r) r' := by
  cases h with
  | invalid hcall _ _ hsession => exact .inl ⟨by rw [Event.account, hcall, hsession], rfl, rfl, rfl⟩
  | taken hcall _ hresult => exact .inl ⟨by rw [Event.account, hcall, hresult], rfl, rfl, rfl⟩
  | stored hcall hfree hstores hadmits =>
    have husers := hadmits.sameUsers
    obtain ⟨session, digest, hresult, huser, _⟩ := hadmits
    have hid : session.user.id = r.nextUserId := by rw [huser, hstores.id]
    refine .inr ⟨_, _, ?_, rfl, hfree, hstores, husers⟩
    rw [Event.account, hcall, hresult, ← hid]
  | refused hcall _ hresult => exact .inl ⟨by rw [Event.account, hcall], rfl, rfl, rfl⟩
  | admitted hcall _ _ hadmits => exact .inl ⟨by rw [Event.account, hcall], hadmits.sameUsers⟩

/-- The index names the accounts, however many there are. -/
structure Named (accounts : List Account) (r : MemoryAuthRepository) : Prop where
  nextUserId : r.nextUserId = (accounts.length + 1) % 2 ^ 64
  ids : accounts.map Account.id = (List.range accounts.length).map fun i => (i + 1) % 2 ^ 64
  names : (accounts.map fun account => normalizeUsername account.username).Nodup
  indexed : ∀ name id, r.userIdsByName.lookup name = some id ↔
    ∃ account ∈ accounts, normalizeUsername account.username = name ∧ account.id = id

/-- Each account is stored, and nothing else is. -/
structure Kept (api : ShortLinkHttpApi MemoryAuthRepository L) (accounts : List Account)
    (r : MemoryAuthRepository) : Prop where
  stored : ∀ account ∈ accounts, ∃ stored, r.users.lookup account.id = some stored ∧
    Stores api account stored
  users : ∀ id stored, r.users.lookup id = some stored →
    ∃ account ∈ accounts, account.id = id ∧ Stores api account stored

theorem Named.mem_iff (h : Named accounts r) (username : Bytes) :
    normalizeUsername username ∈ r.userIdsByName ↔
      ∃ account ∈ accounts, SameName account.username username := by
  rw [← AList.lookup_isSome, Option.isSome_iff_exists]
  simp only [h.indexed, sameName_iff]
  constructor
  · rintro ⟨_, account, hmem, hname, _⟩
    exact ⟨account, hmem, hname⟩
  · rintro ⟨account, hmem, hname⟩
    exact ⟨_, account, hmem, hname, rfl⟩

theorem Named.store (h : Named accounts r) (hid : account.id = r.nextUserId)
    (hfree : normalizeUsername account.username ∉ r.userIdsByName)
    (hstores : Stores api account stored) (hr' : SameUsers (store stored r) r') :
    Named (accounts ++ [account]) r' := by
  have hlength : (accounts ++ [account]).length = accounts.length + 1 := by simp
  constructor
  · rw [hr'.nextUserId, hlength]
    change (r.nextUserId + 1) % 2 ^ 64 = _
    rw [h.nextUserId]
    omega
  · rw [hlength, List.range_succ, List.map_append, List.map_append, h.ids, List.map_singleton,
      List.map_singleton, hid, h.nextUserId]
  · rw [List.map_append, List.nodup_append]
    refine ⟨h.names, by simp, ?_⟩
    rintro name hname _ hlast rfl
    obtain rfl := List.mem_singleton.mp hlast
    obtain ⟨other, hmem, hname⟩ := List.mem_map.mp hname
    exact hfree ((h.mem_iff _).mpr ⟨other, hmem, sameName_iff.mpr hname⟩)
  · intro name id
    rw [hr'.userIdsByName]
    change (r.userIdsByName.insert stored.normalizedUsername stored.user.id).lookup name = _ ↔ _
    simp only [hstores.normalizedUsername, hstores.id, List.mem_append, List.mem_singleton,
      or_and_right, exists_or, exists_eq_left]
    by_cases hname : name = normalizeUsername account.username
    · rw [hname, AList.lookup_insert]
      constructor
      · exact fun h => .inr ⟨rfl, Option.some.inj h⟩
      · rintro (⟨other, hmem, hother, _⟩ | ⟨_, rfl⟩)
        · exact absurd ((h.mem_iff _).mpr ⟨other, hmem, sameName_iff.mpr hother⟩) hfree
        · rfl
    · rw [AList.lookup_insert_ne hname, h.indexed]
      constructor
      · exact .inl
      · rintro (h | ⟨rfl, _⟩)
        · exact h
        · exact absurd rfl hname

/-- Up to 2^64 registrations no id is given twice. -/
theorem Named.fresh (h : Named accounts r) (hbound : accounts.length < 2 ^ 64)
    (hmem : account ∈ accounts) : account.id ≠ r.nextUserId := by
  have hid : account.id ∈ (List.range accounts.length).map fun i => (i + 1) % 2 ^ 64 := by
    rw [← h.ids]
    exact List.mem_map_of_mem hmem
  obtain ⟨i, hi, hid⟩ := List.mem_map.mp hid
  rw [List.mem_range] at hi
  rw [h.nextUserId, ← hid]
  omega

theorem Kept.store (h : Kept api accounts r) (hid : account.id = r.nextUserId)
    (hfresh : ∀ other ∈ accounts, other.id ≠ account.id) (hstores : Stores api account stored)
    (hr' : SameUsers (Registrations.store stored r) r') : Kept api (accounts ++ [account]) r' := by
  have hlookup (id : ℕ) : r'.users.lookup id =
      if id = account.id then some stored else r.users.lookup id := by
    rw [hr'.users]
    change (r.users.insert stored.user.id stored).lookup id = _
    rw [hstores.id]
    by_cases h : id = account.id
    · rw [if_pos h, h, AList.lookup_insert]
    · rw [if_neg h, AList.lookup_insert_ne h]
  constructor
  · intro other hmem
    rcases List.mem_append.mp hmem with hmem | hmem
    · rw [hlookup, if_neg (hfresh other hmem)]
      exact h.stored other hmem
    · obtain rfl := List.mem_singleton.mp hmem
      exact ⟨stored, by rw [hlookup, if_pos rfl], hstores⟩
  · intro id found hfound
    rw [hlookup] at hfound
    split at hfound
    · next h =>
      obtain rfl := Option.some.inj hfound
      exact ⟨account, by simp, h.symm, hstores⟩
    · obtain ⟨other, hmem, hother⟩ := h.users id found hfound
      exact ⟨other, List.mem_append_left _ hmem, hother⟩

theorem registered_snoc (events : List Event) (e : Event) :
    registered (events ++ [e]) = registered events ++ e.account.toList := by
  rw [registered, List.filterMap_append, registered]
  cases h : e.account <;> simp [h]

variable {events : List Event}

theorem SameUsers.named (h : Named accounts r) (hr' : SameUsers r r') : Named accounts r' :=
  ⟨hr'.nextUserId ▸ h.nextUserId, h.ids, h.names, hr'.userIdsByName ▸ h.indexed⟩

theorem SameUsers.kept (h : Kept api accounts r) (hr' : SameUsers r r') : Kept api accounts r' :=
  ⟨hr'.users ▸ h.stored, hr'.users ▸ h.users⟩

theorem run_named (hopenSsl : Succeeds api.openSsl) (hstart : s.auth = .empty)
    (h : Run (Step api) s events s') : Named (registered events) s'.auth := by
  induction h with
  | start =>
    rw [hstart]
    exact ⟨rfl, rfl, List.nodup_nil,
      fun name id => by simp [registered, MemoryAuthRepository.empty]⟩
  | @snoc events s e s' _ hlast ih =>
    rw [registered_snoc]
    rcases (step_outcome hopenSsl hlast).account_cases with
      ⟨hnone, hsame⟩ | ⟨account, stored, hsome, hid, hfree, hstores, hsame⟩
    · rw [hnone, Option.toList_none, List.append_nil]
      exact hsame.named ih
    · rw [hsome, Option.toList_some]
      exact ih.store hid hfree hstores hsame

theorem run_kept (hopenSsl : Succeeds api.openSsl) (hstart : s.auth = .empty)
    (h : Run (Step api) s events s') (hbound : (registered events).length ≤ 2 ^ 64) :
    Kept api (registered events) s'.auth := by
  induction h with
  | start =>
    rw [hstart]
    exact ⟨by simp [registered], by simp [MemoryAuthRepository.empty]⟩
  | @snoc events s e s' hrun hlast ih =>
    rw [registered_snoc] at hbound ⊢
    rw [List.length_append] at hbound
    have hkept := ih (by omega)
    rcases (step_outcome hopenSsl hlast).account_cases with
      ⟨hnone, hsame⟩ | ⟨account, stored, hsome, hid, _, hstores, hsame⟩
    · rw [hnone, Option.toList_none, List.append_nil]
      exact hsame.kept hkept
    · rw [hsome, Option.toList_some, List.length_singleton] at hbound
      have hfresh : ∀ other ∈ registered events, other.id ≠ account.id := by
        intro other hmem
        rw [hid]
        exact (run_named hopenSsl hstart hrun).fresh (by omega) hmem
      rw [hsome, Option.toList_some]
      exact hkept.store hid hfresh hstores hsame

theorem Named.eq_of_sameName (h : Named accounts r) {other : Account} (hmem : account ∈ accounts)
    (hother : other ∈ accounts) (hname : SameName account.username other.username) :
    account = other :=
  List.inj_on_of_nodup_map h.names hmem hother (sameName_iff.mp hname)

theorem Outcome.conflict_iff (h : Outcome api e r r') (hnamed : Named accounts r)
    (hcall : e.call = .registerUser username password)
    (hvalid : isValidUsername username ∧ isValidPassword password) :
    e.result.status = .usernameConflict ↔
      ∃ account ∈ accounts, SameName account.username username := by
  rw [← hnamed.mem_iff]
  cases h with
  | invalid hcall' hinvalid _ _ =>
    cases hcall.symm.trans hcall'
    exact absurd hvalid hinvalid
  | taken hcall' htaken hresult =>
    cases hcall.symm.trans hcall'
    rw [hresult]
    exact iff_of_true rfl htaken
  | stored hcall' hfree _ hadmits =>
    cases hcall.symm.trans hcall'
    obtain ⟨session, digest, hresult, _⟩ := hadmits
    rw [hresult]
    exact iff_of_false (by simp) hfree
  | refused hcall' _ _ => cases hcall.symm.trans hcall'
  | admitted hcall' _ _ _ => cases hcall.symm.trans hcall'

theorem Stores.verify_iff (h : Stores api account stored) (password : Bytes) :
    verify api.openSsl password stored.passwordHash = true ↔
      derive api.openSsl password account.salt =
        derive api.openSsl account.password account.salt := by
  obtain ⟨key, hlength, hkey, hhash⟩ := h.passwordHash
  rw [hhash, verify_encodeHash _ _ h.salt hlength, hkey, beq_iff_eq]

theorem Kept.findCredentials_eq (h : Kept api accounts r) (hnamed : Named accounts r)
    (hmem : account ∈ accounts) (hname : SameName account.username username) :
    ∃ stored, r.findCredentials (normalizeUsername username) =
      some ⟨stored.user, stored.passwordHash⟩ ∧ Stores api account stored := by
  obtain ⟨stored, hlookup, hstores⟩ := h.stored account hmem
  refine ⟨stored, ?_, hstores⟩
  have hindex := (hnamed.indexed (normalizeUsername username) account.id).mpr
    ⟨account, hmem, sameName_iff.mp hname, rfl⟩
  rw [MemoryAuthRepository.findCredentials, hindex, Option.bind_some, hlookup, Option.map_some]

theorem Kept.of_findCredentials (h : Kept api accounts r) (hnamed : Named accounts r)
    {credentials : Credentials}
    (hfound : r.findCredentials (normalizeUsername username) = some credentials) :
    ∃ account ∈ accounts, SameName account.username username ∧
      ∃ stored, Stores api account stored ∧ credentials = ⟨stored.user, stored.passwordHash⟩ := by
  have hmem : normalizeUsername username ∈ r.userIdsByName := by
    rw [← AList.lookup_isSome]
    by_contra hnone
    rw [MemoryAuthRepository.findCredentials, Option.not_isSome_iff_eq_none.mp hnone] at hfound
    cases hfound
  obtain ⟨account, haccount, hname⟩ := (hnamed.mem_iff _).mp hmem
  obtain ⟨stored, hcredentials, hstores⟩ := h.findCredentials_eq hnamed haccount hname
  exact ⟨account, haccount, hname, stored, hstores,
    (Option.some.inj (hcredentials.symm.trans hfound)).symm⟩

theorem Outcome.login_iff (h : Outcome api e r r') (hkept : Kept api accounts r)
    (hnamed : Named accounts r) (hcall : e.call = .login username password) :
    e.result.status = .success ↔ ∃ account ∈ accounts, SameName account.username username ∧
      derive api.openSsl password account.salt =
        derive api.openSsl account.password account.salt := by
  cases h with
  | invalid hcall' _ _ _ => cases hcall.symm.trans hcall'
  | taken hcall' _ _ => cases hcall.symm.trans hcall'
  | stored hcall' _ _ _ => cases hcall.symm.trans hcall'
  | refused hcall' hrefused hresult =>
    cases hcall.symm.trans hcall'
    rw [hresult]
    refine iff_of_false (by simp) ?_
    rintro ⟨account, hmem, hname, hkey⟩
    obtain ⟨stored, hcredentials, hstores⟩ := hkept.findCredentials_eq hnamed hmem hname
    have hverify := hrefused _ hcredentials hstores.status
    rw [(hstores.verify_iff password).mpr hkey] at hverify
    cases hverify
  | admitted hcall' hcredentials hverify hadmits =>
    cases hcall.symm.trans hcall'
    obtain ⟨session, digest, hresult, _⟩ := hadmits
    obtain ⟨account, hmem, hname, stored, hstores, rfl⟩ :=
      hkept.of_findCredentials hnamed hcredentials
    rw [hresult]
    exact iff_of_true rfl ⟨account, hmem, hname, (hstores.verify_iff password).mp hverify⟩

theorem Outcome.login_refused (h : Outcome api e r r')
    (hcall : e.call = .login username password) (hfailed : e.result.status ≠ .success) :
    e.result = ⟨.invalidCredentials, none⟩ := by
  cases h with
  | invalid hcall' _ _ _ => cases hcall.symm.trans hcall'
  | taken hcall' _ _ => cases hcall.symm.trans hcall'
  | stored hcall' _ _ _ => cases hcall.symm.trans hcall'
  | refused _ _ hresult => exact hresult
  | admitted _ _ _ hadmits =>
    obtain ⟨session, digest, hresult, _⟩ := hadmits
    rw [hresult] at hfailed
    exact absurd rfl hfailed

theorem registered_le (before after : List Event) :
    (registered before).length ≤ (registered (before ++ after)).length := by
  simp [registered, List.filterMap_append]

theorem Named.id_eq (h : Named accounts r) {i : ℕ} (hi : i < accounts.length) :
    accounts[i].id = (i + 1) % 2 ^ 64 := by
  have hids := congrArg (fun ids => ids[i]?) h.ids
  simpa [hi] using hids

/-- Afterwards two names share an id, and one entry of the index is wrong. -/
theorem not_namesRight (hnamed : Named (registered events) r)
    (hlong : 2 ^ 64 < (registered events).length) : ¬ NamesRight api events r := by
  intro hright
  have hstored {i : ℕ} (hi : i < (registered events).length) (hid : (i + 1) % 2 ^ 64 = 1) :
      ∃ stored, r.users.lookup 1 = some stored ∧ normalizeUsername stored.user.username =
        normalizeUsername (registered events)[i].username := by
    rw [← hright.indexed, hnamed.indexed]
    exact ⟨_, List.getElem_mem hi, rfl, (hnamed.id_eq hi).trans hid⟩
  obtain ⟨stored, hlookup, hname⟩ := hstored (show 0 < _ by omega) rfl
  obtain ⟨stored', hlookup', hname'⟩ := hstored hlong rfl
  obtain rfl := Option.some.inj (hlookup.symm.trans hlookup')
  have hlength : ((registered events).map fun account =>
      normalizeUsername account.username).length = (registered events).length := List.length_map _
  have hsame := hnamed.names.get_inj_iff (i := ⟨0, by omega⟩) (j := ⟨2 ^ 64, by omega⟩)
  simp only [List.get_eq_getElem, List.getElem_map, ← hname, ← hname', true_iff,
    Fin.mk.injEq] at hsame
  omega

theorem namesRight (hopenSsl : Succeeds api.openSsl) (hstart : s.auth = .empty)
    (h : Run (Step api) s events s') (hbound : (registered events).length ≤ 2 ^ 64) :
    NamesRight api events s'.auth := by
  have hnamed := run_named hopenSsl hstart h
  have hkept := run_kept hopenSsl hstart h hbound
  constructor
  · intro id id' stored stored' hlookup hlookup' hname
    obtain ⟨account, hmem, rfl, hstores⟩ := hkept.users id stored hlookup
    obtain ⟨account', hmem', rfl, hstores'⟩ := hkept.users id' stored' hlookup'
    rw [hstores.username, hstores'.username] at hname
    rw [hnamed.eq_of_sameName hmem hmem' hname]
  · intro name id
    rw [hnamed.indexed]
    constructor
    · rintro ⟨account, hmem, hname, rfl⟩
      obtain ⟨stored, hlookup, hstores⟩ := hkept.stored account hmem
      exact ⟨stored, hlookup, hstores.username ▸ hname⟩
    · rintro ⟨stored, hlookup, hname⟩
      obtain ⟨account, hmem, hid, hstores⟩ := hkept.users id stored hlookup
      exact ⟨account, hmem, hstores.username ▸ hname, hid⟩
  · rintro before e after rfl username password hcall hname hpassword
    obtain ⟨s₁, s₂, hrun, hstep⟩ := h.of_append
    exact (step_outcome hopenSsl hstep).conflict_iff (run_named hopenSsl hstart hrun) hcall
      ⟨hname, hpassword⟩
  · rintro before e after rfl username password hcall
    obtain ⟨s₁, s₂, hrun, hstep⟩ := h.of_append
    have hle := registered_le before (e :: after)
    exact (step_outcome hopenSsl hstep).login_iff
      (run_kept hopenSsl hstart hrun (hle.trans hbound)) (run_named hopenSsl hstart hrun) hcall
  · rintro before e after rfl username password hcall
    obtain ⟨s₁, s₂, hrun, hstep⟩ := h.of_append
    exact (step_outcome hopenSsl hstep).login_refused hcall

/-- Names are unique, the index is right, and registrations and logins answer as the history of
registrations asks, for as long as no id is given twice: for 2^64 registrations. -/
theorem names_right_iff (hopenSsl : Succeeds api.openSsl) (hstart : s.auth = .empty)
    (h : Run (Step api) s events s') :
    NamesRight api events s'.auth ↔ (registered events).length ≤ 2 ^ 64 := by
  constructor
  · intro hright
    by_contra hlong
    exact not_namesRight (run_named hopenSsl hstart h) (Nat.lt_of_not_le hlong) hright
  · exact namesRight hopenSsl hstart h

/-- A free name is registered under the next id, with a session. -/
theorem register_next (hopenSsl : Succeeds api.openSsl)
    (hvalid : isValidUsername username ∧ isValidPassword password)
    (hfree : normalizeUsername username ∉ s.auth.userIdsByName) (random : ℕ → ℕ → UInt8) :
    ∃ s' passwordHash, Step api s ⟨.registerUser username password, fun _ => 0, random,
        ⟨.success, some ⟨⟨s.auth.nextUserId, username, .active, 0, 0⟩, tokenFrom random,
          api.sessionTtlSeconds⟩⟩⟩ s' ∧
      s'.auth = (store ⟨⟨s.auth.nextUserId, username, .active, 0, 0⟩, normalizeUsername username,
        passwordHash⟩ s.auth).createSession s.auth.nextUserId (tokenHash api (tokenFrom random))
          api.sessionTtlSeconds := by
  let asked : Event := ⟨.registerUser username password, fun _ => 0, random, ⟨.error, none⟩⟩
  have hclock : (during asked s).clock = fun _ => 0 := rfl
  obtain ⟨result, s', hrun, hreturns⟩ := Sessions.registerUser_returns username password hclock
  obtain ⟨houtcome, htoken⟩ := (registerUser_outcome (s := during asked s)
    (e := { asked with result }) hopenSsl rfl rfl).of_run hrun
  have hsuccess : result.status = .success := by
    specialize houtcome rfl
    generalize s'.auth = r' at houtcome
    cases houtcome with
    | invalid hcall hinvalid _ _ =>
      cases hcall
      exact absurd hvalid hinvalid
    | taken hcall htaken _ =>
      cases hcall
      exact absurd htaken hfree
    | stored hcall _ _ hadmits =>
      obtain ⟨session, digest, hresult, _⟩ := hadmits
      exact congrArg Result.status hresult
    | refused hcall _ _ => cases hcall
    | admitted hcall _ _ _ => cases hcall
  rcases hreturns with ⟨hfailed, _⟩ | ⟨passwordHash, user, r, session, hcreated, rfl, hnew⟩
  · exact absurd hsuccess hfailed
  have hstored : s.auth.createUser username (normalizeUsername username) passwordHash 0 = _ :=
    createUser_free hfree
  obtain ⟨hsame, rfl⟩ := Prod.mk.inj (hstored.symm.trans hcreated)
  have huser : some ⟨s.auth.nextUserId, username, .active, 0, 0⟩ = some user :=
    (CreateUserResult.mk.inj hsame).2
  obtain rfl := Option.some.inj huser
  rcases hnew with ⟨rfl, _⟩ | ⟨token, _, rfl, hauth⟩
  · cases hsuccess
  obtain rfl : token = tokenFrom random := htoken _ rfl
  have hexpires : (0 : ℤ).tdiv 1000 + api.sessionTtlSeconds = api.sessionTtlSeconds := by simp
  rw [hexpires] at hrun hauth
  exact ⟨s', passwordHash, hrun, hauth⟩

def demoName (i : ℕ) : Bytes := ascii "user" ++ toDecimal i

def demoCall (i : ℕ) : Call := .registerUser (demoName i) (ascii "correct horse")

theorem normalizeUsername_demoName (i : ℕ) : normalizeUsername (demoName i) = demoName i := by
  have hdigits : (toDecimal i).map toLower = toDecimal i := by
    refine (List.map_congr_left ?_).trans (List.map_id _)
    intro c hc
    have hdigit := toDecimal_isDigit i c hc
    have hupper : isUpper c = false := by
      simp only [isDigit, isUpper, Bool.and_eq_true, decide_eq_true_eq, Bool.and_eq_false_iff,
        decide_eq_false_iff_not, UInt8.le_iff_toNat_le] at hdigit ⊢
      exact .inl (Nat.not_le_of_lt (Nat.lt_of_le_of_lt hdigit.2 (by decide)))
    rw [toLower, hupper]
    rfl
  rw [normalizeUsername, demoName, List.map_append, hdigits]
  rfl

theorem isValidUsername_demoName {i : ℕ} (h : i < 10 ^ 20) : isValidUsername (demoName i) := by
  have hlength := toDecimal_length h
  have hdigits : ∀ c ∈ toDecimal i, isDigit c := toDecimal_isDigit i
  have hname : demoName i = 117 :: 115 :: 101 :: 114 :: toDecimal i := rfl
  rw [hname]
  simp only [isValidUsername, List.length_cons, List.head?_cons, Option.any_some, List.tail_cons,
    List.all_cons, Bool.and_eq_true, decide_eq_true_eq]
  refine ⟨⟨⟨by omega, by omega⟩, by decide⟩, by decide, by decide, by decide, ?_⟩
  simp only [List.all_eq_true, Bool.or_eq_true]
  exact fun c hc => .inl (.inl (.inr (hdigits c hc)))

/-- The i-th call draws i to the base 256. -/
def demoDraws (i : ℕ) (_ j : ℕ) : UInt8 := (i / 256 ^ j).toUInt8

def demoAccount (i : ℕ) : User := ⟨(i + 1) % 2 ^ 64, demoName i, .active, 0, 0⟩

def demoRegistration (ttl : ℤ) (i : ℕ) : Event :=
  ⟨demoCall i, fun _ => 0, demoDraws i,
    ⟨.success, some ⟨demoAccount i, tokenFrom (demoDraws i), ttl⟩⟩⟩

def demoRegistrations (ttl : ℤ) (n : ℕ) : List Event := (List.range n).map (demoRegistration ttl)

theorem demoRegistrations_succ (ttl : ℤ) (n : ℕ) :
    demoRegistrations ttl (n + 1) = demoRegistrations ttl n ++ [demoRegistration ttl n] := by
  rw [demoRegistrations, List.range_succ, List.map_append]
  rfl

theorem registered_demoRegistrations (ttl : ℤ) (n : ℕ) :
    (registered (demoRegistrations ttl n)).map Account.username = (List.range n).map demoName := by
  have haccounts : registered (demoRegistrations ttl n) = (List.range n).map fun i =>
      ⟨(i + 1) % 2 ^ 64, demoName i, ascii "correct horse", (demoRegistration ttl i).salt⟩ := by
    rw [registered, demoRegistrations, List.filterMap_map, ← List.filterMap_eq_map]
    rfl
  rw [haccounts, List.map_map]
  rfl

theorem length_registered (ttl : ℤ) (n : ℕ) :
    (registered (demoRegistrations ttl n)).length = n := by
  have hlength := congrArg List.length (registered_demoRegistrations ttl n)
  simpa only [List.length_map, List.length_range] using hlength

theorem demoRegistration_next (hopenSsl : Succeeds api.openSsl) (hstart : s.auth = .empty) {n : ℕ}
    (hn : n < 10 ^ 20) (h : Run (Step api) s (demoRegistrations api.sessionTtlSeconds n) s') :
    ∃ s'' passwordHash, Step api s' (demoRegistration api.sessionTtlSeconds n) s'' ∧
      s''.auth = (store ⟨demoAccount n, demoName n, passwordHash⟩ s'.auth).createSession
        (demoAccount n).id (tokenHash api (tokenFrom (demoDraws n))) api.sessionTtlSeconds := by
  have hnamed := run_named hopenSsl hstart h
  have hid : s'.auth.nextUserId = (n + 1) % 2 ^ 64 := by rw [hnamed.nextUserId, length_registered]
  have hfree : normalizeUsername (demoName n) ∉ s'.auth.userIdsByName := by
    rw [hnamed.mem_iff]
    rintro ⟨account, hmem, hname⟩
    have husername := List.mem_map_of_mem (f := Account.username) hmem
    rw [registered_demoRegistrations] at husername
    obtain ⟨i, hi, hi'⟩ := List.mem_map.mp husername
    rw [← hi', sameName_iff, normalizeUsername_demoName, normalizeUsername_demoName] at hname
    have heq := toDecimal_injective (List.append_cancel_left hname)
    rw [List.mem_range] at hi
    omega
  have hnext := register_next hopenSsl
    ⟨isValidUsername_demoName hn, show isValidPassword (ascii "correct horse") by decide⟩ hfree
    (demoDraws n)
  rw [hid, normalizeUsername_demoName] at hnext
  exact hnext

theorem demoRegistrations_run (hopenSsl : Succeeds api.openSsl) (hstart : s.auth = .empty) {n : ℕ}
    (hn : n ≤ 10 ^ 20) :
    ∃ s', Run (Step api) s (demoRegistrations api.sessionTtlSeconds n) s' := by
  induction n with
  | zero => exact ⟨s, .start⟩
  | succ n ih =>
    obtain ⟨s', hrun⟩ := ih (by omega)
    obtain ⟨s'', _, hstep, _⟩ := demoRegistration_next hopenSsl hstart (by omega) hrun
    exact ⟨s'', demoRegistrations_succ _ _ ▸ .snoc hrun hstep⟩

/-- The call in a history of sessions, at one clock reading. -/
def Event.asSession (e : Event) : Sessions.Event :=
  ⟨e.clock 0, match e.call with
    | .registerUser username password => .registerUser username password e.result
    | .login username password => .login username password e.result⟩

theorem run_asSession (h : Run (Step api) s events s')
    (hclock : ∀ e ∈ events, e.clock = fun _ => e.clock 0) :
    Run (Sessions.Step api) s (events.map Event.asSession) s' := by
  induction h with
  | start => exact .start
  | @snoc events s e s' _ hlast ih =>
    rw [List.map_append]
    refine .snoc (ih fun e he => hclock e (List.mem_append_left _ he))
      ⟨fun n => some (e.random n), ?_⟩
    have hsame := hclock e (by simp)
    rw [Step, during, hsame] at hlast
    rcases e with ⟨call, clock, random, result⟩
    cases call with
    | registerUser | login => exact hlast

theorem mem_asSession {ttl : ℤ} {n : ℕ} {e : Sessions.Event}
    (h : e ∈ (demoRegistrations ttl n).map Event.asSession) :
    ∃ i < n, e = (demoRegistration ttl i).asSession := by
  obtain ⟨call, hcall, rfl⟩ := List.mem_map.mp h
  obtain ⟨i, hi, rfl⟩ := List.mem_map.mp hcall
  exact ⟨i, List.mem_range.mp hi, rfl⟩

/-- The last user is stored under the last id, and the first session is still there. -/
theorem demoRegistrations_first (hopenSsl : Succeeds api.openSsl) (hstart : s.auth = .empty)
    (hapart : ∀ i < 10 ^ 20, 0 < i →
      tokenHash api (tokenFrom (demoDraws 0)) ≠ tokenHash api (tokenFrom (demoDraws i)))
    {n : ℕ} (hn : n < 10 ^ 20) :
    ∃ s', Run (Step api) s (demoRegistrations api.sessionTtlSeconds (n + 1)) s' ∧
      (s'.auth.users.lookup (demoAccount n).id).map StoredUser.user = some (demoAccount n) ∧
      s'.auth.sessions.lookup (tokenHash api (tokenFrom (demoDraws 0))) =
        some ⟨1, api.sessionTtlSeconds, none⟩ := by
  -- what the last registration leaves
  have hlast {n : ℕ} (hn : n < 10 ^ 20) {s' : ServerState MemoryAuthRepository L}
      (hrun : Run (Step api) s (demoRegistrations api.sessionTtlSeconds n) s') :
      ∃ s'', Run (Step api) s (demoRegistrations api.sessionTtlSeconds (n + 1)) s'' ∧
        (s''.auth.users.lookup (demoAccount n).id).map StoredUser.user = some (demoAccount n) ∧
        s''.auth.sessions = s'.auth.sessions.insert (tokenHash api (tokenFrom (demoDraws n)))
          ⟨(demoAccount n).id, api.sessionTtlSeconds, none⟩ := by
    obtain ⟨s'', passwordHash, hstep, hauth⟩ := demoRegistration_next hopenSsl hstart hn hrun
    refine ⟨s'', demoRegistrations_succ _ _ ▸ .snoc hrun hstep, ?_, ?_⟩
    · rw [hauth]
      change ((s'.auth.users.insert (demoAccount n).id _).lookup (demoAccount n).id).map _ = _
      rw [AList.lookup_insert]
      rfl
    · rw [hauth]
      rfl
  induction n with
  | zero =>
    obtain ⟨s', hrun, huser, hsessions⟩ := hlast hn .start
    exact ⟨s', hrun, huser, by rw [hsessions, AList.lookup_insert]; rfl⟩
  | succ n ih =>
    obtain ⟨s', hrun, _, hfirst⟩ := ih (by omega)
    obtain ⟨s'', hrun', huser, hsessions⟩ := hlast hn hrun
    refine ⟨s'', hrun', huser, ?_⟩
    rw [hsessions, AList.lookup_insert_ne (hapart _ hn (by omega)), hfirst]

theorem eq_of_bytes (n : ℕ) {a b : ℕ} (ha : a < 256 ^ n) (hb : b < 256 ^ n)
    (h : ∀ j < n, (a / 256 ^ j).toUInt8 = (b / 256 ^ j).toUInt8) : a = b := by
  induction n generalizing a b with
  | zero => omega
  | succ n ih =>
    rw [pow_succ'] at ha hb
    have hhigh : a / 256 = b / 256 := by
      refine ih (by omega) (by omega) fun j hj => ?_
      have hbyte := h (j + 1) (by omega)
      rwa [pow_succ', ← Nat.div_div_eq_div_mul, ← Nat.div_div_eq_div_mul] at hbyte
    have hlow := congrArg UInt8.toNat (h 0 (by omega))
    simp only [pow_zero, Nat.div_one, Nat.toUInt8, UInt8.toNat_ofNat'] at hlow
    omega

theorem tokenFrom_demoDraws {i k : ℕ} (hi : i < 10 ^ 20) (hk : k < 10 ^ 20)
    (h : tokenFrom (demoDraws i) = tokenFrom (demoDraws k)) : i = k := by
  have hbytes := List.map_inj_left.mp (toHex_injective h)
  have hlarge : 10 ^ 20 < 256 ^ 32 := by norm_num
  exact eq_of_bytes 32 (hi.trans hlarge) (hk.trans hlarge)
    fun j hj => hbytes j (List.mem_range.mpr hj)

section Demo

open MemoryShortLinks (MemoryShortLinkRepository)
open Sessions (demoSalt demoScrypt demoDigests demoStart demoUser demoToken)

/-- The keys and digests that the calls below need are the real ones. -/
def demoApi : ShortLinkHttpApi MemoryAuthRepository MemoryShortLinkRepository :=
  { Sessions.demoApi with
    openSsl := ⟨fun token => some ((demoDigests token).getD [0]),
      fun password salt => some ((demoScrypt password salt).getD (List.replicate 32 0))⟩ }

theorem demoApi_succeeds : Succeeds demoApi.openSsl where
  scrypt password salt := by
    refine ⟨_, rfl, ?_⟩
    unfold demoScrypt
    split <;> decide
  sha256 token := by
    refine ⟨_, rfl, ?_⟩
    unfold demoDigests
    split
    · decide
    · split <;> decide

/-- The calls register one name after the other, until the first id comes back. -/
theorem ids_come_round : ∃ events s', Run (Step demoApi) demoStart events s' ∧
    events.map Event.call = (List.range (2 ^ 64 + 1)).map demoCall ∧
    ¬ NamesRight demoApi events s'.auth := by
  obtain ⟨s', hrun⟩ := demoRegistrations_run (n := 2 ^ 64 + 1) demoApi_succeeds
    (show demoStart.auth = .empty from rfl) (by norm_num)
  refine ⟨_, s', hrun, by rw [demoRegistrations, List.map_map]; rfl, ?_⟩
  apply not_namesRight (run_named demoApi_succeeds rfl hrun)
  rw [length_registered]
  omega

def demoRandom (token : UInt8) (n i : ℕ) : UInt8 := if n = 0 then i.toUInt8 else token

/-- Ada registers, her name is taken in any spelling, and only she can log in. -/
def demoEvents : List Event :=
  [⟨.registerUser (ascii "Ada") (ascii "correct horse"), fun _ => 100000, demoRandom 1,
      ⟨.success, some ⟨demoUser, demoToken 1, 160⟩⟩⟩,
    ⟨.registerUser (ascii "ADA") (ascii "correct horse"), fun _ => 101000, demoRandom 2,
      ⟨.usernameConflict, none⟩⟩,
    ⟨.login (ascii "aDa") (ascii "correct horse"), fun _ => 110000, fun _ _ => 2,
      ⟨.success, some ⟨demoUser, demoToken 2, 170⟩⟩⟩,
    ⟨.login (ascii "a$a") (ascii "correct horse"), fun _ => 120000, fun _ _ => 3,
      ⟨.invalidCredentials, none⟩⟩]

def next (s : ServerState MemoryAuthRepository MemoryShortLinkRepository) (e : Event) :
    Option (ServerState MemoryAuthRepository MemoryShortLinkRepository) :=
  Sessions.returned e.result ((perform demoApi e.call).run (during e s))

theorem names_right_demo :
    ∃ s', Run (Step demoApi) demoStart demoEvents s' ∧ NamesRight demoApi demoEvents s'.auth := by
  have hdone : (demoEvents.foldlM next demoStart).isSome := by decide
  obtain ⟨s', hs⟩ := Option.isSome_iff_exists.mp hdone
  have hrun : Run (Step demoApi) demoStart demoEvents s' :=
    (Run.of_foldlM hs).mono fun _ _ _ h => Sessions.returned_eq_some h
  exact ⟨s', hrun, (names_right_iff demoApi_succeeds rfl hrun).mpr (by decide)⟩

/-- A digest that sends no two tokens to one value: the bytes that the token spells. -/
def spelled (token : Bytes) : Bytes := ((fromHex token).getD []).rightpad 32 0

theorem spelled_tokenFrom (random : ℕ → ℕ → UInt8) :
    spelled (tokenFrom random) = (List.range 32).map (random 1) := by
  simp [spelled, tokenFrom, fromHex_toHex, List.rightpad]

def spellingApi : ShortLinkHttpApi MemoryAuthRepository MemoryShortLinkRepository :=
  { demoApi with openSsl := ⟨fun token => some (spelled token), demoApi.openSsl.scrypt⟩ }

theorem spellingApi_succeeds : Succeeds spellingApi.openSsl where
  scrypt := demoApi_succeeds.scrypt
  sha256 token := by
    refine ⟨_, rfl, fun hempty => ?_⟩
    have hlength := congrArg List.length hempty
    rw [spelled, List.length_rightpad, List.length_nil] at hlength
    omega

/-- The registrations, and then the first user asks with the token of their session. -/
def demoHistory (n : ℕ) : List Sessions.Event :=
  (demoRegistrations 60 (n + 1)).map Event.asSession ++
    [⟨0, .authenticate (tokenFrom (demoDraws 0)) (some (demoAccount n))⟩]

theorem mem_demoHistory {n : ℕ} {e : Sessions.Event} (h : e ∈ demoHistory n) :
    e.now = 0 ∧ ∃ i ≤ n, e.tokens = [tokenFrom (demoDraws i)] := by
  rcases List.mem_append.mp h with h | h
  · obtain ⟨i, hi, rfl⟩ := mem_asSession h
    exact ⟨rfl, i, Nat.le_of_lt_succ hi, rfl⟩
  · obtain rfl := List.mem_singleton.mp h
    exact ⟨rfl, 0, Nat.zero_le n, rfl⟩

theorem issued_demoHistory (n : ℕ) : Sessions.issued (demoHistory n) =
    (List.range (n + 1)).map fun i => tokenFrom (demoDraws i) := by
  rw [Sessions.issued, demoHistory, demoRegistrations, List.map_map, List.filterMap_append,
    List.filterMap_map, ← List.filterMap_eq_map]
  exact List.append_nil _

theorem demoHistory_assumed {n : ℕ} (hn : n < 10 ^ 20) :
    Sessions.Assumed spellingApi (demoHistory n) where
  digests _ _ := rfl
  collisionFree := by
    have hspells : ∀ a ∈ Sessions.presented (demoHistory n), ∃ i, a = tokenFrom (demoDraws i) := by
      intro a ha
      obtain ⟨e, he, ha⟩ := List.mem_flatMap.mp ha
      obtain ⟨_, i, _, htokens⟩ := mem_demoHistory he
      rw [htokens, List.mem_singleton] at ha
      exact ⟨i, ha⟩
    intro a ha b hb hsame
    obtain ⟨i, rfl⟩ := hspells a ha
    obtain ⟨k, rfl⟩ := hspells b hb
    have hbytes := Option.some.inj hsame
    rw [spelled_tokenFrom, spelled_tokenFrom] at hbytes
    exact congrArg toHex hbytes
  neverRepeats := by
    rw [issued_demoHistory]
    refine List.Nodup.map_on (fun i hi k hk h => ?_) List.nodup_range
    rw [List.mem_range] at hi hk
    exact tokenFrom_demoDraws (by omega) (by omega) h
  nondecreasing := by
    apply List.pairwise_of_forall_mem_list
    intro e he e' he'
    rw [(mem_demoHistory he).1, (mem_demoHistory he').1]

theorem registrations_demoHistory (n : ℕ) : Sessions.registrations (demoHistory n) = n + 1 := by
  have hall : ∀ e ∈ (demoRegistrations 60 (n + 1)).map Event.asSession,
      Sessions.Event.isRegistration e := by
    intro e he
    obtain ⟨i, _, rfl⟩ := mem_asSession he
    rfl
  rw [Sessions.registrations, demoHistory, List.countP_append, List.countP_eq_length.mpr hall,
    demoRegistrations, List.length_map, List.length_map, List.length_range]
  rfl

theorem tokenHash_demoDraws {i : ℕ} (hi : i < 10 ^ 20) (hpos : 0 < i) :
    tokenHash spellingApi (tokenFrom (demoDraws 0)) ≠
      tokenHash spellingApi (tokenFrom (demoDraws i)) := by
  intro hsame
  have hspelled : spelled (tokenFrom (demoDraws 0)) = spelled (tokenFrom (demoDraws i)) :=
    toHex_injective hsame
  rw [spelled_tokenFrom, spelled_tokenFrom] at hspelled
  have := tokenFrom_demoDraws (by norm_num) hi (congrArg toHex hspelled)
  omega

/-- After 2^64 more registrations the id of the first user is that of the last. -/
theorem demoHistory_run :
    ∃ s', Run (Sessions.Step spellingApi) demoStart (demoHistory (2 ^ 64)) s' := by
  obtain ⟨s₁, hrun, huser, hfirst⟩ := demoRegistrations_first spellingApi_succeeds
    (show demoStart.auth = .empty from rfl) (fun i => tokenHash_demoDraws)
    (show 2 ^ 64 < 10 ^ 20 by norm_num)
  obtain ⟨stored, hstored, huser⟩ := Option.map_eq_some_iff.mp huser
  have hclock : ∀ e ∈ demoRegistrations 60 (2 ^ 64 + 1), e.clock = fun _ => e.clock 0 := by
    intro e he
    obtain ⟨i, _, rfl⟩ := List.mem_map.mp he
    rfl
  let asked : ServerState MemoryAuthRepository MemoryShortLinkRepository :=
    { s₁ with clock := fun _ => 0, random := fun _ => none }
  have hasked : asked.clock = fun _ => 0 := rfl
  obtain ⟨answer, s₂, hanswer, _, rfl⟩ :=
    @Sessions.authenticate_returns _ spellingApi _ _ (tokenFrom (demoDraws 0)) hasked
  have hlength : (tokenFrom (demoDraws 0)).length = 64 := by simp [tokenFrom, toHex_length]
  have hfound : s₁.auth.findUserBySession (tokenHash spellingApi (tokenFrom (demoDraws 0))) 0 =
      some (demoAccount (2 ^ 64)) := by
    have hid : s₁.auth.users.lookup 1 = some stored := hstored
    rw [MemoryAuthRepository.findUserBySession, hfirst]
    simp only [Option.bind_eq_bind, Option.bind_some, hid, huser]
    rfl
  rw [if_pos hlength] at hanswer
  exact ⟨s₂, (run_asSession hrun hclock).snoc ⟨fun _ => none, hfound ▸ hanswer⟩⟩

/-- The only call that returned the token returned it to the first user. -/
theorem demoHistory_not_right {n : ℕ} (hpos : 0 < n) (hn : n < 10 ^ 20) :
    ¬ Sessions.SessionsRight 60 (demoHistory n) := by
  intro hright
  obtain ⟨before, e, since, hsplit, ⟨session, hsession, htoken, huser⟩, _⟩ :=
    (hright.authenticates _ _ _ _ ⟨List.prefix_rfl, rfl⟩ (demoAccount n)).mp rfl
  have hmem : e ∈ (demoRegistrations 60 (n + 1)).map Event.asSession := by
    rw [hsplit]
    simp
  obtain ⟨i, hi, rfl⟩ := mem_asSession hmem
  obtain rfl := Option.some.inj hsession
  have hzero : i = 0 := tokenFrom_demoDraws (by omega) (by norm_num) htoken
  have hname : demoName i = demoName n := congrArg User.username huser
  have := toDecimal_injective (List.append_cancel_left hname)
  omega

/-- The token of the first session shows the user who got the first id again. -/
theorem session_changes_hands : ∃ events s', Run (Sessions.Step spellingApi) demoStart events s' ∧
    Sessions.Assumed spellingApi events ∧ Sessions.registrations events = 2 ^ 64 + 1 ∧
    ¬ Sessions.SessionsRight 60 events := by
  have hlarge : 2 ^ 64 < 10 ^ 20 := by norm_num
  obtain ⟨s', hrun⟩ := demoHistory_run
  exact ⟨_, s', hrun, demoHistory_assumed hlarge, registrations_demoHistory _,
    demoHistory_not_right (by norm_num) hlarge⟩

end Demo

end Registrations
