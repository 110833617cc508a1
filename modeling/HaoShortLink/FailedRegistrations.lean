import HaoShortLink.AuthServices
import HaoShortLink.MySqlAuthRepository
import HaoShortLink.Sessions

/-! What a registration that does not succeed leaves in the repository. -/
namespace FailedRegistrations

open Cpp Actions Action AuthRepositories AuthServices ServerStates ServerStates.Server

/-- The users in the states of a repository: which names are taken decides what createUser answers,
and sessions are kept apart from them. -/
structure UserTable {A : Type} (repository : AuthRepository A) (U : Type) where
  users : A → U
  taken : U → Bytes → Prop
  conflict : ∀ username name hash now a, taken (users a) name →
    ∃ a', repository.createUser username name hash now a = (.ok ⟨.conflict, none⟩, a') ∧
      users a' = users a
  created : ∀ username name hash now a, ¬ taken (users a) name →
    ∃ user a', repository.createUser username name hash now a =
      (.ok ⟨.created, some user⟩, a') ∧ taken (users a') name
  session : ∀ userId tokenHash expiresAt a,
    users (repository.createSession userId tokenHash expiresAt a).2 = users a

variable {A L U : Type} (api : ShortLinkHttpApi A L)

def Failed (r : Except RepositoryException Result) : Prop :=
  ∀ result, r = .ok result → result.status ≠ .success

/-- A failed registration leaves the users as they were, and the same credentials find the name
taken later on only if it was taken before. -/
def LeavesNothing (table : UserTable api.authRepository U) (s : ServerState A L)
    (username password : Bytes) : Prop :=
  Failed ((registerUser api username password).run s).1 →
    table.users ((registerUser api username password).run s).2.auth = table.users s.auth ∧
    ∀ later : ServerState A L, later.auth = ((registerUser api username password).run s).2.auth →
      ((registerUser api username password).run later).1 = .ok ⟨.usernameConflict, none⟩ →
      table.taken (table.users s.auth) (normalizeUsername username)

def passwordHash (s : ServerState A L) (password : Bytes) : Option Bytes :=
  ((s.random 0).map fun byte => (List.range kSaltBytes).map byte).bind fun salt =>
    (derive api.openSsl password salt).map (encodeHash salt)

def seconds (s : ServerState A L) : ℤ := (s.clock 0).tdiv 1000

def afterUser (s : ServerState A L) (a : A) : ServerState A L :=
  { s with auth := a, random := fun n => s.random (n + 1), clock := fun n => s.clock (n + 1) }

def tokenFrom (byte : ℕ → UInt8) : Bytes := toHex ((List.range 32).map byte)

/-- The token cannot be drawn, its digest cannot be computed, or the repository throws. -/
inductive SessionFails (s : ServerState A L) (user : User) : Prop where
  | noToken : s.random 0 = none → SessionFails s user
  | noDigest {byte} : s.random 0 = some byte → tokenHash api (tokenFrom byte) = [] →
      SessionFails s user
  | notStored {byte e} : s.random 0 = some byte → tokenHash api (tokenFrom byte) ≠ [] →
      (api.authRepository.createSession user.id (tokenHash api (tokenFrom byte))
        (seconds s + api.sessionTtlSeconds) s.auth).1 = .error e → SessionFails s user

/-- The user is stored, and then the session cannot be. -/
def Orphans (s : ServerState A L) (username password : Bytes) : Prop :=
  ∃ hash user a, isValidUsername username = true ∧ isValidPassword password = true ∧
    passwordHash api s password = some hash ∧
    api.authRepository.createUser username (normalizeUsername username) hash (seconds s) s.auth =
      (.ok ⟨.created, some user⟩, a) ∧
    SessionFails api (afterUser s a) user

section Calls

variable {api} (table : UserTable api.authRepository U) {s : ServerState A L}
  {username password : Bytes} {user : User}

theorem hash_run : (hash api password).run s =
    (.ok (passwordHash api s password), { s with random := fun n => s.random (n + 1) }) := rfl

theorem createSession_keeps (user : User) :
    Keeps (fun s : ServerState A L => table.users s.auth) (createSession api user) := by
  refine keeps_bind (fun _ => rfl) ?_
  intro token
  cases token with
  | none => exact keeps_pure _
  | some token =>
    refine keeps_bind (fun _ => rfl) ?_
    intro now
    dsimp only
    split
    · exact keeps_pure _
    · refine keeps_bind ?_ (fun _ => keeps_pure _)
      intro s
      exact table.session user.id _ _ s.auth

theorem createSession_noToken (h : s.random 0 = none) :
    ((createSession api user).run s).1 = .ok none := by
  simp only [createSession, generateToken, randBytes, run_bind, h, Option.map_none, run_pure]

theorem createSession_noDigest {byte : ℕ → UInt8} (h : s.random 0 = some byte)
    (hdigest : tokenHash api (tokenFrom byte) = []) :
    ((createSession api user).run s).1 = .ok none := by
  rw [tokenFrom] at hdigest
  simp only [createSession, generateToken, randBytes, run_bind, h, Option.map_some, run_pure,
    nowEpochSeconds, nowEpochMilliseconds, if_pos hdigest]

theorem createSession_reaches {byte : ℕ → UInt8} (h : s.random 0 = some byte)
    (hdigest : tokenHash api (tokenFrom byte) ≠ []) :
    ((createSession api user).run s).1 =
      ((api.authRepository.createSession user.id (tokenHash api (tokenFrom byte))
        (seconds s + api.sessionTtlSeconds) s.auth).1.mapError .std).map fun _ =>
          some ⟨user, tokenFrom byte, seconds s + api.sessionTtlSeconds⟩ := by
  rw [tokenFrom] at hdigest ⊢
  simp only [createSession, generateToken, randBytes, run_bind, h, Option.map_some, run_pure,
    nowEpochSeconds, nowEpochMilliseconds, if_neg hdigest, updateAuth, seconds]
  cases (api.authRepository.createSession user.id
    (tokenHash api (toHex ((List.range 32).map byte)))
    ((s.clock 0).tdiv 1000 + api.sessionTtlSeconds) s.auth).1 <;> rfl

theorem createSession_fails_iff : (∀ session, ((createSession api user).run s).1 ≠
    .ok (some session)) ↔ SessionFails api s user := by
  constructor
  · intro h
    cases hrandom : s.random 0 with
    | none => exact .noToken hrandom
    | some byte =>
      by_cases hdigest : tokenHash api (tokenFrom byte) = []
      · exact .noDigest hrandom hdigest
      · rw [createSession_reaches hrandom hdigest] at h
        cases hstored : (api.authRepository.createSession user.id
          (tokenHash api (tokenFrom byte)) (seconds s + api.sessionTtlSeconds) s.auth).1 with
        | ok u =>
          rw [hstored] at h
          exact absurd rfl (h _)
        | error e => exact .notStored hrandom hdigest hstored
  · intro h session hsession
    cases h with
    | noToken hrandom =>
      rw [createSession_noToken hrandom] at hsession
      cases hsession
    | noDigest hrandom hdigest =>
      rw [createSession_noDigest hrandom hdigest] at hsession
      cases hsession
    | notStored hrandom hdigest hstored =>
      rw [createSession_reaches hrandom hdigest, hstored] at hsession
      cases hsession

theorem registerUser_noHash (hname : isValidUsername username = true)
    (hpassword : isValidPassword password = true) (hhash : passwordHash api s password = none) :
    (registerUser api username password).run s =
      (.ok ⟨.error, none⟩, { s with random := fun n => s.random (n + 1) }) := by
  simp only [registerUser, hname, hpassword, Bool.not_true, Bool.false_eq_true, if_false]
  rw [run_bind_ok hash_run, hhash]
  rfl

/-- The rest of a registration is the call of createUser and what it is followed by. -/
theorem registerUser_hashed {encoded : Bytes} {created : CreateUserResult} {a : A}
    (hname : isValidUsername username = true) (hpassword : isValidPassword password = true)
    (hhash : passwordHash api s password = some encoded)
    (hcreate : api.authRepository.createUser username (normalizeUsername username) encoded
      (seconds s) s.auth = (.ok created, a)) :
    (registerUser api username password).run s =
      (match created.status, created.user with
      | .created, some user => sessionResult <$> createSession api user
      | _, _ => pure ⟨.usernameConflict, none⟩ : Server A L Result).run (afterUser s a) := by
  have hupdate : (updateAuth (api.authRepository.createUser username (normalizeUsername username)
      encoded (seconds s)) : Server A L CreateUserResult).run
      { s with random := fun n => s.random (n + 1), clock := fun n => s.clock (n + 1) } =
      (.ok created, afterUser s a) := by
    simp only [updateAuth, hcreate]
    rfl
  have hclock : (nowEpochSeconds : Server A L ℤ).run
      { s with random := fun n => s.random (n + 1) } = (.ok (seconds s),
      { s with random := fun n => s.random (n + 1), clock := fun n => s.clock (n + 1) }) := rfl
  simp only [registerUser, hname, hpassword, Bool.not_true, Bool.false_eq_true, if_false]
  rw [run_bind_ok hash_run, hhash]
  dsimp only
  rw [run_bind_ok hclock, run_bind_ok hupdate]
  rfl

theorem orphans_hashed_iff {encoded : Bytes} {created : CreateUserResult} {a : A}
    (hname : isValidUsername username = true) (hpassword : isValidPassword password = true)
    (hhash : passwordHash api s password = some encoded)
    (hcreate : api.authRepository.createUser username (normalizeUsername username) encoded
      (seconds s) s.auth = (.ok created, a)) :
    Orphans api s username password ↔
      ∃ user, created = ⟨.created, some user⟩ ∧ SessionFails api (afterUser s a) user := by
  constructor
  · rintro ⟨encoded', user, a', -, -, hencoded, hcreated, hfails⟩
    rw [hhash] at hencoded
    cases hencoded
    rw [hcreate] at hcreated
    cases hcreated
    exact ⟨user, rfl, hfails⟩
  · rintro ⟨user, rfl, hfails⟩
    exact ⟨encoded, user, a, hname, hpassword, hhash, hcreate, hfails⟩

theorem registerUser_cases (s : ServerState A L) (username password : Bytes) :
    (∃ status, ((registerUser api username password).run s).1 = .ok ⟨status, none⟩ ∧
      table.users ((registerUser api username password).run s).2.auth = table.users s.auth ∧
      (status = .usernameConflict → table.taken (table.users s.auth) (normalizeUsername username)) ∧
      ¬ Orphans api s username password) ∨
    ∃ user a, ¬ table.taken (table.users s.auth) (normalizeUsername username) ∧
      table.taken (table.users a) (normalizeUsername username) ∧
      (registerUser api username password).run s =
        (sessionResult <$> createSession api user).run (afterUser s a) ∧
      (Orphans api s username password ↔ SessionFails api (afterUser s a) user) := by
  by_cases hname : isValidUsername username = true
  · by_cases hpassword : isValidPassword password = true
    · cases hhash : passwordHash api s password with
      | none =>
        have hrun := registerUser_noHash hname hpassword hhash
        refine .inl ⟨.error, by rw [hrun], by rw [hrun], (fun h => by cases h), ?_⟩
        rintro ⟨encoded, user, a, -, -, hencoded, -⟩
        rw [hhash] at hencoded
        cases hencoded
      | some encoded =>
        by_cases htaken : table.taken (table.users s.auth) (normalizeUsername username)
        · obtain ⟨a, hcreate, hsame⟩ := table.conflict username _ encoded (seconds s) _ htaken
          have hrun := registerUser_hashed hname hpassword hhash hcreate
          refine .inl ⟨.usernameConflict, by rw [hrun]; rfl, ?_, fun _ => htaken, ?_⟩
          · rw [hrun]
            exact hsame
          · rw [orphans_hashed_iff hname hpassword hhash hcreate]
            rintro ⟨user, hcreated, -⟩
            cases hcreated
        · obtain ⟨user, a, hcreate, hnow⟩ :=
            table.created username _ encoded (seconds s) _ htaken
          have hrun := registerUser_hashed hname hpassword hhash hcreate
          refine .inr ⟨user, a, htaken, hnow, hrun, ?_⟩
          rw [orphans_hashed_iff hname hpassword hhash hcreate]
          constructor
          · rintro ⟨user', hcreated, hfails⟩
            cases hcreated
            exact hfails
          · intro hfails
            exact ⟨user, rfl, hfails⟩
    · have hrun : registerUser api username password = pure ⟨.invalidPassword, none⟩ := by
        simp only [registerUser, hname, hpassword, Bool.not_true, Bool.not_false,
          Bool.false_eq_true, if_false, if_true]
      refine .inl ⟨.invalidPassword, by rw [hrun]; rfl, by rw [hrun]; rfl,
        (fun h => by cases h), ?_⟩
      rintro ⟨encoded, user, a, -, hvalid, -⟩
      exact hpassword hvalid
  · have hrun : registerUser api username password = pure ⟨.invalidUsername, none⟩ := by
      simp only [registerUser, hname, Bool.not_false, if_true]
    refine .inl ⟨.invalidUsername, by rw [hrun]; rfl, by rw [hrun]; rfl,
        (fun h => by cases h), ?_⟩
    rintro ⟨encoded, user, a, hvalid, -⟩
    exact hname hvalid

theorem taken_of_conflict
    (h : ((registerUser api username password).run s).1 = .ok ⟨.usernameConflict, none⟩) :
    table.taken (table.users s.auth) (normalizeUsername username) := by
  rcases registerUser_cases table s username password with
    ⟨status, hresult, -, htaken, -⟩ | ⟨user, a, -, -, hrun, -⟩
  · rw [hresult] at h
    cases h
    exact htaken rfl
  · rw [hrun] at h
    cases hsession : (createSession api user).run (afterUser s a) with
    | mk r s' =>
      cases r with
      | ok session =>
        rw [run_map_ok hsession] at h
        cases session <;> cases h
      | error e =>
        rw [run_map_error hsession] at h
        cases h

theorem not_leavesNothing (h : Orphans api s username password) :
    ¬ LeavesNothing api table s username password := by
  rcases registerUser_cases table s username password with
    ⟨status, -, -, -, hno⟩ | ⟨user, a, hfree, hnow, hrun, horphans⟩
  · exact absurd h hno
  · have hnone := createSession_fails_iff.mpr (horphans.mp h)
    have hkept := createSession_keeps table user (afterUser s a)
    have hfailed : Failed ((registerUser api username password).run s).1 := by
      intro result hresult
      rw [hrun] at hresult
      cases hsession : (createSession api user).run (afterUser s a) with
      | mk r s' =>
        rw [hsession] at hnone
        cases r with
        | error e =>
          rw [run_map_error hsession] at hresult
          cases hresult
        | ok session =>
          rw [run_map_ok hsession] at hresult
          cases hresult
          cases session with
          | none =>
            intro hstatus
            cases hstatus
          | some session => exact absurd rfl (hnone session)
    have hauth : ((registerUser api username password).run s).2 =
        ((createSession api user).run (afterUser s a)).2 := by
      rw [hrun]
      cases hsession : (createSession api user).run (afterUser s a) with
      | mk r s' =>
        cases r with
        | ok session => rw [run_map_ok hsession]
        | error e => rw [run_map_error hsession]
    intro hnothing
    have hsame := (hnothing hfailed).1
    rw [hauth] at hsame
    exact hfree (hsame.symm.trans hkept ▸ hnow)

theorem leavesNothing_of_session (h : ¬ Orphans api s username password) :
    LeavesNothing api table s username password := by
  intro hfailed
  rcases registerUser_cases table s username password with
    ⟨status, -, hsame, -, -⟩ | ⟨user, a, -, -, hrun, horphans⟩
  · refine ⟨hsame, ?_⟩
    intro later hlater hconflict
    have htaken := taken_of_conflict table hconflict
    rwa [hlater, hsame] at htaken
  · rw [horphans, ← createSession_fails_iff] at h
    push Not at h
    obtain ⟨session, hok⟩ := h
    have hresult : ((registerUser api username password).run s).1 =
        .ok (sessionResult (some session)) := by
      rw [hrun, run_map_ok (Prod.ext hok rfl)]
    exact absurd rfl (hfailed _ hresult)

/-- A registration that fails leaves nothing behind exactly when it is not the case that the user
can be stored and the session cannot be created. -/
theorem failed_leaves_nothing_iff (s : ServerState A L) (username password : Bytes) :
    LeavesNothing api table s username password ↔ ¬ Orphans api s username password := by
  constructor
  · intro hnothing horphans
    exact not_leavesNothing table horphans hnothing
  · intro h
    exact leavesNothing_of_session table h

end Calls

theorem memory_conflict (username name passwordHash : Bytes) (now : ℤ) (r : MemoryAuthRepository)
    (htaken : name ∈ r.userIdsByName) :
    MemoryAuthRepository.repository.createUser username name passwordHash now r =
      (.ok ⟨.conflict, none⟩, r) := by
  simp only [MemoryAuthRepository.repository, MemoryAuthRepository.createUser, if_pos htaken]

theorem memory_created (username name passwordHash : Bytes) (now : ℤ) (r : MemoryAuthRepository)
    (hfree : name ∉ r.userIdsByName) : ∃ user r',
    MemoryAuthRepository.repository.createUser username name passwordHash now r =
      (.ok ⟨.created, some user⟩, r') ∧ name ∈ r'.userIdsByName := by
  simp only [MemoryAuthRepository.repository, MemoryAuthRepository.createUser, if_neg hfree]
  exact ⟨_, _, rfl, (AList.mem_insert _).mpr (.inl rfl)⟩

def memoryUsers : UserTable MemoryAuthRepository.repository
    ((AList fun _ : ℕ => StoredUser) × AList fun _ : Bytes => ℕ) where
  users := fun r => (r.users, r.userIdsByName)
  taken := fun u name => name ∈ u.2
  conflict := fun username name hash now r htaken =>
    ⟨r, memory_conflict username name hash now r htaken, rfl⟩
  created := memory_created
  session := fun _ _ _ _ => rfl

theorem mySql_created (username name passwordHash : Bytes) (now : ℤ)
    (t : MySqlAuthRepository.Tables) (hfree : ¬ (MySqlAuthRepository.named t name).isSome = true) :
    ∃ user t', MySqlAuthRepository.repository.createUser username name passwordHash now t =
      (.ok ⟨.created, some user⟩, t') ∧ (MySqlAuthRepository.named t' name).isSome = true := by
  obtain ⟨row, rfl, hcreate⟩ :=
    MySqlAuthRepository.createUser_created hfree username passwordHash now
  refine ⟨row.user, _, hcreate, ?_⟩
  simp [MySqlAuthRepository.named]

def mySqlUsers : UserTable MySqlAuthRepository.repository
    (List MySqlAuthRepository.UserRow) where
  users := fun t => t.users
  taken := fun rows name => (rows.find? (·.usernameNormalized == name)).isSome = true
  conflict := fun username _ hash now _ htaken =>
    ⟨_, MySqlAuthRepository.createUser_conflict htaken username hash now, rfl⟩
  created := mySql_created
  session := MySqlAuthRepository.createSession_users

def overMySql (api : ShortLinkHttpApi MySqlAuthRepository.Tables L) :
    ShortLinkHttpApi MySqlAuthRepository.Tables L :=
  { api with authRepository := MySqlAuthRepository.repository }

/-- A session that MySQL does not store: the account is there all the same. -/
theorem mySql_fault_leaves_account (api : ShortLinkHttpApi MySqlAuthRepository.Tables L)
    {s : ServerState MySqlAuthRepository.Tables L} {username password encoded : Bytes}
    {byte : ℕ → UInt8} {e : Exception} (hname : isValidUsername username = true)
    (hpassword : isValidPassword password = true)
    (hhash : passwordHash (overMySql api) s password = some encoded)
    (hfree : ¬ (MySqlAuthRepository.named s.auth (normalizeUsername username)).isSome = true)
    (hrandom : s.random 1 = some byte) (hdigest : tokenHash (overMySql api) (tokenFrom byte) ≠ [])
    (hfault : s.auth.faults 0 = some e) :
    ¬ LeavesNothing (overMySql api) mySqlUsers s username password := by
  obtain ⟨row, -, hcreate⟩ :=
    MySqlAuthRepository.createUser_created hfree username encoded (seconds s)
  apply not_leavesNothing
  refine ⟨encoded, row.user, _, hname, hpassword, hhash, hcreate, ?_⟩
  refine .notStored (e := e) hrandom hdigest ?_
  simp only [overMySql, MySqlAuthRepository.repository, MySqlAuthRepository.createSession,
    afterUser, hfault]

open Sessions (demoApi demoStart)

/-- RAND_bytes gives a salt and then nothing more. -/
def tokenless : ServerState MemoryAuthRepository MemoryShortLinks.MemoryShortLinkRepository :=
  { demoStart with random := fun n => if n = 0 then some fun i => i.toUInt8 else none }

/-- The account of a registration that was answered as an error. -/
theorem account_left_behind : ¬ ∀ (s : ServerState MemoryAuthRepository
    MemoryShortLinks.MemoryShortLinkRepository) (username password : Bytes),
    LeavesNothing demoApi memoryUsers s username password := by
  intro h
  have horphans : Orphans demoApi tokenless (ascii "Ada") (ascii "correct horse") :=
    ⟨_, _, _, rfl, rfl, rfl, rfl, .noToken rfl⟩
  exact not_leavesNothing memoryUsers horphans (h tokenless _ _)

end FailedRegistrations
