import HaoShortLink.Decimals
import HaoShortLink.RequestIds
import HaoShortLink.ServerStates

/-! PasswordHasher.cpp and AuthService.cpp. -/
namespace AuthServices

open Cpp Actions AuthRepositories ServerStates ServerStates.Server
open RequestIds (hexDigit)

def toHex (data : Bytes) : Bytes :=
  data.flatMap fun byte => [hexDigit (byte.toNat / 16), hexDigit byte.toNat]

theorem toHex_length (data : Bytes) : (toHex data).length = 2 * data.length := by
  induction data with
  | nil => rfl
  | cons byte data ih =>
    rw [toHex, List.flatMap_cons, List.length_append, ← toHex, ih]
    simp only [List.length_cons, List.length_nil]
    omega

theorem hexDigit_eq_iff {m n : ℕ} : hexDigit m = hexDigit n ↔ m % 16 = n % 16 := by
  have hdigits : ∀ i < 16, ∀ j < 16, (ascii "0123456789abcdef").getD i 48 =
      (ascii "0123456789abcdef").getD j 48 → i = j := by decide
  constructor
  · exact hdigits _ (Nat.mod_lt m (by decide)) _ (Nat.mod_lt n (by decide))
  · intro h
    rw [hexDigit, hexDigit, h]

theorem toHex_injective {data data' : Bytes} (h : toHex data = toHex data') : data = data' := by
  induction data generalizing data' with
  | nil =>
    cases data' with
    | nil => rfl
    | cons byte data' => cases h
  | cons byte data ih =>
    cases data' with
    | nil => cases h
    | cons byte' data' =>
      simp only [toHex, List.flatMap_cons, List.cons_append, List.nil_append, List.cons.injEq,
        hexDigit_eq_iff] at h
      obtain ⟨hhigh, hlow, hrest⟩ := h
      have hlt := byte.toNat_lt
      have hlt' := byte'.toNat_lt
      rw [ih hrest, UInt8.toNat_inj.mp (by omega : byte.toNat = byte'.toNat)]

def hexValue (ch : UInt8) : Option ℕ :=
  if isDigit ch then some (ch.toNat - 48)
  else if 97 ≤ ch && ch ≤ 102 then some (ch.toNat - 97 + 10)
  else if 65 ≤ ch && ch ≤ 70 then some (ch.toNat - 65 + 10)
  else none

def fromHex : Bytes → Option Bytes
  | [] => some []
  | [_] => none
  | high :: low :: rest => do
    let high ← hexValue high
    let low ← hexValue low
    let bytes ← fromHex rest
    pure ((high * 16 + low).toUInt8 :: bytes)

def kScryptN : ℕ := 32768
def kScryptR : ℕ := 8
def kScryptP : ℕ := 1
def kSaltBytes : ℕ := 16
def kHashBytes : ℕ := 32

def encodeHash (salt derived : Bytes) : Bytes :=
  ascii "scrypt$" ++ toDecimal kScryptN ++ ascii "$" ++ toDecimal kScryptR ++ ascii "$" ++
    toDecimal kScryptP ++ ascii "$" ++ toHex salt ++ ascii "$" ++ toHex derived

/-- EVP_PBE_scrypt fills an array of kHashBytes bytes. -/
def derive (openSsl : OpenSsl) (password salt : Bytes) : Option Bytes :=
  (openSsl.scrypt password salt).map fun derived => derived.take kHashBytes

def verify (openSsl : OpenSsl) (password encodedHash : Bytes) : Bool :=
  match encodedHash.splitOn 36 with
  | [scheme, n, r, p, salt, expected] =>
    scheme == ascii "scrypt" && stoull n == some kScryptN && stoull r == some kScryptR &&
      stoull p == some kScryptP &&
      match fromHex salt, fromHex expected with
      | some salt, some expected =>
        salt.length == kSaltBytes && expected.length == kHashBytes &&
          derive openSsl password salt == some expected
      | _, _ => false
  | _ => false

theorem hexValue_hexDigit (n : ℕ) : hexValue (hexDigit n) = some (n % 16) := by
  have hdigits : ∀ i < 16, hexValue ((ascii "0123456789abcdef").getD i 48) = some i := by decide
  exact hdigits (n % 16) (Nat.mod_lt n (by decide))

theorem fromHex_toHex (data : Bytes) : fromHex (toHex data) = some data := by
  induction data with
  | nil => rfl
  | cons byte data ih =>
    have hlt := byte.toNat_lt
    have hbyte : (byte.toNat / 16 % 16 * 16 + byte.toNat % 16).toUInt8 = byte := by
      apply UInt8.toNat_inj.mp
      rw [Nat.toUInt8, UInt8.toNat_ofNat']
      omega
    rw [toHex, List.flatMap_cons, ← toHex]
    simp only [List.cons_append, List.nil_append, fromHex, hexValue_hexDigit, ih]
    exact congrArg (fun b => some (b :: data)) hbyte

theorem toHex_not_mem (data : Bytes) : (36 : UInt8) ∉ toHex data := by
  intro h
  obtain ⟨byte, _, hmem⟩ := List.mem_flatMap.mp h
  -- a '$' would be no digit
  have hdigit : ∀ n, hexDigit n ≠ 36 := by
    intro n hn
    have hvalue := hexValue_hexDigit n
    rw [hn] at hvalue
    cases hvalue
  simp [(hdigit _).symm] at hmem

theorem splitOn_encodeHash (salt derived : Bytes) : (encodeHash salt derived).splitOn 36 =
    [ascii "scrypt", toDecimal kScryptN, toDecimal kScryptR, toDecimal kScryptP, toHex salt,
      toHex derived] := by
  have hdecimal : ∀ n, (36 : UInt8) ∉ toDecimal n := by
    intro n hmem
    exact absurd (Decimals.toDecimal_isDigit n 36 hmem) (by decide)
  have hdollar : ascii "$" = [36] := by decide
  have hscheme : ascii "scrypt$" = ascii "scrypt" ++ [36] := by decide
  simp only [encodeHash, hdollar, hscheme, List.append_assoc, List.cons_append, List.nil_append]
  rw [List.splitOn_append_cons_self_of_not_mem (by decide),
    List.splitOn_append_cons_self_of_not_mem (hdecimal _),
    List.splitOn_append_cons_self_of_not_mem (hdecimal _),
    List.splitOn_append_cons_self_of_not_mem (hdecimal _),
    List.splitOn_append_cons_self_of_not_mem (toHex_not_mem salt),
    List.splitOn_eq_singleton (toHex_not_mem derived)]

theorem verify_encodeHash (openSsl : OpenSsl) (password : Bytes) {salt derived : Bytes}
    (hsalt : salt.length = kSaltBytes) (hderived : derived.length = kHashBytes) :
    verify openSsl password (encodeHash salt derived) =
      (derive openSsl password salt == some derived) := by
  rw [verify, splitOn_encodeHash]
  simp [Decimals.stoull_toDecimal (show kScryptN < 2 ^ 64 by decide),
    Decimals.stoull_toDecimal (show kScryptR < 2 ^ 64 by decide),
    Decimals.stoull_toDecimal (show kScryptP < 2 ^ 64 by decide), fromHex_toHex, hsalt, hderived]

inductive ResultStatus where
  | success
  | invalidUsername
  | invalidPassword
  | usernameConflict
  | invalidCredentials
  | error
  deriving DecidableEq, Repr

structure AuthenticatedSession where
  user : User
  token : Bytes
  expiresAt : ℤ
  deriving DecidableEq, Repr

structure Result where
  status : ResultStatus
  session : Option AuthenticatedSession
  deriving DecidableEq, Repr

def isAsciiLetter (ch : UInt8) : Bool := isUpper ch || isLower ch

def isValidUsername (username : Bytes) : Bool :=
  3 ≤ username.length && username.length ≤ 32 && username.head?.any isAsciiLetter &&
    username.tail.all fun ch => isAsciiLetter ch || isDigit ch || ch == 95 || ch == 45

def isValidPassword (password : Bytes) : Bool := 10 ≤ password.length && password.length ≤ 128

def normalizeUsername (username : Bytes) : Bytes := username.map toLower

variable {A L : Type} (api : ShortLinkHttpApi A L)

/-- Empty when the digest cannot be computed. -/
def tokenHash (token : Bytes) : Bytes := ((api.openSsl.sha256 token).map toHex).getD []

def hash (password : Bytes) : Server A L (Option Bytes) := do
  let salt ← randBytes kSaltBytes
  pure (salt.bind fun salt => (derive api.openSsl password salt).map (encodeHash salt))

def generateToken : Server A L (Option Bytes) := do
  let token ← randBytes 32
  pure (token.map toHex)

def createSession (user : User) : Server A L (Option AuthenticatedSession) := do
  match ← generateToken with
  | none => pure none
  | some token => do
    let now ← nowEpochSeconds
    let expiresAt := now + api.sessionTtlSeconds
    let digest := tokenHash api token
    if digest = [] then pure none
    else do
      updateAuth (api.authRepository.createSession user.id digest expiresAt)
      pure (some ⟨user, token, expiresAt⟩)

def sessionResult (session : Option AuthenticatedSession) : Result :=
  match session with
  | some session => ⟨.success, some session⟩
  | none => ⟨.error, none⟩

def registerUser (username password : Bytes) : Server A L Result :=
  if !isValidUsername username then pure ⟨.invalidUsername, none⟩
  else if !isValidPassword password then pure ⟨.invalidPassword, none⟩
  else do
    match ← hash api password with
    | none => pure ⟨.error, none⟩
    | some passwordHash => do
      let now ← nowEpochSeconds
      let created ← updateAuth
        (api.authRepository.createUser username (normalizeUsername username) passwordHash now)
      match created.status, created.user with
      | .created, some user => do
        let session ← createSession api user
        pure (sessionResult session)
      | _, _ => pure ⟨.usernameConflict, none⟩

def login (username password : Bytes) : Server A L Result := do
  let credentials ← queryAuth (api.authRepository.findCredentials (normalizeUsername username))
  let passwordMatches := verify api.openSsl password
    ((credentials.map Credentials.passwordHash).getD api.dummyPasswordHash)
  match credentials with
  | none => pure ⟨.invalidCredentials, none⟩
  | some credentials =>
    if credentials.user.status ≠ .active ∨ passwordMatches = false then
      pure ⟨.invalidCredentials, none⟩
    else do
      let session ← createSession api credentials.user
      pure (sessionResult session)

/-- The clock is read only for tokens of the right length. -/
def authenticate (token : Bytes) : Server A L (Option User) :=
  if token.length ≠ 64 then pure none
  else do
    let now ← nowEpochSeconds
    queryAuth (api.authRepository.findUserBySession (tokenHash api token) now)

def logout (token : Bytes) : Server A L Unit :=
  if token.length = 64 then do
    let now ← nowEpochSeconds
    updateAuth (api.authRepository.revokeSession (tokenHash api token) now)
  else pure ()

theorem authenticate_harmless (token : Bytes) : Harmless (authenticate api token) := by
  unfold authenticate
  split
  · exact .pure _
  · exact .bind .nowEpochSeconds fun _ => .queryAuth _

end AuthServices
