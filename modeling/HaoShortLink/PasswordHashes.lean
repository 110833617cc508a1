import HaoShortLink.Sessions
import HaoShortLink.StringPositions
import Mathlib.Data.List.GetD

/-! PasswordHasher with its loops: which stored strings a password is accepted for. -/
namespace PasswordHashes

open Cpp Actions ServerStates ServerStates.Server StringPositions
open AuthServices (hexValue derive kScryptN kScryptR kScryptP kSaltBytes kHashBytes)
open RequestIds (hexDigit)

def hexDigits : Bytes := ascii "0123456789abcdef"

def toHex (data : Bytes) : Bytes :=
  (List.range data.length).foldl
    (fun result i =>
      let byte := (data.getD i 0).toNat
      (result.set (i * 2) (hexDigits.getD (byte >>> 4) 0)).set (i * 2 + 1)
        (hexDigits.getD (byte &&& 0x0f) 0))
    (List.replicate (data.length * 2) 48)

def fromHex (value : Bytes) : Option Bytes :=
  if value.length % 2 ≠ 0 then none
  else
    (List.range (value.length / 2)).foldlM
      (fun bytes i => do
        let high ← hexValue (value.getD (i * 2) 0)
        let low ← hexValue (value.getD (i * 2 + 1) 0)
        pure (bytes.set i (high <<< 4 ||| low).toUInt8))
      (List.replicate (value.length / 2) 0)

def splitLoop (value : Bytes) (separator : UInt8) (begin : ℕ) (parts : List Bytes) : List Bytes :=
  match _h : find value separator begin with
  | none => parts ++ [slice value begin none]
  | some stop =>
    splitLoop value separator (stop + 1) (parts ++ [slice value begin (some stop)])
termination_by value.length - begin
decreasing_by
  obtain ⟨hbegin, hstop, _⟩ := find_some _h
  omega

def split (value : Bytes) (separator : UInt8) : List Bytes := splitLoop value separator 0 []

section Source

variable {A L : Type} (api : ShortLinkHttpApi A L)

def hash (password : Bytes) : Server A L (Option Bytes) := do
  match ← randBytes kSaltBytes with
  | none => pure none
  | some salt =>
    match derive api.openSsl password salt with
    | none => pure none
    | some derived =>
      pure (some (ascii "scrypt$" ++ toDecimal kScryptN ++ ascii "$" ++ toDecimal kScryptR ++
        ascii "$" ++ toDecimal kScryptP ++ ascii "$" ++ toHex salt ++ ascii "$" ++ toHex derived))

/-- What stoull throws is caught. -/
def verify (openSsl : OpenSsl) (password encodedHash : Bytes) : Bool :=
  match split encodedHash 36 with
  | [scheme, n, r, p, salt, expected] =>
    if scheme ≠ ascii "scrypt" then false
    else
      match stoull n, stoull r, stoull p with
      | some n, some r, some p =>
        if n ≠ kScryptN ∨ r ≠ kScryptR ∨ p ≠ kScryptP then false
        else
          match fromHex salt, fromHex expected with
          | some salt, some expected =>
            if salt.length ≠ kSaltBytes ∨ expected.length ≠ kHashBytes then false
            else
              match derive openSsl password salt with
              | none => false
              | some actual => actual == expected
          | _, _ => false
      | _, _, _ => false
  | _ => false

end Source

theorem hexDigits_getD {n : ℕ} (h : n < 16) : hexDigits.getD n 0 = hexDigit n := by
  have hall : ∀ n < 16, hexDigits.getD n 0 = hexDigit n := by decide
  exact hall n h

theorem hexDigit_mod (n : ℕ) : hexDigit (n % 16) = hexDigit n := by
  rw [AuthServices.hexDigit_eq_iff, Nat.mod_mod]

theorem hexDigits_shiftRight (byte : UInt8) :
    hexDigits.getD (byte.toNat >>> 4) 0 = hexDigit (byte.toNat / 16) := by
  have hlt := byte.toNat_lt
  rw [Nat.shiftRight_eq_div_pow]
  exact hexDigits_getD (by omega)

theorem hexDigits_and (byte : UInt8) :
    hexDigits.getD (byte.toNat &&& 0x0f) 0 = hexDigit byte.toNat := by
  have hmask : byte.toNat &&& 0x0f = byte.toNat % 16 := Nat.and_two_pow_sub_one_eq_mod _ 4
  rw [hmask, hexDigits_getD (Nat.mod_lt _ (by decide)), hexDigit_mod]

theorem toHex_cons (byte : UInt8) (data : Bytes) : AuthServices.toHex (byte :: data) =
    hexDigit (byte.toNat / 16) :: hexDigit byte.toNat :: AuthServices.toHex data := by
  simp [AuthServices.toHex]

/-- After k turns the digits of the first k bytes are in place. -/
theorem toHex_turns (data : Bytes) {k : ℕ} (hk : k ≤ data.length) :
    (List.range k).foldl
      (fun result i =>
        let byte := (data.getD i 0).toNat
        (result.set (i * 2) (hexDigits.getD (byte >>> 4) 0)).set (i * 2 + 1)
          (hexDigits.getD (byte &&& 0x0f) 0))
      (List.replicate (data.length * 2) 48) =
    AuthServices.toHex (data.take k) ++ List.replicate ((data.length - k) * 2) 48 := by
  induction k with
  | zero => simp [AuthServices.toHex]
  | succ k ih =>
    have hlength : (AuthServices.toHex (data.take k)).length = k * 2 := by
      rw [AuthServices.toHex_length, List.length_take]
      omega
    have hzeros : (data.length - k) * 2 = (data.length - (k + 1)) * 2 + 2 := by omega
    have hbyte : data.getD k 0 = data[k] := List.getD_eq_getElem _ _ (by omega)
    have htake : AuthServices.toHex (data.take (k + 1)) = AuthServices.toHex (data.take k) ++
        [hexDigit (data[k].toNat / 16), hexDigit data[k].toNat] := by
      rw [List.take_succ_eq_append_getElem (by omega), AuthServices.toHex, List.flatMap_append]
      simp [AuthServices.toHex]
    rw [List.range_succ, List.foldl_append, ih (by omega), hzeros, List.replicate_succ,
      List.replicate_succ]
    simp only [List.foldl_cons, List.foldl_nil]
    rw [hexDigits_shiftRight, hexDigits_and, hbyte, htake, ← hlength]
    simp

theorem toHex_eq (data : Bytes) : toHex data = AuthServices.toHex data := by
  rw [toHex, toHex_turns data (Nat.le_refl _)]
  simp

theorem fromHex_append_pair {value : Bytes} (h : value.length % 2 = 0) (high low : UInt8) :
    AuthServices.fromHex (value ++ [high, low]) = (do
      let bytes ← AuthServices.fromHex value
      let high ← hexValue high
      let low ← hexValue low
      pure (bytes ++ [(high * 16 + low).toUInt8])) := by
  induction value using AuthServices.fromHex.induct with
  | case1 => simp [AuthServices.fromHex]
  | case2 c => simp at h
  | case3 first second rest ih =>
    simp only [List.length_cons] at h
    simp only [List.cons_append, AuthServices.fromHex, ih (by omega)]
    cases hexValue first <;> cases hexValue second <;> cases AuthServices.fromHex rest <;>
      cases hexValue high <;> cases hexValue low <;> simp

theorem hexValue_eq_some_iff {c : UInt8} {n : ℕ} :
    hexValue c = some n ↔ n < 16 ∧ toLower c = hexDigit n := by
  have hall : ∀ i < 256, hexValue i.toUInt8 = hexDigits.idxOf? (toLower i.toUInt8) := by
    decide +kernel
  have hvalue : hexValue c = hexDigits.idxOf? (toLower c) := by
    have hc := hall c.toNat c.toNat_lt
    rwa [Nat.toUInt8, UInt8.ofNat_toNat] at hc
  have hnodup : hexDigits.Nodup := by decide
  have hlength : hexDigits.length = 16 := by decide
  rw [hvalue, List.idxOf?_eq_some_iff]
  constructor
  · intro h
    obtain ⟨hn, hc, _⟩ := h
    rw [← List.getD_eq_getElem _ 0 hn, hexDigits_getD (hlength ▸ hn)] at hc
    exact ⟨hlength ▸ hn, hc.symm⟩
  · intro h
    obtain ⟨hn, hc⟩ := h
    have hlt : n < hexDigits.length := hlength ▸ hn
    have hget : hexDigits[n] = toLower c := by
      rw [hc, ← List.getD_eq_getElem _ 0 hlt, hexDigits_getD hn]
    refine ⟨hlt, hget, ?_⟩
    intro j hj heq
    rw [← hget, hnodup.getElem_inj_iff] at heq
    omega

theorem fromHex_eq_some_iff {value bytes : Bytes} :
    AuthServices.fromHex value = some bytes ↔ value.map toLower = AuthServices.toHex bytes := by
  induction value using AuthServices.fromHex.induct generalizing bytes with
  | case1 =>
    cases bytes with
    | nil => simp [AuthServices.fromHex, AuthServices.toHex]
    | cons byte bytes => simp [AuthServices.fromHex, AuthServices.toHex]
  | case2 c =>
    cases bytes with
    | nil => simp [AuthServices.fromHex, AuthServices.toHex]
    | cons byte bytes => simp [AuthServices.fromHex, AuthServices.toHex]
  | case3 high low rest ih =>
    simp only [AuthServices.fromHex, Option.bind_eq_bind, Option.bind_eq_some_iff, Option.pure_def,
      Option.some.injEq]
    constructor
    · intro h
      obtain ⟨m, hm, n, hn, tail, htail, hbytes⟩ := h
      obtain ⟨hmlt, hhigh⟩ := hexValue_eq_some_iff.mp hm
      obtain ⟨hnlt, hlow⟩ := hexValue_eq_some_iff.mp hn
      have hbyte : (m * 16 + n).toUInt8.toNat = m * 16 + n := by
        rw [Nat.toUInt8, UInt8.toNat_ofNat']
        omega
      have hdiv : (m * 16 + n) / 16 = m := by omega
      have hmod : hexDigit (m * 16 + n) = hexDigit n := by
        rw [AuthServices.hexDigit_eq_iff]
        omega
      rw [← hbytes, toHex_cons, hbyte, hdiv, hmod, List.map_cons, List.map_cons, hhigh, hlow,
        ih.mp htail]
    · intro h
      cases bytes with
      | nil => cases h
      | cons byte bytes =>
        rw [toHex_cons, List.map_cons, List.map_cons, List.cons.injEq, List.cons.injEq] at h
        obtain ⟨hhigh, hlow, hrest⟩ := h
        have hlt := byte.toNat_lt
        have hbyte : byte.toNat / 16 * 16 + byte.toNat % 16 = byte.toNat := by omega
        refine ⟨byte.toNat / 16, hexValue_eq_some_iff.mpr ⟨by omega, hhigh⟩, byte.toNat % 16,
          hexValue_eq_some_iff.mpr ⟨by omega, hlow.trans (hexDigit_mod _).symm⟩, bytes,
          ih.mpr hrest, ?_⟩
        rw [hbyte, Nat.toUInt8, UInt8.ofNat_toNat]

theorem length_fromHex {value bytes : Bytes} (h : AuthServices.fromHex value = some bytes) :
    value.length = 2 * bytes.length := by
  rw [← AuthServices.toHex_length, ← fromHex_eq_some_iff.mp h, List.length_map]

theorem fromHex_odd {value : Bytes} (h : value.length % 2 ≠ 0) :
    AuthServices.fromHex value = none := by
  rw [Option.eq_none_iff_forall_ne_some]
  intro bytes hbytes
  have hlength := length_fromHex hbytes
  omega

theorem nibbles_eq (high : ℕ) {low : ℕ} (hlow : low < 16) :
    high <<< 4 ||| low = high * 16 + low := by
  rw [← Nat.shiftLeft_add_eq_or_of_lt (by omega), Nat.shiftLeft_eq]

/-- After k turns the first k bytes are in place, unless a digit was none. -/
theorem fromHex_turns (value : Bytes) {k : ℕ} (hk : k ≤ value.length / 2) :
    (List.range k).foldlM
      (fun bytes i => do
        let high ← hexValue (value.getD (i * 2) 0)
        let low ← hexValue (value.getD (i * 2 + 1) 0)
        pure (bytes.set i (high <<< 4 ||| low).toUInt8))
      (List.replicate (value.length / 2) 0) =
    (AuthServices.fromHex (value.take (k * 2))).map
      (· ++ List.replicate (value.length / 2 - k) 0) := by
  induction k with
  | zero => simp [AuthServices.fromHex]
  | succ k ih =>
    have hhigh : value.getD (k * 2) 0 = value[k * 2] := List.getD_eq_getElem _ _ (by omega)
    have hlow : value.getD (k * 2 + 1) 0 = value[k * 2 + 1] := List.getD_eq_getElem _ _ (by omega)
    have htake : value.take ((k + 1) * 2) =
        value.take (k * 2) ++ [value[k * 2], value[k * 2 + 1]] := by
      rw [Nat.add_mul, Nat.one_mul, List.take_succ_eq_append_getElem (by omega),
        List.take_succ_eq_append_getElem (by omega), List.append_assoc]
      simp
    have heven : (value.take (k * 2)).length % 2 = 0 := by
      rw [List.length_take]
      omega
    have hzeros : value.length / 2 - k = value.length / 2 - (k + 1) + 1 := by omega
    rw [List.range_succ, List.foldlM_append, ih (by omega), htake, fromHex_append_pair heven,
      hzeros, List.replicate_succ]
    simp only [List.foldlM_cons, List.foldlM_nil, hhigh, hlow]
    cases hbytes : AuthServices.fromHex (value.take (k * 2)) with
    | none => simp
    | some bytes =>
      have hlength := length_fromHex hbytes
      rw [List.length_take] at hlength
      have hk : k = bytes.length := by omega
      cases hm : hexValue value[k * 2] with
      | none => simp
      | some m =>
        cases hn : hexValue value[k * 2 + 1] with
        | none => simp
        | some n =>
          have hset := nibbles_eq m (hexValue_eq_some_iff.mp hn).1
          simp only [Option.map_some, Option.bind_eq_bind, Option.bind_some, Option.pure_def, hset]
          simp [hk]

theorem fromHex_eq (value : Bytes) : fromHex value = AuthServices.fromHex value := by
  unfold fromHex
  split
  · next h => exact (fromHex_odd h).symm
  · next h =>
    have htake : value.take (value.length / 2 * 2) = value := List.take_of_length_le (by omega)
    rw [fromHex_turns value (Nat.le_refl _), htake]
    simp

theorem splitLoop_eq (value : Bytes) (separator : UInt8) (begin : ℕ) (parts : List Bytes) :
    splitLoop value separator begin parts = parts ++ (value.drop begin).splitOn separator := by
  induction begin, parts using splitLoop.induct value separator with
  | case1 begin parts h =>
    rw [splitLoop]
    split
    · rw [splitOn_drop, h]
    · next h' => cases h.symm.trans h'
  | case2 begin parts stop h ih =>
    rw [splitLoop]
    split
    · next h' => cases h.symm.trans h'
    · next stop' h' =>
      obtain rfl : stop = stop' := Option.some.inj (h.symm.trans h')
      rw [ih, splitOn_drop value separator begin, h, List.append_assoc, List.cons_append,
        List.nil_append]

theorem split_eq (value : Bytes) (separator : UInt8) :
    split value separator = value.splitOn separator := by
  rw [split, splitLoop_eq, List.nil_append, List.drop_zero]

section Laws

variable {A L : Type} {api : ShortLinkHttpApi A L} {openSsl : OpenSsl}

theorem hash_eq (api : ShortLinkHttpApi A L) (password : Bytes) :
    hash api password = AuthServices.hash api password := by
  unfold hash AuthServices.hash
  congr 1
  funext salt
  cases salt with
  | none => simp
  | some salt =>
    cases hderive : derive api.openSsl password salt with
    | none => simp [hderive]
    | some derived => simp [hderive, toHex_eq, AuthServices.encodeHash]

theorem verify_eq (openSsl : OpenSsl) (password encodedHash : Bytes) :
    verify openSsl password encodedHash = AuthServices.verify openSsl password encodedHash := by
  unfold verify AuthServices.verify
  rw [split_eq]
  split
  · next scheme n r p salt expected hparts =>
    simp only [hparts, fromHex_eq]
    by_cases hscheme : scheme = ascii "scrypt"
    · rw [if_neg (not_not_intro hscheme)]
      rcases stoull n with _ | n <;> rcases stoull r with _ | r <;> rcases stoull p with _ | p <;>
        try simp
      rcases AuthServices.fromHex salt with _ | salt <;>
        rcases AuthServices.fromHex expected with _ | expected <;> try simp
      cases derive openSsl password salt <;> simp [hscheme, Bool.and_assoc, beq_eq_decide]
    · simp [hscheme]
  · next hparts =>
    split
    · next h => exact absurd h (hparts _ _ _ _ _ _)
    · rfl

/-- scrypt under the parameters above is a function that succeeds. -/
structure Scrypt (openSsl : OpenSsl) (scrypt : Bytes → Bytes → Bytes) : Prop where
  succeeds : ∀ password salt, openSsl.scrypt password salt = some (scrypt password salt)
  length : ∀ password salt, (scrypt password salt).length = kHashBytes

/-- The six parts of a stored string that stands for the salt and the key. -/
structure Parts (encoded n r p saltText keyText salt key : Bytes) : Prop where
  split : encoded.splitOn 36 = [ascii "scrypt", n, r, p, saltText, keyText]
  n : stoull n = some 32768
  r : stoull r = some 8
  p : stoull p = some 1
  saltDigits : saltText.length = 32
  salt : saltText.map toLower = AuthServices.toHex salt
  keyDigits : keyText.length = 64
  key : keyText.map toLower = AuthServices.toHex key

def StandsFor (encoded salt key : Bytes) : Prop :=
  ∃ n r p saltText keyText, Parts encoded n r p saltText keyText salt key

theorem derive_eq {scrypt : Bytes → Bytes → Bytes} (h : Scrypt openSsl scrypt)
    (password salt : Bytes) : derive openSsl password salt = some (scrypt password salt) := by
  rw [derive, h.succeeds, Option.map_some, List.take_of_length_le (h.length password salt).le]

/-- A password is accepted for the strings that stand for its key. -/
theorem verify_iff {scrypt : Bytes → Bytes → Bytes} (h : Scrypt openSsl scrypt)
    (password encoded : Bytes) : verify openSsl password encoded = true ↔
      ∃ salt, StandsFor encoded salt (scrypt password salt) := by
  rw [verify_eq, AuthServices.verify]
  constructor
  · intro haccepted
    split at haccepted
    · next scheme n r p saltText keyText hparts =>
      simp only [Bool.and_eq_true, beq_iff_eq] at haccepted
      obtain ⟨⟨⟨⟨hscheme, hn⟩, hr⟩, hp⟩, hkey⟩ := haccepted
      split at hkey
      · next salt key hsaltText hkeyText =>
        simp only [Bool.and_eq_true, beq_iff_eq, derive_eq h, Option.some.injEq] at hkey
        obtain ⟨⟨hsalt, hlength⟩, hderived⟩ := hkey
        rw [← hderived] at hkeyText
        have hsaltDigits := length_fromHex hsaltText
        have hkeyDigits := length_fromHex hkeyText
        rw [hsalt] at hsaltDigits
        rw [hderived, hlength] at hkeyDigits
        exact ⟨salt, n, r, p, saltText, keyText, hscheme ▸ hparts, hn, hr, hp, hsaltDigits,
          fromHex_eq_some_iff.mp hsaltText, hkeyDigits, fromHex_eq_some_iff.mp hkeyText⟩
      · cases hkey
    · cases haccepted
  · intro hstands
    obtain ⟨salt, n, r, p, saltText, keyText, hparts⟩ := hstands
    have hsaltText := fromHex_eq_some_iff.mpr hparts.salt
    have hkeyText := fromHex_eq_some_iff.mpr hparts.key
    have hsalt : salt.length = kSaltBytes := by
      have hlength := length_fromHex hsaltText
      rw [hparts.saltDigits] at hlength
      rw [kSaltBytes]
      omega
    have hn : stoull n = some kScryptN := hparts.n
    have hr : stoull r = some kScryptR := hparts.r
    have hp : stoull p = some kScryptP := hparts.p
    simp [hparts.split, hn, hr, hp, hsaltText, hkeyText, hsalt, h.length, derive_eq h]

theorem standsFor_encodeHash {salt key : Bytes} (hsalt : salt.length = kSaltBytes)
    (hkey : key.length = kHashBytes) (salt' key' : Bytes) :
    StandsFor (AuthServices.encodeHash salt key) salt' key' ↔ salt' = salt ∧ key' = key := by
  have hlower : ∀ data, (AuthServices.toHex data).map toLower = AuthServices.toHex data :=
    fun data => fromHex_eq_some_iff.mp (AuthServices.fromHex_toHex data)
  constructor
  · intro hstands
    obtain ⟨n, r, p, saltText, keyText, hparts⟩ := hstands
    have hsplit := hparts.split
    rw [AuthServices.splitOn_encodeHash] at hsplit
    simp only [List.cons.injEq, and_true] at hsplit
    obtain ⟨_, _, _, _, hsaltText, hkeyText⟩ := hsplit
    have hsalt' := hparts.salt
    have hkey' := hparts.key
    rw [← hsaltText, hlower] at hsalt'
    rw [← hkeyText, hlower] at hkey'
    exact ⟨(AuthServices.toHex_injective hsalt').symm, (AuthServices.toHex_injective hkey').symm⟩
  · intro heq
    rw [heq.1, heq.2]
    refine ⟨_, _, _, _, _, AuthServices.splitOn_encodeHash salt key,
      Decimals.stoull_toDecimal (by decide), Decimals.stoull_toDecimal (by decide),
      Decimals.stoull_toDecimal (by decide), ?_, hlower salt, ?_, hlower key⟩
    · rw [AuthServices.toHex_length, hsalt]
      decide
    · rw [AuthServices.toHex_length, hkey]
      decide

theorem hash_run {scrypt : Bytes → Bytes → Bytes} (h : Scrypt api.openSsl scrypt)
    (password : Bytes) {salt : Bytes} (hsalt : salt.length = kSaltBytes) {s : ServerState A L}
    (hdrawn : s.random 0 = some fun i => salt.getD i 0) :
    ((hash api password).run s).1 =
      .ok (some (AuthServices.encodeHash salt (scrypt password salt))) := by
  have hbytes : (List.range kSaltBytes).map (fun i => salt.getD i 0) = salt := by
    apply List.ext_getElem
    · rw [List.length_map, List.length_range, hsalt]
    · intro i _ hi
      rw [List.getElem_map, List.getElem_range, List.getD_eq_getElem _ _ hi]
  simp only [hash_eq, AuthServices.hash, randBytes, Action.run_bind, hdrawn, Option.map_some,
    hbytes, Action.run_pure, Option.bind_some, derive_eq h]

/-- What hash makes of a password and a salt is accepted for the passwords with the same key, and
whatever is accepted stands for the key. -/
theorem verify_hash {scrypt : Bytes → Bytes → Bytes} (h : Scrypt api.openSsl scrypt) :
    (∀ (password salt : Bytes) (s : ServerState A L), salt.length = 16 →
      s.random 0 = some (fun i => salt.getD i 0) → ∃ encoded,
        ((hash api password).run s).1 = .ok (some encoded) ∧
        verify api.openSsl password encoded = true ∧
        ∀ q, verify api.openSsl q encoded = true ↔ scrypt q salt = scrypt password salt) ∧
    ∀ q encoded, verify api.openSsl q encoded = true ↔
      ∃ salt, StandsFor encoded salt (scrypt q salt) := by
  refine ⟨?_, verify_iff h⟩
  intro password salt s hsalt hdrawn
  have hverify : ∀ q, verify api.openSsl q
      (AuthServices.encodeHash salt (scrypt password salt)) = true ↔
        scrypt q salt = scrypt password salt := by
    intro q
    rw [verify_iff h]
    constructor
    · intro hstands
      obtain ⟨salt', hstands⟩ := hstands
      obtain ⟨heq, hkey⟩ :=
        (standsFor_encodeHash hsalt (h.length password salt) salt' _).mp hstands
      rw [← hkey, heq]
    · intro hkey
      exact ⟨salt, (standsFor_encodeHash hsalt (h.length password salt) salt _).mpr
        ⟨rfl, hkey⟩⟩
  exact ⟨_, hash_run h password hsalt hdrawn, (hverify password).mpr rfl, hverify⟩

end Laws

section Demo

open Sessions (demoSalt demoStart)
open AuthRepositories (MemoryAuthRepository)
open MemoryShortLinks (MemoryShortLinkRepository)

/-- The keys for the two passwords of the demo are the real ones. -/
def demoScrypt (password salt : Bytes) : Bytes :=
  if password = ascii "wrong" ∧ salt = demoSalt then
    [139, 219, 142, 77, 231, 122, 159, 249, 233, 243, 248, 95, 114, 15, 2, 239,
      6, 125, 92, 162, 187, 85, 93, 175, 171, 206, 175, 90, 53, 177, 119, 78]
  else (Sessions.demoScrypt password salt).getD (List.replicate 32 0)

def demoApi : ShortLinkHttpApi MemoryAuthRepository MemoryShortLinkRepository :=
  { Sessions.demoApi with
    openSsl := ⟨Sessions.demoDigests, fun password salt => some (demoScrypt password salt)⟩ }

theorem demoScrypt_scrypt : Scrypt demoApi.openSsl demoScrypt where
  succeeds _ _ := by simp only [demoApi]
  length password salt := by
    unfold demoScrypt Sessions.demoScrypt
    split
    · decide
    · split <;> decide

def demoState : ServerState MemoryAuthRepository MemoryShortLinkRepository :=
  { demoStart with random := fun _ => some fun i => demoSalt.getD i 0 }

theorem verify_hash_demo : ∃ encoded,
    ((hash demoApi (ascii "correct horse")).run demoState).1 = .ok (some encoded) ∧
      verify demoApi.openSsl (ascii "correct horse") encoded = true ∧
      verify demoApi.openSsl (ascii "wrong") encoded = false := by
  obtain ⟨encoded, hrun, hsame, hiff⟩ := (verify_hash demoScrypt_scrypt).1
    (ascii "correct horse") demoSalt demoState (by decide) (by simp only [demoState])
  have hother : demoScrypt (ascii "wrong") demoSalt ≠
      demoScrypt (ascii "correct horse") demoSalt := by decide
  exact ⟨encoded, hrun, hsame, Bool.eq_false_iff.mpr fun h => hother ((hiff _).mp h)⟩

end Demo

end PasswordHashes
