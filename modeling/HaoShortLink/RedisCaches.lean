import HaoShortLink.RedisStores
import HaoShortLink.ShortLinks

/-! RedisShortLinkCache.cpp: records of short links in Redis, each with an expiry. -/
namespace RedisCaches

open Cpp ShortLinks RedisStores

/-- The settings that a cache uses after it has connected. -/
structure Config where
  ttlSeconds : ℤ := 3600
  keyPrefix : Bytes := ascii "shortlink:"
  deriving DecidableEq, Repr

def buildCacheKey (keyPrefix code : Bytes) : Bytes := keyPrefix ++ code

def serialize (record : ShortLinkRecord) : Bytes :=
  ascii "v2|" ++ toDecimal record.id ++ ascii "|" ++ toDecimal record.ownerId ++ ascii "|" ++
    statusToString record.status ++ ascii "|" ++
    (match record.expiresAt with
      | some expiresAt => signedToDecimal expiresAt
      | none => ascii "-") ++ ascii "|" ++
    signedToDecimal record.createdAt ++ ascii "|" ++ signedToDecimal record.updatedAt ++
    ascii "|" ++ record.originalUrl

/-- The fields before the first separators, and the rest. -/
def splitFields (value : Bytes) : ℕ → Option (List Bytes)
  | 0 => some [value]
  | separators + 1 =>
    match value.idxOf? 124 with
    | none => none
    | some i => (splitFields (value.drop (i + 1)) separators).map (value.take i :: ·)

def parseExpiry (field : Bytes) : Option (Option ℤ) :=
  if field ≠ ascii "-" then (stoll field).map some else some none

/-- A conversion that throws is caught. -/
def deserialize (code value : Bytes) : Option ShortLinkRecord :=
  if !(ascii "v2|").isPrefixOf value then none
  else
    match splitFields value 7 with
    | some [version, id, ownerId, status, expiresAt, createdAt, updatedAt, originalUrl] =>
      if version ≠ ascii "v2" ∨ originalUrl = [] then none
      else do
        let status ← parseStatus status
        let id ← stoull id
        let ownerId ← stoull ownerId
        let expiresAt ← parseExpiry expiresAt
        let createdAt ← stoll createdAt
        let updatedAt ← stoll updatedAt
        some ⟨id, ownerId, code, originalUrl, status, expiresAt, createdAt, updatedAt⟩
    | _ => none

def IsInt64 (n : ℤ) : Prop := -2 ^ 63 ≤ n ∧ n < 2 ^ 63

instance (n : ℤ) : Decidable (IsInt64 n) := inferInstanceAs (Decidable (_ ∧ _))

/-- The fields are in the ranges of their C++ types. -/
structure Fits (record : ShortLinkRecord) : Prop where
  id : record.id < 2 ^ 64
  ownerId : record.ownerId < 2 ^ 64
  expiresAt : ∀ t ∈ record.expiresAt, IsInt64 t
  createdAt : IsInt64 record.createdAt
  updatedAt : IsInt64 record.updatedAt

theorem idxOf?_separator {field : Bytes} (h : 124 ∉ field) (rest : Bytes) :
    (field ++ 124 :: rest).idxOf? 124 = some field.length := by
  induction field with
  | nil => rfl
  | cons c field ih =>
    obtain ⟨hne, hrest⟩ := not_or.mp (mt List.mem_cons.mpr h)
    rw [List.cons_append, List.idxOf?_cons, if_neg (by simpa using Ne.symm hne), ih hrest]
    rfl

theorem splitFields_field {field : Bytes} (h : 124 ∉ field) (rest : Bytes) (separators : ℕ) :
    splitFields (field ++ 124 :: rest) (separators + 1) =
      (splitFields rest separators).map (field :: ·) := by
  have htake : (field ++ 124 :: rest).take field.length = field := List.take_left
  have hdrop : (field ++ 124 :: rest).drop (field.length + 1) = rest := by
    rw [List.append_cons]
    exact List.drop_left' (by simp)
  rw [splitFields, idxOf?_separator h]
  simp only [htake, hdrop]

theorem toDecimal_separator (n : ℕ) : 124 ∉ toDecimal n := fun h => by
  cases Decimals.toDecimal_isDigit n 124 h

theorem signedToDecimal_separator (n : ℤ) : 124 ∉ signedToDecimal n := by
  rw [signedToDecimal]
  split
  · intro h
    rcases List.mem_cons.mp h with h | h
    · cases h
    · exact toDecimal_separator _ h
  · exact toDecimal_separator _

theorem signedToDecimal_ne_dash (n : ℤ) : signedToDecimal n ≠ ascii "-" := by
  rw [signedToDecimal]
  split
  · intro h
    exact Decimals.toDecimal_ne_nil _ (List.cons.inj h).2
  · intro h
    exact Decimals.toDecimal_head_ne n.toNat (c := 45) rfl (by rw [h]; rfl)

def expiryField (record : ShortLinkRecord) : Bytes :=
  match record.expiresAt with
  | some expiresAt => signedToDecimal expiresAt
  | none => ascii "-"

theorem serialize_eq (record : ShortLinkRecord) : serialize record =
    ascii "v2" ++ 124 :: (toDecimal record.id ++ 124 :: (toDecimal record.ownerId ++ 124 ::
      (statusToString record.status ++ 124 :: (expiryField record ++ 124 ::
        (signedToDecimal record.createdAt ++ 124 :: (signedToDecimal record.updatedAt ++ 124 ::
          record.originalUrl)))))) := by
  have hbar : ascii "|" = [124] := rfl
  have hversion : ascii "v2|" = ascii "v2" ++ [124] := rfl
  simp only [serialize, expiryField, hbar, hversion, List.append_assoc, List.cons_append,
    List.nil_append]

theorem serialize_fields (record : ShortLinkRecord) : splitFields (serialize record) 7 =
    some [ascii "v2", toDecimal record.id, toDecimal record.ownerId, statusToString record.status,
      expiryField record, signedToDecimal record.createdAt, signedToDecimal record.updatedAt,
      record.originalUrl] := by
  have hstatus : 124 ∉ statusToString record.status := by
    cases record.status <;> decide
  have hexpiry : 124 ∉ expiryField record := by
    rw [expiryField]
    split
    · exact signedToDecimal_separator _
    · decide
  rw [serialize_eq, splitFields_field (by decide), splitFields_field (toDecimal_separator _),
    splitFields_field (toDecimal_separator _), splitFields_field hstatus,
    splitFields_field hexpiry, splitFields_field (signedToDecimal_separator _),
    splitFields_field (signedToDecimal_separator _)]
  rfl

theorem serialize_version (record : ShortLinkRecord) :
    (ascii "v2|").isPrefixOf (serialize record) := by
  rw [serialize_eq]
  rfl

theorem deserialize_serialize {record : ShortLinkRecord} (h : Fits record)
    (hurl : record.originalUrl ≠ []) (code : Bytes) :
    deserialize code (serialize record) = some { record with code := code } := by
  have hexpiry : parseExpiry (expiryField record) = some record.expiresAt := by
    cases hexpires : record.expiresAt with
    | none => simp [parseExpiry, expiryField, hexpires]
    | some expiresAt =>
      have hrange := h.expiresAt expiresAt hexpires
      simp only [parseExpiry, expiryField, hexpires]
      rw [if_pos (signedToDecimal_ne_dash _),
        Decimals.stoll_signedToDecimal hrange.1 hrange.2]
      rfl
  simp only [deserialize, serialize_version, Bool.not_true, Bool.false_eq_true, if_false,
    serialize_fields, hexpiry, parseStatus_statusToString, Decimals.stoull_toDecimal h.id,
    Decimals.stoull_toDecimal h.ownerId,
    Decimals.stoll_signedToDecimal h.createdAt.1 h.createdAt.2,
    Decimals.stoll_signedToDecimal h.updatedAt.1 h.updatedAt.2, Option.bind_eq_bind,
    Option.bind_some]
  rw [if_neg (by simp [hurl])]

instance (record : ShortLinkRecord) : Decidable (Fits record) :=
  decidable_of_iff
    ((record.id < 2 ^ 64 ∧ record.ownerId < 2 ^ 64) ∧ (∀ t ∈ record.expiresAt, IsInt64 t) ∧
      IsInt64 record.createdAt ∧ IsInt64 record.updatedAt)
    ⟨fun ⟨⟨hid, howner⟩, hexpires, hcreated, hupdated⟩ =>
      ⟨hid, howner, hexpires, hcreated, hupdated⟩,
      fun h => ⟨⟨h.id, h.ownerId⟩, h.expiresAt, h.createdAt, h.updatedAt⟩⟩

/-- A record without a URL would not be read back. -/
theorem deserialize_serialize_nil {record : ShortLinkRecord} (hurl : record.originalUrl = [])
    (code : Bytes) : deserialize code (serialize record) = none := by
  simp [deserialize, serialize_version, serialize_fields, hurl]

theorem deserialize_legacy {value : Bytes} (h : ¬ (ascii "v2|").isPrefixOf value)
    (code : Bytes) : deserialize code value = none := by
  simp [deserialize, h]

structure RedisShortLinkCache where
  keyPrefix : Bytes
  ttlSeconds : ℤ
  ttlSeconds_pos : 0 < ttlSeconds
  ttlSeconds_le : ttlSeconds ≤ 86400

def RedisShortLinkCache.new (config : Config) : RedisShortLinkCache where
  keyPrefix := config.keyPrefix
  ttlSeconds :=
    if config.ttlSeconds ≤ 0 ∨ 86400 < config.ttlSeconds then 3600 else config.ttlSeconds
  ttlSeconds_pos := by split <;> omega
  ttlSeconds_le := by split <;> omega

namespace RedisShortLinkCache

variable (cache : RedisShortLinkCache)

def key (code : Bytes) : Bytes := buildCacheKey cache.keyPrefix code

/-- GET, and the DEL of a value that is not a record. -/
def get (code : Bytes) (reply deleteReply : Connection) (now : ℤ) (s : Store) :
    Option ShortLinkRecord × Store :=
  match reply with
  | .unreachable | .replyLost => (none, s)
  | .working =>
    match RedisStores.get s now (cache.key code) with
    | none => (none, s)
    | some value =>
      match deserialize code value with
      | some record => (some record, s)
      | none => (none, deleteReply.run (del · (cache.key code)) s)

def erase (code : Bytes) (reply : Connection) (s : Store) : Bool × Store :=
  (reply = .working, reply.run (del · (cache.key code)) s)

/-- Nothing when the record has expired. -/
def ttlFor (record : ShortLinkRecord) (nowEpochSeconds : ℤ) : Option ℤ :=
  match record.expiresAt with
  | none => some cache.ttlSeconds
  | some expiresAt =>
    let remaining := expiresAt - nowEpochSeconds
    if remaining ≤ 0 then none
    else if 0 < cache.ttlSeconds then some (min cache.ttlSeconds remaining)
    else some (min remaining 2147483647)

/-- The times of Redis are in milliseconds. -/
def set (record : ShortLinkRecord) (reply : Connection) (now : ℤ) (s : Store) : Bool × Store :=
  match cache.ttlFor record (now.tdiv 1000) with
  | none => cache.erase record.code reply s
  | some ttl =>
    (reply = .working, reply.run (fun s =>
      if 0 < ttl then setex s now (cache.key record.code) ttl (serialize record)
      else RedisStores.set s (cache.key record.code) (serialize record)) s)

theorem key_injective {code code' : Bytes} (h : cache.key code = cache.key code') :
    code = code' :=
  List.append_cancel_left h

variable {cache} {code : Bytes} {record : ShortLinkRecord} {reply deleteReply : Connection}
  {now : ℤ} {s : Store}

/-- An entry is stored for some time, and no longer than is configured. -/
theorem ttlFor_mem {ttl nowEpochSeconds : ℤ} (h : cache.ttlFor record nowEpochSeconds = some ttl) :
    0 < ttl ∧ ttl ≤ cache.ttlSeconds := by
  have hpos := cache.ttlSeconds_pos
  simp only [ttlFor] at h
  split at h
  · obtain rfl := Option.some.inj h
    exact ⟨hpos, Int.le_refl _⟩
  · simp only [if_pos hpos, Option.ite_none_left_eq_some, Option.some.injEq] at h
    omega

theorem set_cases (cache : RedisShortLinkCache) (record : ShortLinkRecord) (reply : Connection)
    (now : ℤ) (s : Store) :
    (reply = .unreachable ∧ (cache.set record reply now s).2 = s) ∨
    (cache.ttlFor record (now.tdiv 1000) = none ∧
      (cache.set record reply now s).2 = del s (cache.key record.code)) ∨
    ∃ ttl, reply ≠ .unreachable ∧ cache.ttlFor record (now.tdiv 1000) = some ttl ∧
      (cache.set record reply now s).2 =
        setex s now (cache.key record.code) ttl (serialize record) := by
  by_cases hreply : reply = .unreachable
  · refine .inl ⟨hreply, ?_⟩
    subst hreply
    simp only [set]
    cases cache.ttlFor record (now.tdiv 1000) <;> rfl
  · right
    have hrun : ∀ command : Store → Store, reply.run command s = command s := by
      intro command
      cases reply with
      | unreachable => exact absurd rfl hreply
      | replyLost => rfl
      | working => rfl
    cases httl : cache.ttlFor record (now.tdiv 1000) with
    | none =>
      refine .inl ⟨rfl, ?_⟩
      simp only [set, httl, erase, hrun]
    | some ttl =>
      refine .inr ⟨ttl, hreply, rfl, ?_⟩
      simp only [set, httl, hrun, if_pos (ttlFor_mem httl).1]

theorem get_hit (h : (cache.get code reply deleteReply now s).1 = some record) :
    ∃ entry, live s now (cache.key code) = some entry ∧
      deserialize code entry.value = some record := by
  cases reply with
  | unreachable => cases h
  | replyLost => cases h
  | working =>
    simp only [get] at h
    cases hget : RedisStores.get s now (cache.key code) with
    | none =>
      rw [hget] at h
      cases h
    | some value =>
      rw [hget] at h
      simp only at h
      cases hdecode : deserialize code value with
      | none =>
        rw [hdecode] at h
        cases h
      | some decoded =>
        rw [hdecode] at h
        obtain rfl := Option.some.inj h
        obtain ⟨entry, hentry, rfl⟩ := Option.map_eq_some_iff.mp hget
        exact ⟨entry, hentry, hdecode⟩

def Holds (cache : RedisShortLinkCache) (P : Bytes → Entry → Prop) (s : Store) : Prop :=
  ∀ code entry, s (cache.key code) = some entry → (ascii "v2|").isPrefixOf entry.value →
    P code entry

variable {P P' : Bytes → Entry → Prop}

theorem holds_del (h : cache.Holds P s) (key : Bytes) : cache.Holds P (del s key) := by
  intro code entry hentry
  by_cases hkey : cache.key code = key
  · rw [del, hkey, Function.update_self] at hentry
    cases hentry
  · rw [del, Function.update_of_ne hkey] at hentry
    exact h code entry hentry

theorem holds_run_del (h : cache.Holds P s) (connection : Connection) (key : Bytes) :
    cache.Holds P (connection.run (del · key) s) := by
  cases connection with
  | unreachable => exact h
  | replyLost => exact holds_del h key
  | working => exact holds_del h key

theorem holds_get (h : cache.Holds P s) (code : Bytes) (reply deleteReply : Connection)
    (now : ℤ) : cache.Holds P (cache.get code reply deleteReply now s).2 := by
  cases reply with
  | unreachable => exact h
  | replyLost => exact h
  | working =>
    simp only [get]
    cases RedisStores.get s now (cache.key code) with
    | none => exact h
    | some value =>
      simp only
      cases deserialize code value with
      | none => exact holds_run_del h deleteReply _
      | some record => exact h

theorem holds_setex {ttl : ℤ} (h : cache.Holds P s)
    (hnew : P' record.code ⟨serialize record, some (now + ttl * 1000)⟩)
    (hothers : ∀ code entry, code ≠ record.code → P code entry → P' code entry) :
    cache.Holds P' (setex s now (cache.key record.code) ttl (serialize record)) := by
  intro code entry hentry hversion
  by_cases hcode : code = record.code
  · rw [hcode, setex, Function.update_self, Option.some.injEq] at hentry
    rw [hcode, ← hentry]
    exact hnew
  · rw [setex, Function.update_of_ne fun hkey => hcode (key_injective cache hkey)] at hentry
    exact hothers code entry hcode (h code entry hentry hversion)

end RedisShortLinkCache

end RedisCaches
