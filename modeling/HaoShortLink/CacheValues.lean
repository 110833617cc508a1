import HaoShortLink.RedisCaches

/-! Which cache values are taken for records: those that the cache writes, and more. -/
namespace CacheValues

open Cpp ShortLinks RedisCaches Decimals

/-- Every record that the cache may be given comes back whole. -/
theorem deserialize_of_serialize (record : ShortLinkRecord) (h : Fits record)
    (hurl : record.originalUrl ≠ []) :
    deserialize record.code (serialize record) = some record :=
  deserialize_serialize h hurl record.code

/-- Separators in the URL, an owner and an expiry before 1970. -/
theorem deserialize_of_serialize_separators :
    deserialize (ascii "abcd") (serialize ⟨18446744073709551615, 7, ascii "abcd",
      ascii "http://a|b||", .disabled, some (-9223372036854775808), -1, 0⟩) =
    some ⟨18446744073709551615, 7, ascii "abcd", ascii "http://a|b||", .disabled,
      some (-9223372036854775808), -1, 0⟩ :=
  deserialize_of_serialize _ (by decide) (by decide)

structure Fields where
  id : Bytes
  ownerId : Bytes
  status : Bytes
  expiresAt : Bytes
  createdAt : Bytes
  updatedAt : Bytes
  originalUrl : Bytes

namespace Fields

def text (f : Fields) : Bytes :=
  ascii "v2" ++ 124 :: (f.id ++ 124 :: (f.ownerId ++ 124 :: (f.status ++ 124 ::
    (f.expiresAt ++ 124 :: (f.createdAt ++ 124 :: (f.updatedAt ++ 124 :: f.originalUrl))))))

def Separated (f : Fields) : Prop :=
  ∀ field ∈ [f.id, f.ownerId, f.status, f.expiresAt, f.createdAt, f.updatedAt], 124 ∉ field

/-- The conversions take a value from each field. -/
structure Readable (f : Fields) : Prop where
  id : ReadableUnsigned f.id
  ownerId : ReadableUnsigned f.ownerId
  status : f.status = ascii "active" ∨ f.status = ascii "disabled"
  expiresAt : f.expiresAt = ascii "-" ∨ ReadableSigned f.expiresAt
  createdAt : ReadableSigned f.createdAt
  updatedAt : ReadableSigned f.updatedAt
  originalUrl : f.originalUrl ≠ []

/-- Each number is written as std::to_string writes it. -/
structure Canonical (f : Fields) : Prop where
  id : ∃ n < 2 ^ 64, f.id = toDecimal n
  ownerId : ∃ n < 2 ^ 64, f.ownerId = toDecimal n
  expiresAt : f.expiresAt = ascii "-" ∨ ∃ n, IsInt64 n ∧ f.expiresAt = signedToDecimal n
  createdAt : ∃ n, IsInt64 n ∧ f.createdAt = signedToDecimal n
  updatedAt : ∃ n, IsInt64 n ∧ f.updatedAt = signedToDecimal n

theorem splitFields_text {f : Fields} (h : f.Separated) : splitFields f.text 7 =
    some [ascii "v2", f.id, f.ownerId, f.status, f.expiresAt, f.createdAt, f.updatedAt,
      f.originalUrl] := by
  simp only [Separated, List.mem_cons, List.not_mem_nil, or_false, forall_eq_or_imp,
    forall_eq] at h
  obtain ⟨hid, howner, hstatus, hexpires, hcreated, hupdated⟩ := h
  rw [text, splitFields_field (by decide), splitFields_field hid, splitFields_field howner,
    splitFields_field hstatus, splitFields_field hexpires, splitFields_field hcreated,
    splitFields_field hupdated]
  rfl

theorem text_injective {f g : Fields} (hf : f.Separated) (hg : g.Separated)
    (h : f.text = g.text) : f = g := by
  have hfields := splitFields_text hf
  rw [h, splitFields_text hg] at hfields
  cases f
  cases g
  simpa [and_comm, eq_comm] using hfields

end Fields

def fieldsOf (record : ShortLinkRecord) : Fields :=
  ⟨toDecimal record.id, toDecimal record.ownerId, statusToString record.status,
    expiryField record, signedToDecimal record.createdAt, signedToDecimal record.updatedAt,
    record.originalUrl⟩

theorem serialize_text (record : ShortLinkRecord) : serialize record = (fieldsOf record).text :=
  serialize_eq record

theorem fieldsOf_separated (record : ShortLinkRecord) : (fieldsOf record).Separated := by
  have hstatus : 124 ∉ statusToString record.status := by
    cases record.status <;> decide
  have hexpiry : 124 ∉ expiryField record := by
    rw [expiryField]
    split
    · exact signedToDecimal_separator _
    · decide
  simp only [Fields.Separated, fieldsOf, List.mem_cons, List.not_mem_nil, or_false,
    forall_eq_or_imp, forall_eq]
  exact ⟨toDecimal_separator _, toDecimal_separator _, hstatus, hexpiry,
    signedToDecimal_separator _, signedToDecimal_separator _⟩

theorem fieldsOf_canonical {record : ShortLinkRecord} (h : Fits record) :
    (fieldsOf record).Canonical where
  id := ⟨record.id, h.id, rfl⟩
  ownerId := ⟨record.ownerId, h.ownerId, rfl⟩
  expiresAt := by
    cases hexpires : record.expiresAt with
    | none => exact .inl (by simp [fieldsOf, expiryField, hexpires])
    | some t => exact .inr ⟨t, h.expiresAt t hexpires, by simp [fieldsOf, expiryField, hexpires]⟩
  createdAt := ⟨record.createdAt, h.createdAt, rfl⟩
  updatedAt := ⟨record.updatedAt, h.updatedAt, rfl⟩

structure Reads (f : Fields) (record : ShortLinkRecord) : Prop where
  id : stoull f.id = some record.id
  ownerId : stoull f.ownerId = some record.ownerId
  status : parseStatus f.status = some record.status
  expiresAt : parseExpiry f.expiresAt = some record.expiresAt
  createdAt : stoll f.createdAt = some record.createdAt
  updatedAt : stoll f.updatedAt = some record.updatedAt
  originalUrl : f.originalUrl = record.originalUrl
  originalUrl_ne : f.originalUrl ≠ []

theorem splitFields_succ {value : Bytes} {fields : List Bytes} {separators : ℕ}
    (h : splitFields value (separators + 1) = some fields) :
    ∃ field rest more, 124 ∉ field ∧ value = field ++ 124 :: rest ∧
      splitFields rest separators = some more ∧ fields = field :: more := by
  rcases cut_cases 124 value with hnone | ⟨field, rest, hfield, rfl⟩
  · rw [splitFields, List.idxOf?_eq_none_iff.mpr hnone] at h
    cases h
  · rw [splitFields_field hfield] at h
    obtain ⟨more, hmore, rfl⟩ := Option.map_eq_some_iff.mp h
    exact ⟨field, rest, more, hfield, rfl, hmore, rfl⟩

theorem fields_of_splitFields {value version originalUrl : Bytes} {id ownerId status expiresAt
    createdAt updatedAt : Bytes} (h : splitFields value 7 =
      some [version, id, ownerId, status, expiresAt, createdAt, updatedAt, originalUrl])
    (hversion : version = ascii "v2") :
    (Fields.mk id ownerId status expiresAt createdAt updatedAt originalUrl).text = value ∧
      (Fields.mk id ownerId status expiresAt createdAt updatedAt originalUrl).Separated := by
  obtain ⟨_, _, _, _, rfl, h, hcons⟩ := splitFields_succ h
  cases hcons
  obtain ⟨_, _, _, hid, rfl, h, hcons⟩ := splitFields_succ h
  cases hcons
  obtain ⟨_, _, _, howner, rfl, h, hcons⟩ := splitFields_succ h
  cases hcons
  obtain ⟨_, _, _, hstatus, rfl, h, hcons⟩ := splitFields_succ h
  cases hcons
  obtain ⟨_, _, _, hexpires, rfl, h, hcons⟩ := splitFields_succ h
  cases hcons
  obtain ⟨_, _, _, hcreated, rfl, h, hcons⟩ := splitFields_succ h
  cases hcons
  obtain ⟨_, _, _, hupdated, rfl, h, hcons⟩ := splitFields_succ h
  cases hcons
  cases h
  refine ⟨by rw [Fields.text, hversion], ?_⟩
  simp only [Fields.Separated, List.mem_cons, List.not_mem_nil, or_false, forall_eq_or_imp,
    forall_eq]
  exact ⟨hid, howner, hstatus, hexpires, hcreated, hupdated⟩

/-- The decoder sees the fields of a value and nothing else. -/
theorem deserialize_eq_some {code value : Bytes} {record : ShortLinkRecord} :
    deserialize code value = some record ↔
      record.code = code ∧ ∃ f : Fields, f.text = value ∧ f.Separated ∧ Reads f record := by
  constructor
  · intro h
    simp only [deserialize] at h
    split at h
    · cases h
    · split at h
      · next fields hsplit =>
        split at h
        · cases h
        · next hvalid =>
          obtain ⟨hversion, hurl⟩ := not_or.mp hvalid
          simp only [Option.bind_eq_bind, Option.bind_eq_some_iff, Option.some.injEq] at h
          obtain ⟨_, hstatus, _, hid, _, howner, _, hexpires, _, hcreated, _, hupdated, rfl⟩ := h
          obtain ⟨htext, hsep⟩ := fields_of_splitFields hsplit (not_not.mp hversion)
          exact ⟨rfl, _, htext, hsep, hid, howner, hstatus, hexpires, hcreated, hupdated, rfl, hurl⟩
      · cases h
  · rintro ⟨rfl, f, rfl, hsep, hreads⟩
    have hprefix : (ascii "v2|").isPrefixOf f.text := rfl
    simp only [deserialize, hprefix, Bool.not_true, Bool.false_eq_true, if_false,
      Fields.splitFields_text hsep, hreads.id, hreads.ownerId, hreads.status, hreads.expiresAt,
      hreads.createdAt, hreads.updatedAt, Option.bind_eq_bind, Option.bind_some]
    rw [if_neg (by simp [hreads.originalUrl_ne]), hreads.originalUrl]

theorem parseExpiry_range {field : Bytes} {expiresAt : Option ℤ}
    (h : parseExpiry field = some expiresAt) : ∀ t ∈ expiresAt, IsInt64 t := by
  rw [parseExpiry] at h
  split at h
  · obtain ⟨t, ht, rfl⟩ := Option.map_eq_some_iff.mp h
    intro u hu
    obtain rfl := Option.some.inj hu
    exact stoll_range ht
  · obtain rfl := Option.some.inj h
    intro t ht
    cases ht

theorem Reads.fits {f : Fields} {record : ShortLinkRecord} (h : Reads f record) :
    Fits record where
  id := stoull_lt h.id
  ownerId := stoull_lt h.ownerId
  expiresAt := parseExpiry_range h.expiresAt
  createdAt := stoll_range h.createdAt
  updatedAt := stoll_range h.updatedAt

theorem statusToString_of_parseStatus {text : Bytes} {status : Status}
    (h : parseStatus text = some status) : statusToString status = text := by
  rw [parseStatus] at h
  split at h
  · next htext =>
    obtain rfl := Option.some.inj h
    exact htext.symm
  · split at h
    · next htext =>
      obtain rfl := Option.some.inj h
      exact htext.symm
    · cases h

theorem toDecimal_of_stoull {field : Bytes} {n : ℕ} (hfield : ∃ m < 2 ^ 64, field = toDecimal m)
    (h : stoull field = some n) : toDecimal n = field := by
  obtain ⟨m, hm, rfl⟩ := hfield
  rw [stoull_toDecimal hm] at h
  rw [Option.some.inj h]

theorem signedToDecimal_of_stoll {field : Bytes} {n : ℤ}
    (hfield : ∃ m, IsInt64 m ∧ field = signedToDecimal m) (h : stoll field = some n) :
    signedToDecimal n = field := by
  obtain ⟨m, hm, rfl⟩ := hfield
  rw [stoll_signedToDecimal hm.1 hm.2] at h
  rw [Option.some.inj h]

theorem Reads.readable {f : Fields} {record : ShortLinkRecord} (h : Reads f record) :
    f.Readable where
  id := (readableUnsigned_iff _).mpr ⟨_, h.id⟩
  ownerId := (readableUnsigned_iff _).mpr ⟨_, h.ownerId⟩
  status := by
    have htext := statusToString_of_parseStatus h.status
    cases hstatus : record.status with
    | active => exact .inl (by rw [← htext, hstatus]; rfl)
    | disabled => exact .inr (by rw [← htext, hstatus]; rfl)
  expiresAt := by
    have hexpires := h.expiresAt
    rw [parseExpiry] at hexpires
    split at hexpires
    · obtain ⟨t, ht, -⟩ := Option.map_eq_some_iff.mp hexpires
      exact .inr ((readableSigned_iff _).mpr ⟨t, ht⟩)
    · next hdash => exact .inl (not_not.mp hdash)
  createdAt := (readableSigned_iff _).mpr ⟨_, h.createdAt⟩
  updatedAt := (readableSigned_iff _).mpr ⟨_, h.updatedAt⟩
  originalUrl := h.originalUrl_ne

theorem Reads.fieldsOf_eq {f : Fields} {record : ShortLinkRecord} (h : Reads f record)
    (hcanonical : f.Canonical) : fieldsOf record = f := by
  have hexpiry : expiryField record = f.expiresAt := by
    have hexpires := h.expiresAt
    rw [parseExpiry] at hexpires
    split at hexpires
    · next hdash =>
      obtain ⟨t, ht, hrecord⟩ := Option.map_eq_some_iff.mp hexpires
      have hfield := signedToDecimal_of_stoll (hcanonical.expiresAt.resolve_left hdash) ht
      simpa [expiryField, ← hrecord] using hfield
    · next hdash =>
      have hrecord := Option.some.inj hexpires
      simpa [expiryField, ← hrecord] using (not_not.mp hdash).symm
  rw [fieldsOf, toDecimal_of_stoull hcanonical.id h.id,
    toDecimal_of_stoull hcanonical.ownerId h.ownerId, statusToString_of_parseStatus h.status,
    hexpiry, signedToDecimal_of_stoll hcanonical.createdAt h.createdAt,
    signedToDecimal_of_stoll hcanonical.updatedAt h.updatedAt, ← h.originalUrl]

theorem Fields.Readable.reads {f : Fields} (h : f.Readable) (code : Bytes) :
    ∃ record, record.code = code ∧ Reads f record := by
  have hstatus : ∃ status, parseStatus f.status = some status := by
    rcases h.status with hs | hs
    · exact ⟨.active, by rw [hs]; rfl⟩
    · exact ⟨.disabled, by rw [hs]; rfl⟩
  have hexpiry : ∃ expiresAt, parseExpiry f.expiresAt = some expiresAt := by
    rw [parseExpiry]
    by_cases hdash : f.expiresAt = ascii "-"
    · exact ⟨none, if_neg (not_not.mpr hdash)⟩
    · obtain ⟨t, ht⟩ := (readableSigned_iff _).mp (h.expiresAt.resolve_left hdash)
      exact ⟨some t, by rw [if_pos hdash, ht]; rfl⟩
  obtain ⟨status, hstatus⟩ := hstatus
  obtain ⟨expiresAt, hexpires⟩ := hexpiry
  obtain ⟨id, hid⟩ := (readableUnsigned_iff _).mp h.id
  obtain ⟨ownerId, howner⟩ := (readableUnsigned_iff _).mp h.ownerId
  obtain ⟨createdAt, hcreated⟩ := (readableSigned_iff _).mp h.createdAt
  obtain ⟨updatedAt, hupdated⟩ := (readableSigned_iff _).mp h.updatedAt
  exact ⟨⟨id, ownerId, code, f.originalUrl, status, expiresAt, createdAt, updatedAt⟩, rfl, hid,
    howner, hstatus, hexpires, hcreated, hupdated, rfl, h.originalUrl⟩

/-- Eight fields that all convert, with a number that no record is written with: blanks before
it, a plus sign, zeros in front, a minus sign that wraps around, or bytes behind it. -/
def Tolerated (value : Bytes) : Prop :=
  ∃ f : Fields, f.text = value ∧ f.Separated ∧ f.Readable ∧ ¬ f.Canonical

theorem serialize_of_not_tolerated {code value : Bytes} {record : ShortLinkRecord}
    (h : ¬ Tolerated value) (hrecord : deserialize code value = some record) :
    serialize record = value := by
  obtain ⟨-, f, rfl, hsep, hreads⟩ := deserialize_eq_some.mp hrecord
  by_cases hcanonical : f.Canonical
  · rw [serialize_text, hreads.fieldsOf_eq hcanonical]
  · exact absurd ⟨f, rfl, hsep, hreads.readable, hcanonical⟩ h

/-- A value is taken for a record that is stored otherwise just when one of its numbers is
readable but not canonical. -/
theorem serialize_of_deserialize_iff (code value : Bytes) :
    (∀ record, deserialize code value = some record → serialize record = value) ↔
      ¬ Tolerated value := by
  constructor
  · rintro h ⟨f, rfl, hsep, hreadable, hcanonical⟩
    obtain ⟨record, hcode, hreads⟩ := hreadable.reads code
    have htext := h record (deserialize_eq_some.mpr ⟨hcode, f, rfl, hsep, hreads⟩)
    rw [serialize_text] at htext
    have hfields := Fields.text_injective (fieldsOf_separated record) hsep htext
    exact hcanonical (hfields ▸ fieldsOf_canonical hreads.fits)
  · intro h record
    exact serialize_of_not_tolerated h

/-- Any other value that was not written for a record is deleted and read as a miss. -/
theorem get_discards {cache : RedisShortLinkCache} {code value : Bytes} {now : ℤ}
    {s : RedisStores.Store} (deleteReply : RedisStores.Connection)
    (hget : RedisStores.get s now (cache.key code) = some value) (hvalue : ¬ Tolerated value)
    (hother : ∀ record, Fits record → serialize record ≠ value) :
    cache.get code .working deleteReply now s =
      (none, deleteReply.run (RedisStores.del · (cache.key code)) s) := by
  have hnone : deserialize code value = none := by
    cases hdecode : deserialize code value with
    | none => rfl
    | some record =>
      obtain ⟨-, f, -, -, hreads⟩ := deserialize_eq_some.mp hdecode
      exact absurd (serialize_of_not_tolerated hvalue hdecode) (hother record hreads.fits)
  simp only [RedisShortLinkCache.get, hget, hnone]

/-- A sign, a blank and a tail that the cache never writes. -/
theorem deserialize_not_canonical :
    deserialize (ascii "abcd") (ascii "v2|+1| 7x|active|-|0|0|http://a") =
        some ⟨1, 7, ascii "abcd", ascii "http://a", .active, none, 0, 0⟩ ∧
      serialize ⟨1, 7, ascii "abcd", ascii "http://a", .active, none, 0, 0⟩ ≠
        ascii "v2|+1| 7x|active|-|0|0|http://a" := by
  decide

end CacheValues
