import HaoShortLink.Base64
import HaoShortLink.DeadLetters
import HaoShortLink.JsonContracts

/-! The envelope of a dead letter keeps the source record: what a reader of the topic gets back. -/
namespace DeadLetterEnvelopes

open Cpp JsonValues JsonContracts DeadLetters

def standard : Base64.Alphabet where
  chars := kAlphabet
  pad := 61
  length_chars := by decide
  nodup := by decide
  pad_not_mem := by decide

def alphabetAt (index : ℕ) : UInt8 := kAlphabet.getD index 0

def encodeGroup (input : Bytes) (size i : ℕ) : Bytes :=
  let first := (input.getD i 0).toNat
  let second := if i + 1 < size then (input.getD (i + 1) 0).toNat else 0
  let third := if i + 2 < size then (input.getD (i + 2) 0).toNat else 0
  let value := first <<< 16 ||| second <<< 8 ||| third
  [alphabetAt (value >>> 18 &&& 0x3f), alphabetAt (value >>> 12 &&& 0x3f),
    if i + 1 < size then alphabetAt (value >>> 6 &&& 0x3f) else 61,
    if i + 2 < size then alphabetAt (value &&& 0x3f) else 61]

def encodeLoop (input : Bytes) (size i : ℕ) (output : Bytes) : Bytes :=
  if i < size then encodeLoop input size (i + 3) (output ++ encodeGroup input size i) else output
termination_by size - i

def encodePrefix (input : Bytes) (maxBytes : ℕ) : Bytes :=
  encodeLoop input (min input.length maxBytes) 0 []

theorem shifted_eq_word (a b c : UInt8) :
    a.toNat <<< 16 ||| b.toNat <<< 8 ||| c.toNat = Base64.word a b c := by
  have hb := b.toNat_lt
  have hc := c.toNat_lt
  have hlow : b.toNat <<< 8 ||| c.toNat = b.toNat * 2 ^ 8 + c.toNat := by
    rw [← Nat.shiftLeft_add_eq_or_of_lt (by omega), Nat.shiftLeft_eq]
  rw [Nat.or_assoc, hlow, ← Nat.shiftLeft_add_eq_or_of_lt (by omega), Nat.shiftLeft_eq,
    Base64.word, Nat.add_assoc]

theorem alphabetAt_shifted (w k : ℕ) :
    alphabetAt (w >>> (6 * k) &&& 0x3f) = Base64.sextet standard w k := by
  have hmask : ∀ n, n &&& 0x3f = n % 64 := fun n => Nat.and_two_pow_sub_one_eq_mod n 6
  have hpow : 2 ^ (6 * k) = 64 ^ k := by rw [pow_mul]; rfl
  have hlt : w / 64 ^ k % 64 < kAlphabet.length := Nat.mod_lt _ (by decide)
  have hchar : Base64.sextet standard w k = kAlphabet[w / 64 ^ k % 64] :=
    List.getD_eq_getElem _ _ hlt
  rw [hmask, Nat.shiftRight_eq_div_pow, hpow, alphabetAt, List.getD_eq_getElem _ _ hlt, hchar]

theorem encodeGroup_eq {input : Bytes} {size i : ℕ} (hsize : size ≤ input.length) {a : UInt8}
    {l : Bytes} (hrest : (input.take size).drop i = a :: l) :
    encodeGroup input size i ++ Base64.encode standard ((input.take size).drop (i + 3)) =
      Base64.encode standard (a :: l) := by
  have hlength : l.length + 1 = size - i := by
    have hall := congrArg List.length hrest
    simp only [List.length_drop, List.length_take, List.length_cons] at hall
    omega
  have hat : ∀ j, i + j < size → input.getD (i + j) 0 = (a :: l).getD j 0 := by
    intro j hj
    rw [← hrest]
    simp [List.getD_eq_getElem?_getD, hj]
  have hfirst : input.getD i 0 = a := hat 0 (by omega)
  have hsecond : (if i + 1 < size then (input.getD (i + 1) 0).toNat else 0) =
      (l.getD 0 0).toNat := by
    split
    · next h => exact congrArg UInt8.toNat (hat 1 h)
    · rw [List.getD_eq_default _ _ (by omega), UInt8.toNat_zero]
  have hthird : (if i + 2 < size then (input.getD (i + 2) 0).toNat else 0) =
      (l.getD 1 0).toNat := by
    split
    · next h => exact congrArg UInt8.toNat (hat 2 h)
    · rw [List.getD_eq_default _ _ (by omega), UInt8.toNat_zero]
  have hdrop : (input.take size).drop (i + 3) = l.drop 2 := by
    rw [← List.drop_drop, hrest]
    rfl
  have htwo : i + 1 < size ↔ 0 < l.length := by omega
  have hthree : i + 2 < size ↔ 1 < l.length := by omega
  let w := Base64.word a (l.getD 0 0) (l.getD 1 0)
  have h₃ : alphabetAt (w >>> 18 &&& 0x3f) = Base64.sextet standard w 3 := alphabetAt_shifted w 3
  have h₂ : alphabetAt (w >>> 12 &&& 0x3f) = Base64.sextet standard w 2 := alphabetAt_shifted w 2
  have h₁ : alphabetAt (w >>> 6 &&& 0x3f) = Base64.sextet standard w 1 := alphabetAt_shifted w 1
  have h₀ : alphabetAt (w &&& 0x3f) = Base64.sextet standard w 0 := alphabetAt_shifted w 0
  simp only [encodeGroup, hfirst, hsecond, hthird, shifted_eq_word]
  rw [h₃, h₂, h₁, h₀, hdrop, Base64.encode_cons]
  simp only [htwo, hthree]
  rfl

theorem encodeLoop_eq (input : Bytes) (size i : ℕ) (output : Bytes) (hsize : size ≤ input.length) :
    encodeLoop input size i output =
      output ++ Base64.encode standard ((input.take size).drop i) := by
  induction i, output using encodeLoop.induct input size with
  | case1 i output hi ih =>
    have hne : (input.take size).drop i ≠ [] := by
      intro hnil
      have hlength := congrArg List.length hnil
      simp only [List.length_drop, List.length_take, List.length_nil] at hlength
      omega
    obtain ⟨a, l, hrest⟩ := List.exists_cons_of_ne_nil hne
    rw [encodeLoop, if_pos hi, ih, List.append_assoc, encodeGroup_eq hsize hrest, hrest]
  | case2 i output hi =>
    have hnil : (input.take size).drop i = [] := by
      apply List.drop_eq_nil_of_le
      rw [List.length_take]
      omega
    rw [encodeLoop, if_neg hi, hnil, Base64.encode, List.append_nil]

theorem encodePrefix_eq (input : Bytes) (maxBytes : ℕ) :
    encodePrefix input maxBytes =
      Base64.encode standard (input.take (min input.length maxBytes)) := by
  rw [encodePrefix, encodeLoop_eq _ _ _ _ (Nat.min_le_left _ _), List.nil_append, List.drop_zero]

theorem base64Digit_eq (w : ℕ) {shift k : ℕ} (h : shift = 6 * k) :
    base64Digit w shift = Base64.sextet standard w k := by
  have hmask := Nat.and_two_pow_sub_one_eq_mod (w / 2 ^ (6 * k)) 6
  rw [← alphabetAt_shifted, base64Digit, alphabetAt, Nat.shiftRight_eq_div_pow, h]
  exact congrArg (fun n => kAlphabet.getD n 0) hmask.symm

theorem base64Encode_eq (b : Bytes) : base64Encode b = Base64.encode standard b := by
  have h₃ : ∀ w, base64Digit w 18 = Base64.sextet standard w 3 := fun w =>
    base64Digit_eq w (k := 3) (by decide)
  have h₂ : ∀ w, base64Digit w 12 = Base64.sextet standard w 2 := fun w =>
    base64Digit_eq w (k := 2) (by decide)
  have h₁ : ∀ w, base64Digit w 6 = Base64.sextet standard w 1 := fun w =>
    base64Digit_eq w (k := 1) (by decide)
  have h₀ : ∀ w, base64Digit w 0 = Base64.sextet standard w 0 := fun w =>
    base64Digit_eq w (k := 0) (by decide)
  induction b using base64Encode.induct with
  | case1 => simp only [base64Encode, Base64.encode]
  | case2 a =>
    have hword : a.toNat * 2 ^ 16 = Base64.word a 0 0 := by simp [Base64.word]
    simp only [base64Encode, Base64.encode, hword, h₃, h₂]
    rfl
  | case3 a b =>
    have hword : a.toNat * 2 ^ 16 + b.toNat * 2 ^ 8 = Base64.word a b 0 := by simp [Base64.word]
    simp only [base64Encode, Base64.encode, hword, h₃, h₂, h₁]
    rfl
  | case4 a b c rest ih =>
    simp only [base64Encode, Base64.encode, Base64.word, ih, h₃, h₂, h₁, h₀]

/-- Both ways to write base64EncodePrefix agree. -/
theorem base64EncodePrefix_eq (input : Bytes) (maxBytes : ℕ) :
    base64EncodePrefix input maxBytes = encodePrefix input maxBytes := by
  have hmin : input.take (min input.length maxBytes) = input.take maxBytes := by
    rw [Nat.min_comm, ← List.take_take, List.take_length]
  rw [base64EncodePrefix, base64Encode_eq, encodePrefix_eq, hmin]

/-- What the envelope tells of a key or a payload. -/
structure Evidence (envelope : Json) (field source : Bytes) : Prop where
  bytes : ∃ text, envelope.stringAt (field ++ ascii "_base64") = some text ∧
    Base64.decode standard text = some (source.take (min source.length 65536))
  size : envelope.integerAt (field ++ ascii "_size") = some (source.length : ℤ)
  truncated : envelope.find (field ++ ascii "_truncated") =
    some (.boolean (65536 < source.length))

structure Preserves (envelope : Json) (record : DeadLetterRecord) (failedAtMs : ℤ) : Prop where
  isObject : envelope.isObject
  key : Evidence envelope (ascii "original_key") record.key
  payload : Evidence envelope (ascii "original_payload") record.payload
  topic : envelope.stringAt (ascii "source_topic") = some record.sourceTopic
  partition : envelope.integerAt (ascii "source_partition") = some record.sourcePartition
  offset : envelope.integerAt (ascii "source_offset") = some record.sourceOffset
  reason : ∀ reason, envelope.stringAt (ascii "reason") = some (deadLetterReasonToString reason) ↔
    reason = record.reason
  failedAt : envelope.integerAt (ascii "failed_at_ms") = some failedAtMs

/-- The members hold what the C++ types of the fields can hold. -/
structure Fits (record : DeadLetterRecord) (failedAtMs : ℤ) : Prop where
  partition : record.sourcePartition < 2 ^ 31
  offset : record.sourceOffset < 2 ^ 63
  key : record.key.length < 2 ^ 64
  payload : record.payload.length < 2 ^ 64
  failedAtMs : failedAtMs < 2 ^ 63

theorem deadLetterReasonToString_inj {r r' : DeadLetterReason}
    (h : deadLetterReasonToString r = deadLetterReasonToString r') : r = r' := by
  cases r <;> cases r' <;> first | rfl | exact absurd h (by decide)

theorem kAlphabet_ascii : Ascii kAlphabet := by decide

theorem base64EncodePrefix_ascii (input : Bytes) (maxBytes : ℕ) :
    Ascii (base64EncodePrefix input maxBytes) := by
  intro c hc
  rw [base64EncodePrefix, base64Encode_eq] at hc
  rcases Base64.mem_encode hc with hc | hc
  · exact kAlphabet_ascii c hc
  · rw [hc]
    decide

theorem deadLetterReasonToString_ascii (reason : DeadLetterReason) :
    Ascii (deadLetterReasonToString reason) := by
  cases reason <;> decide

def envelopeNames : List Bytes :=
  [ascii "schema_version", ascii "event_type", ascii "failed_at_ms", ascii "reason",
    ascii "source_topic", ascii "source_partition", ascii "source_offset",
    ascii "original_key_base64", ascii "original_key_size", ascii "original_key_truncated",
    ascii "original_payload_base64", ascii "original_payload_size",
    ascii "original_payload_truncated"]

theorem names_deadLetterEnvelope (record : DeadLetterRecord) (failedAtMs : ℤ) :
    (deadLetterEnvelope record failedAtMs).items.map Prod.fst = envelopeNames := by
  simp only [deadLetterEnvelope, Json.items, envelopeNames, List.map_cons, List.map_nil]

theorem nodup_envelopeNames : envelopeNames.Nodup := by decide

theorem flat_deadLetterEnvelope {record : DeadLetterRecord} {failedAtMs : ℤ}
    (hfits : Fits record failedAtMs) (htopic : ValidUtf8 record.sourceTopic)
    (hpartition : 0 ≤ record.sourcePartition) (hoffset : 0 ≤ record.sourceOffset)
    (hfailed : 0 < failedAtMs) : Flat (deadLetterEnvelope record failedAtMs).items where
  nodup := names_deadLetterEnvelope record failedAtMs ▸ nodup_envelopeNames
  names m hm := by
    have hascii : ∀ name ∈ envelopeNames, Ascii name := by decide
    rw [← names_deadLetterEnvelope record failedAtMs] at hascii
    exact (hascii m.1 (List.mem_map_of_mem hm)).utf8
  values := by
    obtain ⟨hpartition', hoffset', hkey, hpayload, hfailed'⟩ := hfits
    simp only [deadLetterEnvelope, Json.items, List.forall_mem_cons, List.not_mem_nil,
      false_imp_iff, implies_true, and_true]
    refine ⟨.integer (by decide) (by decide), .string (Ascii.utf8 (by decide)),
      .integer (by omega) (by omega), .string (deadLetterReasonToString_ascii _).utf8,
      .string htopic, .integer (by omega) (by omega), .integer (by omega) (by omega),
      .string (base64EncodePrefix_ascii _ _).utf8, .integer (by omega) (by omega), .boolean _,
      .string (base64EncodePrefix_ascii _ _).utf8, .integer (by omega) (by omega), .boolean _⟩

theorem kMaxEncodedSourceBytes_eq : kMaxEncodedSourceBytes = 65536 := by decide

theorem decode_base64EncodePrefix (input : Bytes) :
    Base64.decode standard (base64EncodePrefix input kMaxEncodedSourceBytes) =
      some (input.take (min input.length 65536)) := by
  rw [base64EncodePrefix_eq, encodePrefix_eq, Base64.decode_encode, kMaxEncodedSourceBytes_eq]

theorem preserves_ofMembers (record : DeadLetterRecord) (failedAtMs : ℤ) :
    Preserves (.ofMembers (deadLetterEnvelope record failedAtMs).items) record failedAtMs := by
  have hfind : ∀ name value, (name, value) ∈ (deadLetterEnvelope record failedAtMs).items →
      (Json.ofMembers (deadLetterEnvelope record failedAtMs).items).find name = some value := by
    intro name value hmem
    exact find_ofMembers (names_deadLetterEnvelope record failedAtMs ▸ nodup_envelopeNames) hmem
  have hstring : ∀ name s, (name, .string s) ∈ (deadLetterEnvelope record failedAtMs).items →
      (Json.ofMembers (deadLetterEnvelope record failedAtMs).items).stringAt name = some s := by
    intro name s hmem
    rw [Json.stringAt, hfind name _ hmem, Option.bind_some, Json.asString]
  have hinteger : ∀ name n, (name, .integer n) ∈ (deadLetterEnvelope record failedAtMs).items →
      (Json.ofMembers (deadLetterEnvelope record failedAtMs).items).integerAt name = some n := by
    intro name n hmem
    rw [Json.integerAt, hfind name _ hmem, Option.bind_some, Json.asInteger]
  have hkey : ascii "original_key" ++ ascii "_base64" = ascii "original_key_base64" ∧
      ascii "original_key" ++ ascii "_size" = ascii "original_key_size" ∧
      ascii "original_key" ++ ascii "_truncated" = ascii "original_key_truncated" := by decide
  have hpayload : ascii "original_payload" ++ ascii "_base64" = ascii "original_payload_base64" ∧
      ascii "original_payload" ++ ascii "_size" = ascii "original_payload_size" ∧
      ascii "original_payload" ++ ascii "_truncated" = ascii "original_payload_truncated" := by
    decide
  exact
  { isObject := by simp only [Json.ofMembers, Json.isObject]
    key := by
      refine ⟨⟨_, ?_, decode_base64EncodePrefix record.key⟩, ?_, ?_⟩
      · exact hstring _ _ (by simp [deadLetterEnvelope, Json.items, hkey])
      · exact hinteger _ _ (by simp [deadLetterEnvelope, Json.items, hkey])
      · refine hfind _ _ ?_
        rw [hkey.2.2, ← kMaxEncodedSourceBytes_eq]
        simp [deadLetterEnvelope, Json.items]
    payload := by
      refine ⟨⟨_, ?_, decode_base64EncodePrefix record.payload⟩, ?_, ?_⟩
      · exact hstring _ _ (by simp [deadLetterEnvelope, Json.items, hpayload])
      · exact hinteger _ _ (by simp [deadLetterEnvelope, Json.items, hpayload])
      · refine hfind _ _ ?_
        rw [hpayload.2.2, ← kMaxEncodedSourceBytes_eq]
        simp [deadLetterEnvelope, Json.items]
    topic := hstring _ _ (by simp [deadLetterEnvelope, Json.items])
    partition := hinteger _ _ (by simp [deadLetterEnvelope, Json.items])
    offset := hinteger _ _ (by simp [deadLetterEnvelope, Json.items])
    reason := by
      intro reason
      have hreason := hstring (ascii "reason") (deadLetterReasonToString record.reason)
        (by simp [deadLetterEnvelope, Json.items])
      rw [hreason, Option.some.injEq]
      constructor
      · intro h
        exact (deadLetterReasonToString_inj h).symm
      · intro h
        rw [h]
    failedAt := hinteger _ _ (by simp [deadLetterEnvelope, Json.items]) }

/-- The envelope that is read has the source coordinates, the reason, and of key and payload the
first 64 KiB and the full size. -/
theorem serializeDeadLetterRecord_preserves {json : JsonLibrary} {record : DeadLetterRecord}
    {failedAtMs : ℤ} (hjson : Flat (deadLetterEnvelope record failedAtMs).items →
      ReadsBack json (deadLetterEnvelope record failedAtMs).items)
    (hfits : Fits record failedAtMs) (htopic : record.sourceTopic ≠ [])
    (hutf8 : ValidUtf8 record.sourceTopic) (hpartition : 0 ≤ record.sourcePartition)
    (hoffset : 0 ≤ record.sourceOffset) (hfailed : 0 < failedAtMs) :
    ∃ text envelope, serializeDeadLetterRecord json record failedAtMs = .ok text ∧
      json.parse text = some envelope ∧ Preserves envelope record failedAtMs := by
  obtain ⟨text, hdump, hparse⟩ :=
    hjson (flat_deadLetterEnvelope hfits hutf8 hpartition hoffset hfailed)
  refine ⟨text, _, ?_, hparse, preserves_ofMembers record failedAtMs⟩
  have haccepted : (record.sourceTopic.isEmpty || record.sourcePartition < 0 ||
      record.sourceOffset < 0 || failedAtMs ≤ 0) = false := by
    simp [htopic, hpartition, hoffset, hfailed]
  rw [serializeDeadLetterRecord, haccepted, if_neg Bool.false_ne_true]
  exact hdump

def demoRecord : DeadLetterRecord :=
  ⟨ascii "events", 2, 42, ascii "000001", [0, 255, 16, 128], .invalidJson⟩

def demoText : Bytes := ascii
  ("\x7b\"schema_version\":1,\"event_type\":\"short_link_access_dead_letter\"," ++
    "\"failed_at_ms\":7,\"reason\":\"invalid_json\",\"source_topic\":\"events\"," ++
    "\"source_partition\":2,\"source_offset\":42,\"original_key_base64\":\"MDAwMDAx\"," ++
    "\"original_key_size\":6,\"original_key_truncated\":false," ++
    "\"original_payload_base64\":\"AP8QgA==\",\"original_payload_size\":4," ++
    "\"original_payload_truncated\":false\x7d")

/-- The library on this envelope. -/
def demoJson : JsonLibrary where
  parse text := if text = demoText then some (.ofMembers (deadLetterEnvelope demoRecord 7).items)
    else none
  parseIgnoringComments _ := none
  dump _ := .ok demoText

theorem demoRecord_preserves : ∃ text envelope,
    serializeDeadLetterRecord demoJson demoRecord 7 = .ok text ∧
      demoJson.parse text = some envelope ∧ Preserves envelope demoRecord 7 := by
  refine serializeDeadLetterRecord_preserves ?_ ⟨?_, ?_, ?_, ?_, ?_⟩ ?_ ?_ ?_ ?_ ?_
  · intro _
    refine ⟨demoText, by simp [demoJson], by simp [demoJson]⟩
  all_goals decide

end DeadLetterEnvelopes
