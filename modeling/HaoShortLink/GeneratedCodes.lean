import HaoShortLink.Positionals
import HaoShortLink.ShortCodes

/-! Codes made from ids: the image of the Base62 encoding, in both repositories. -/
namespace GeneratedCodes

open Cpp ShortCodes Positionals

/-- MySqlShortLinkRepository.cpp has its own encodeBase62, with the loops of the memory version. -/
def MySql.kBase62Chars : Bytes :=
  ascii "0123456789ABCDEFGHIJKLMNOPQRSTUVWXYZabcdefghijklmnopqrstuvwxyz"
def MySql.kBase62Size : UInt64 := 62
def MySql.kMinCodeLength : ℕ := 6

/-- while (value > 0), push_back. -/
def MySql.pushDigits (value : UInt64) (encoded : Bytes) : Bytes :=
  if 0 < value then
    pushDigits (value / kBase62Size)
      (encoded ++ [kBase62Chars.getD (value % kBase62Size).toNat 0])
  else encoded
termination_by value.toNat
decreasing_by
  have hpos : 0 < value.toNat := by simpa [UInt64.lt_iff_toNat_lt] using ‹0 < value›
  rw [UInt64.toNat_div]
  exact Nat.div_lt_self hpos (by decide)

/-- while (encoded.size() < kMinCodeLength), push_back. -/
def MySql.pushZeros (encoded : Bytes) : Bytes :=
  if encoded.length < kMinCodeLength then pushZeros (encoded ++ [48]) else encoded
termination_by kMinCodeLength - encoded.length
decreasing_by
  rw [List.length_append, List.length_singleton]
  omega

def MySql.encodeBase62 (value : UInt64) : Bytes :=
  if value = 0 then List.replicate kMinCodeLength 48
  else (pushZeros (pushDigits value [])).reverse

theorem pushDigits_eq (value : UInt64) (encoded : Bytes) :
    MySql.pushDigits value encoded = encoded ++ encodeLoop value.toNat := by
  fun_induction MySql.pushDigits value encoded with
  | case1 value encoded hpos ih =>
    have hne : value.toNat ≠ 0 := by
      have hlt : 0 < value.toNat := by simpa [UInt64.lt_iff_toNat_lt] using hpos
      omega
    have hloop : encodeLoop value.toNat =
        base62Char (value.toNat % 62) :: encodeLoop (value.toNat / 62) := by
      rw [encodeLoop, if_neg hne]
      rfl
    rw [ih, hloop, UInt64.toNat_div, UInt64.toNat_mod, List.append_assoc]
    rfl
  | case2 value encoded hzero =>
    have hnat : value.toNat = 0 := by
      simpa [UInt64.lt_iff_toNat_lt] using hzero
    rw [hnat, encodeLoop, if_pos rfl, List.append_nil]

theorem pushZeros_eq (encoded : Bytes) : MySql.pushZeros encoded =
    encoded ++ List.replicate (kMinCodeLength - encoded.length) 48 := by
  fun_induction MySql.pushZeros encoded with
  | case1 encoded hlt ih =>
    have hshort : encoded.length < kMinCodeLength := hlt
    have hcount : kMinCodeLength - encoded.length =
        kMinCodeLength - (encoded ++ [48]).length + 1 := by
      rw [List.length_append, List.length_singleton]
      omega
    rw [ih, hcount, List.replicate_succ, List.append_assoc]
    rfl
  | case2 encoded hle =>
    have hlong : kMinCodeLength ≤ encoded.length := Nat.le_of_not_lt hle
    rw [Nat.sub_eq_zero_of_le hlong, List.replicate_zero, List.append_nil]

/-- The two repositories issue the same codes. -/
theorem mySql_encodeBase62_eq (value : UInt64) :
    MySql.encodeBase62 value = encodeBase62 value.toNat := by
  have hzero : value = 0 ↔ value.toNat = 0 := by
    rw [← UInt64.toNat_inj]
    rfl
  rw [MySql.encodeBase62, encodeBase62, pushZeros_eq, pushDigits_eq, List.nil_append]
  by_cases h : value = 0
  · rw [if_pos h, if_pos (hzero.mp h)]
    rfl
  · rw [if_neg h, if_neg (mt hzero.mpr h)]

def readBase62 (code : Bytes) : ℕ := code.foldl (fun n c => n * 62 + kBase62Chars.idxOf c) 0

theorem readBase62_eq (code : Bytes) : readBase62 code = value 62 (code.map kBase62Chars.idxOf) :=
  by rw [readBase62, value, List.foldl_map]

theorem idxOf_base62Char {d : ℕ} (h : d < 62) : kBase62Chars.idxOf (base62Char d) = d := by
  have hnodup : kBase62Chars.Nodup := by decide
  have hlength : d < kBase62Chars.length := h
  rw [base62Char, List.getD_eq_getElem _ _ hlength]
  exact hnodup.idxOf_getElem d hlength

theorem map_idxOf_base62Char {digits : List ℕ} (h : ∀ d ∈ digits, d < 62) :
    (digits.map base62Char).map kBase62Chars.idxOf = digits := by
  rw [List.map_map]
  exact (List.map_congr_left fun d hd => idxOf_base62Char (h d hd)).trans (List.map_id digits)

theorem encodeBase62_digits (id : ℕ) : ∃ digits, (∀ d ∈ digits, d < 62) ∧ value 62 digits = id ∧
    encodeBase62 id = digits.map base62Char := by
  obtain ⟨k, hk⟩ := encodeBase62_eq id
  refine ⟨(Nat.digits 62 id ++ List.replicate k 0).reverse, ?_, ?_, ?_⟩
  · intro d hd
    rcases List.mem_append.mp (List.mem_reverse.mp hd) with hd | hd
    · exact Nat.digits_lt_base (by decide) hd
    · rw [List.eq_of_mem_replicate hd]
      decide
  · rw [value_eq_ofDigits, List.reverse_reverse, Nat.ofDigits_append_replicate_zero,
      Nat.ofDigits_digits]
  · rw [hk, List.map_reverse]

theorem readBase62_encodeBase62 (id : ℕ) : readBase62 (encodeBase62 id) = id := by
  obtain ⟨digits, hdigits, hvalue, hcode⟩ := encodeBase62_digits id
  rw [readBase62_eq, hcode, map_idxOf_base62Char hdigits, hvalue]

theorem base62Char_lt_iff : ∀ c < 62, ∀ d < 62, (base62Char c < base62Char d ↔ c < d) := by
  have hsorted : kBase62Chars.Pairwise (· < ·) := by decide
  have hlt : ∀ c d, c < d → d < 62 → base62Char c < base62Char d := by
    intro c d hcd hd
    have hlength : d < kBase62Chars.length := hd
    rw [base62Char, base62Char, List.getD_eq_getElem _ _ hlength,
      List.getD_eq_getElem _ _ (hcd.trans hlength)]
    exact List.pairwise_iff_getElem.mp hsorted c d (hcd.trans hlength) hlength hcd
  intro c hc d hd
  refine ⟨fun h => ?_, fun h => hlt c d h hd⟩
  by_contra hge
  rcases Nat.lt_or_eq_of_le (Nat.le_of_not_lt hge) with hdc | rfl
  · exact UInt8.lt_asymm h (hlt d c hdc hc)
  · exact UInt8.lt_irrefl _ h

theorem encodeBase62_lt_iff {id other : ℕ}
    (h : (encodeBase62 id).length = (encodeBase62 other).length) :
    encodeBase62 id < encodeBase62 other ↔ id < other := by
  obtain ⟨digits, hdigits, hvalue, hcode⟩ := encodeBase62_digits id
  obtain ⟨digits', hdigits', hvalue', hcode'⟩ := encodeBase62_digits other
  rw [hcode, hcode', List.length_map, List.length_map] at h
  rw [hcode, hcode', map_lt_map_iff base62Char_lt_iff (fun c hc d hd => base62Char_injective hc hd)
    hdigits hdigits', lt_iff_value_lt (by decide) hdigits hdigits' h, hvalue, hvalue']

theorem encodeBase62_padded (id : ℕ) : encodeBase62 id =
    List.replicate (kMinCodeLength - (encodeLoop id).length) 48 ++ (encodeLoop id).reverse := by
  by_cases h : id = 0
  · rw [encodeBase62, if_pos h, h, encodeLoop]
    rfl
  · rw [encodeBase62, if_neg h, List.reverse_append, List.reverse_replicate]

theorem encodeLoop_last (id : ℕ) : (encodeLoop id).reverse.head? ≠ some 48 := by
  rw [encodeLoop_eq, List.head?_reverse, List.getLast?_map]
  intro h
  obtain ⟨d, hd, hzero⟩ := Option.map_eq_some_iff.mp h
  have hne : Nat.digits 62 id ≠ [] := by
    intro hnil
    rw [hnil] at hd
    cases hd
  have hid : id ≠ 0 := Nat.digits_ne_nil_iff_ne_zero.mp hne
  rw [List.getLast?_eq_some_getLast hne, Option.some.injEq] at hd
  have hlt : d < 62 := Nat.digits_lt_base (by decide) (hd ▸ List.getLast_mem hne)
  have hd0 : d = 0 := base62Char_injective hlt (by decide) hzero
  exact Nat.getLast_digit_ne_zero 62 hid (hd.trans hd0)

theorem encodeLoop_length {id : ℕ} (h : id < 2 ^ 64) : (encodeLoop id).length ≤ 11 := by
  rw [encodeLoop_eq, List.length_map]
  exact (Nat.digits_length_le_iff (by decide) id).mpr (h.trans (by decide))

theorem encodeBase62_length (id : ℕ) :
    (encodeBase62 id).length = max kMinCodeLength (encodeLoop id).length := by
  rw [encodeBase62_padded, List.length_append, List.length_replicate, List.length_reverse]
  omega

/-- What an encoding of 64-bit ids as codes is for. -/
structure Identifies (encode : UInt64 → Bytes) : Prop where
  length : ∀ id, 6 ≤ (encode id).length ∧ (encode id).length ≤ 11
  alphabet : ∀ id, ∀ c ∈ encode id, isDigit c ∨ isUpper c ∨ isLower c
  reads : ∀ id, readBase62 (encode id) = id.toNat
  padded : ∀ id, ∃ digits, encode id = List.replicate (6 - digits.length) 48 ++ digits ∧
    digits.head? ≠ some 48
  injective : Function.Injective encode
  ordered : ∀ id other, (encode id).length = (encode other).length →
    (encode id < encode other ↔ id < other)

/-- A code tells its id, in both repositories. -/
theorem encodeBase62_identifies : Identifies (fun id => encodeBase62 id.toNat) ∧
    Identifies MySql.encodeBase62 ∧
    ∀ id, MySql.encodeBase62 id = encodeBase62 id.toNat := by
  have hmemory : Identifies (fun id => encodeBase62 id.toNat) := by
    constructor
    · intro id
      have hloop := encodeLoop_length id.toNat_lt
      rw [encodeBase62_length, kMinCodeLength]
      omega
    · intro id c hc
      have halnum := encodeBase62_char hc
      simp only [isAlnum, Bool.or_eq_true] at halnum
      tauto
    · intro id
      exact readBase62_encodeBase62 id.toNat
    · intro id
      refine ⟨(encodeLoop id.toNat).reverse, ?_, encodeLoop_last id.toNat⟩
      rw [List.length_reverse]
      exact encodeBase62_padded id.toNat
    · intro id other h
      exact UInt64.toNat_inj.mp (encodeBase62_injective h)
    · intro id other h
      exact (encodeBase62_lt_iff h).trans UInt64.lt_iff_toNat_lt.symm
  have hsame := funext mySql_encodeBase62_eq
  exact ⟨hmemory, hsame ▸ hmemory, mySql_encodeBase62_eq⟩

theorem base62Char_idxOf {c : UInt8} (h : c ∈ kBase62Chars) :
    base62Char (kBase62Chars.idxOf c) = c := by
  have hlength := List.idxOf_lt_length_of_mem h
  rw [base62Char, List.getD_eq_getElem _ _ hlength]
  exact List.getElem_idxOf hlength

/-- Every numeral of six or more digits with none of them a leading zero is a code. -/
theorem encodeBase62_readBase62 {code : Bytes} (hchars : ∀ c ∈ code, c ∈ kBase62Chars)
    (hlength : kMinCodeLength ≤ code.length) (hhead : code.head? ≠ some 48) :
    encodeBase62 (readBase62 code) = code := by
  have hdigits : Nat.digits 62 (readBase62 code) = (code.map kBase62Chars.idxOf).reverse := by
    rw [readBase62_eq, value_eq_ofDigits]
    apply Nat.digits_ofDigits 62 (by decide)
    · intro d hd
      obtain ⟨c, hc, rfl⟩ := List.mem_map.mp (List.mem_reverse.mp hd)
      exact List.idxOf_lt_length_of_mem (hchars c hc)
    · intro hne hlast
      cases code with
      | nil => exact hne rfl
      | cons c rest =>
        have hzero : kBase62Chars.idxOf c = 0 := by simpa using hlast
        have hc := base62Char_idxOf (hchars c List.mem_cons_self)
        rw [hzero] at hc
        exact hhead (congrArg some hc.symm)
  have hloop : encodeLoop (readBase62 code) = code.reverse := by
    rw [encodeLoop_eq, hdigits, List.map_reverse, List.map_map]
    exact congrArg List.reverse ((List.map_congr_left fun c hc =>
      base62Char_idxOf (hchars c hc)).trans (List.map_id code))
  rw [encodeBase62_padded, hloop, List.length_reverse, Nat.sub_eq_zero_of_le hlength,
    List.reverse_reverse, List.replicate_zero, List.nil_append]

/-- Generated codes meet the rules of custom codes, apart from the reserved words. -/
theorem isValidCustomCode_of_generated (id : UInt64) :
    isValidCustomCode (encodeBase62 id.toNat) =
      !reservedCodes.contains (encodeBase62 id.toNat) := by
  have hlength := encodeBase62_length id.toNat
  have hloop := encodeLoop_length id.toNat_lt
  rw [kMinCodeLength] at hlength
  have hchars : (encodeBase62 id.toNat).all
      (fun ch => isLower ch || isUpper ch || isDigit ch || ch == 95 || ch == 45) = true := by
    rw [List.all_eq_true]
    intro c hc
    have halnum := encodeBase62_char hc
    rw [isAlnum] at halnum
    rw [halnum]
    rfl
  have hlow : decide (4 ≤ (encodeBase62 id.toNat).length) = true := by
    rw [decide_eq_true_eq]
    omega
  have hhigh : decide ((encodeBase62 id.toNat).length ≤ 32) = true := by
    rw [decide_eq_true_eq]
    omega
  rw [isValidCustomCode, hchars, hlow, hhigh]
  rfl

theorem encodeBase62_eq_word_iff (id : ℕ) (word : Bytes)
    (hchars : word.all kBase62Chars.contains = true) (hlength : kMinCodeLength ≤ word.length)
    (hhead : word.head? ≠ some 48) : encodeBase62 id = word ↔ id = readBase62 word := by
  have hchars : ∀ c ∈ word, c ∈ kBase62Chars := fun c hc =>
    List.contains_iff_mem.mp (List.all_eq_true.mp hchars c hc)
  constructor
  · intro h
    rw [← h, readBase62_encodeBase62]
  · intro h
    rw [h, encodeBase62_readBase62 hchars hlength hhead]

theorem encodeBase62_eq_health_iff (id : ℕ) :
    encodeBase62 id = ascii "health" ↔ id = 39993529145 := by
  have hid : readBase62 (ascii "health") = 39993529145 := by decide
  rw [← hid]
  exact encodeBase62_eq_word_iff id _ (by decide) (by decide) (by decide)

theorem encodeBase62_ne_short {word : Bytes} (h : word.length < 6) (id : ℕ) :
    encodeBase62 id ≠ word := by
  intro heq
  have hlength := encodeBase62_length id
  rw [heq, kMinCodeLength] at hlength
  omega

theorem encodeBase62_reserved_iff (id : ℕ) : encodeBase62 id ∈ reservedCodes ↔
    id = 39993529145 ∨ id = 157785245397987 ∨ id = 2763882122722 := by
  have hinternal :=
    encodeBase62_eq_word_iff id (ascii "internal") (by decide) (by decide) (by decide)
  have hmetrics := encodeBase62_eq_word_iff id (ascii "metrics") (by decide) (by decide) (by decide)
  have hids : readBase62 (ascii "internal") = 157785245397987 ∧
      readBase62 (ascii "metrics") = 2763882122722 := by decide
  rw [hids.1] at hinternal
  rw [hids.2] at hmetrics
  -- the other words are shorter than any code
  have hapi := encodeBase62_ne_short (show (ascii "api").length < 6 by decide) id
  have happ := encodeBase62_ne_short (show (ascii "app").length < 6 by decide) id
  have hs := encodeBase62_ne_short (show (ascii "s").length < 6 by decide) id
  simp only [reservedCodes, List.mem_cons, List.not_mem_nil, or_false, hapi, happ, hs,
    encodeBase62_eq_health_iff, hinternal, hmetrics, false_or]

/-- A generated code would pass as a custom one, except for three ids. -/
theorem isValidCustomCode_encodeBase62_iff (id : UInt64) :
    isValidCustomCode (encodeBase62 id.toNat) = true ↔
      id ≠ 39993529145 ∧ id ≠ 157785245397987 ∧ id ≠ 2763882122722 := by
  rw [isValidCustomCode_of_generated, Bool.not_eq_true', ← Bool.not_eq_true,
    List.contains_iff_mem, encodeBase62_reserved_iff]
  simp only [not_or, ← UInt64.toNat_inj, UInt64.reduceToNat, ne_eq]

/-- The code of one id is the word that the custom path refuses. -/
theorem encodeBase62_health :
    encodeBase62 (39993529145 : UInt64).toNat = ascii "health" ∧
      isValidCustomCode (encodeBase62 (39993529145 : UInt64).toNat) = false := by
  have hcode : encodeBase62 (39993529145 : UInt64).toNat = ascii "health" :=
    (encodeBase62_eq_health_iff 39993529145).mpr rfl
  rw [hcode]
  decide

end GeneratedCodes
