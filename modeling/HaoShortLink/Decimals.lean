import HaoShortLink.Cpp
import Mathlib.Data.List.TakeWhile
import Mathlib.Data.List.Induction

/-! Decimal numerals: what is printed is read back. -/
namespace Decimals

open Cpp

def value (digits : Bytes) : ℕ := digits.foldl (fun n d => n * 10 + (d.toNat - 48)) 0

theorem value_snoc (digits : Bytes) (d : UInt8) :
    value (digits ++ [d]) = value digits * 10 + (d.toNat - 48) := by
  simp [value]

theorem toDecimal_of_lt {n : ℕ} (h : n < 10) : toDecimal n = [(48 + n).toUInt8] := by
  have hdigit : ∀ d < 10, toDecimal d = [(48 + d).toUInt8] := by decide
  exact hdigit n h

theorem toDecimal_of_le {n : ℕ} (h : 10 ≤ n) :
    toDecimal n = toDecimal (n / 10) ++ [(48 + n % 10).toUInt8] := by
  have hdigit := toDecimal_of_lt (Nat.mod_lt n (show 10 > 0 by decide))
  simp only [toDecimal, ascii, Nat.toString_eq_repr, Nat.toList_repr] at hdigit ⊢
  rw [Nat.toDigits_of_lt_base (Nat.mod_lt n (by decide))] at hdigit
  rw [Nat.toDigits_of_base_le (by decide) h, List.map_append, hdigit]

theorem toDecimal_induction {motive : ℕ → Bytes → Prop}
    (digit : ∀ d < 10, motive d [(48 + d).toUInt8])
    (snoc : ∀ n d, d < 10 → motive n (toDecimal n) →
      motive (n * 10 + d) (toDecimal n ++ [(48 + d).toUInt8])) (n : ℕ) :
    motive n (toDecimal n) := by
  induction n using Nat.strongRecOn with
  | ind n ih =>
    by_cases h : n < 10
    · rw [toDecimal_of_lt h]
      exact digit n h
    · have hle : 10 ≤ n := by omega
      have hn : n = n / 10 * 10 + n % 10 := by omega
      have hsnoc := snoc (n / 10) (n % 10) (by omega) (ih (n / 10) (by omega))
      rw [← hn] at hsnoc
      rw [toDecimal_of_le hle]
      exact hsnoc

theorem toNat_digit {d : ℕ} (h : d < 10) : ((48 + d).toUInt8).toNat = 48 + d := by
  rw [Nat.toUInt8, UInt8.toNat_ofNat']
  omega

theorem toDecimal_ne_nil (n : ℕ) : toDecimal n ≠ [] :=
  toDecimal_induction (motive := fun _ digits => digits ≠ []) (by simp) (by simp) n

theorem toDecimal_length {n k : ℕ} (h : n < 10 ^ (k + 1)) : (toDecimal n).length ≤ k + 1 := by
  induction k generalizing n with
  | zero => simp [toDecimal_of_lt (by simpa using h)]
  | succ k ih =>
    by_cases hn : n < 10
    · simp [toDecimal_of_lt hn]
    · have hlt : n / 10 < 10 ^ (k + 1) := Nat.div_lt_of_lt_mul (by rwa [← pow_succ'])
      rw [toDecimal_of_le (Nat.le_of_not_lt hn), List.length_append, List.length_singleton]
      have := ih hlt
      omega

theorem toDecimal_isDigit (n : ℕ) : ∀ c ∈ toDecimal n, isDigit c := by
  have hdigit : ∀ d < 10, isDigit (48 + d).toUInt8 := by decide
  refine toDecimal_induction (motive := fun _ digits => ∀ c ∈ digits, isDigit c) ?_ ?_ n
  · intro d hd c hc
    rw [List.mem_singleton.mp hc]
    exact hdigit d hd
  · intro n d hd ih c hc
    rcases List.mem_append.mp hc with hc | hc
    · exact ih c hc
    · rw [List.mem_singleton.mp hc]
      exact hdigit d hd

theorem value_toDecimal (n : ℕ) : value (toDecimal n) = n := by
  refine toDecimal_induction (motive := fun n digits => value digits = n) ?_ ?_ n
  · intro d hd
    have hsnoc := value_snoc [] (48 + d).toUInt8
    rw [List.nil_append, toNat_digit hd] at hsnoc
    rw [hsnoc, value, List.foldl_nil]
    omega
  · intro n d hd ih
    rw [value_snoc, ih, toNat_digit hd]
    omega

theorem toDecimal_injective : Function.Injective toDecimal := fun m n h => by
  rw [← value_toDecimal m, h, value_toDecimal]

theorem foldl_int (digits : Bytes) (h : ∀ c ∈ digits, isDigit c) :
    digits.foldl (fun n d => n * 10 + ((d.toNat : ℤ) - 48)) (0 : ℤ) = value digits := by
  induction digits using List.reverseRecOn with
  | nil => rfl
  | append_singleton digits d ih =>
    have hd : 48 ≤ d.toNat := by
      have hdigit := h d (by simp)
      simp only [isDigit, Bool.and_eq_true, decide_eq_true_eq] at hdigit
      exact hdigit.1
    rw [value_snoc, List.foldl_append, ih fun c hc => h c (List.mem_append_left _ hc)]
    simp only [List.foldl_cons, List.foldl_nil]
    omega

theorem takeWhile_toDecimal (n : ℕ) : (toDecimal n).takeWhile isDigit = toDecimal n :=
  List.takeWhile_eq_self_iff.mpr (toDecimal_isDigit n)

theorem head_toDecimal (n : ℕ) : ∃ c digits, toDecimal n = c :: digits ∧ isDigit c := by
  obtain ⟨c, digits, h⟩ := List.exists_cons_of_ne_nil (toDecimal_ne_nil n)
  exact ⟨c, digits, h, toDecimal_isDigit n c (h ▸ List.mem_cons_self)⟩

theorem isSpace_digit {c : UInt8} (h : isDigit c) : isSpace c = false := by
  simp only [isDigit, Bool.and_eq_true, decide_eq_true_eq, UInt8.le_iff_toNat_le,
    UInt8.reduceToNat] at h
  simp only [isSpace, Bool.or_eq_false_iff, Bool.and_eq_false_iff, beq_eq_false_iff_ne,
    decide_eq_false_iff_not, UInt8.le_iff_toNat_le, ne_eq, ← UInt8.toNat_inj, UInt8.reduceToNat]
  omega

theorem toDecimal_dropWhile (n : ℕ) : (toDecimal n).dropWhile isSpace = toDecimal n := by
  obtain ⟨c, digits, h, hdigit⟩ := head_toDecimal n
  rw [h, List.dropWhile_cons, isSpace_digit hdigit]
  rfl

theorem toDecimal_head_ne (n : ℕ) {c : UInt8} (hc : isDigit c = false) :
    (toDecimal n).head? ≠ some c := by
  obtain ⟨d, digits, h, hdigit⟩ := head_toDecimal n
  rw [h, List.head?_cons, ne_eq, Option.some.injEq]
  rintro rfl
  rw [hc] at hdigit
  cases hdigit

theorem signedToDecimal_natCast (n : ℕ) : signedToDecimal n = toDecimal n := by
  rw [signedToDecimal, if_neg (by omega), Int.toNat_natCast]

theorem signedToDecimal_injective {m n : ℤ} (h : signedToDecimal m = signedToDecimal n) :
    m = n := by
  have hsign : ∀ k l : ℕ, 45 :: toDecimal k ≠ toDecimal l := fun k l heq =>
    toDecimal_head_ne l (c := 45) (by decide) (by rw [← heq]; rfl)
  simp only [signedToDecimal] at h
  by_cases hm : m < 0
  · by_cases hn : n < 0
    · rw [if_pos hm, if_pos hn] at h
      have := toDecimal_injective (List.cons.inj h).2
      omega
    · rw [if_pos hm, if_neg hn] at h
      exact absurd h (hsign _ _)
  · by_cases hn : n < 0
    · rw [if_neg hm, if_pos hn] at h
      exact absurd h.symm (hsign _ _)
    · rw [if_neg hm, if_neg hn] at h
      have := toDecimal_injective h
      omega

theorem stoull_toDecimal {n : ℕ} (h : n < 2 ^ 64) : stoull (toDecimal n) = some n := by
  have hminus : ((toDecimal n).head? == some 45) = false :=
    beq_false_of_ne (toDecimal_head_ne n (by decide))
  have hplus : ((toDecimal n).head? == some 43) = false :=
    beq_false_of_ne (toDecimal_head_ne n (by decide))
  have hdigits := takeWhile_toDecimal n
  have hvalue : (toDecimal n).foldl (fun n d => n * 10 + (d.toNat - 48)) 0 = n :=
    value_toDecimal n
  simp only [stoull, toDecimal_dropWhile, hminus, hplus, Bool.or_self, Bool.false_eq_true,
    if_false, hdigits, hvalue]
  rw [if_neg]
  simpa [toDecimal_ne_nil] using h

theorem stoll_toDecimal {n : ℕ} (h : n < 2 ^ 63) : stoll (toDecimal n) = some (n : ℤ) := by
  have hminus : ((toDecimal n).head? == some 45) = false :=
    beq_false_of_ne (toDecimal_head_ne n (by decide))
  have hplus : ((toDecimal n).head? == some 43) = false :=
    beq_false_of_ne (toDecimal_head_ne n (by decide))
  have hdigits := takeWhile_toDecimal n
  have hvalue := foldl_int (toDecimal n) (toDecimal_isDigit n)
  rw [value_toDecimal] at hvalue
  simp only [stoll, toDecimal_dropWhile, hminus, hplus, Bool.or_self, Bool.false_eq_true,
    if_false, hdigits, hvalue]
  rw [if_neg]
  simp only [Bool.or_eq_true, List.isEmpty_iff, toDecimal_ne_nil, decide_eq_true_eq, false_or]
  omega

theorem stoll_signedToDecimal {n : ℤ} (hlow : -2 ^ 63 ≤ n) (hhigh : n < 2 ^ 63) :
    stoll (signedToDecimal n) = some n := by
  by_cases hneg : n < 0
  · have hdigits := takeWhile_toDecimal n.natAbs
    have hvalue := foldl_int (toDecimal n.natAbs) (toDecimal_isDigit n.natAbs)
    rw [value_toDecimal] at hvalue
    have hblank : List.dropWhile isSpace (45 :: toDecimal n.natAbs) = 45 :: toDecimal n.natAbs :=
      rfl
    simp only [signedToDecimal, if_pos hneg, stoll, hblank, List.head?_cons, beq_self_eq_true,
      Bool.true_or, if_true, List.tail_cons, hdigits, hvalue]
    rw [if_neg]
    · congr 1
      omega
    · simp only [Bool.or_eq_true, List.isEmpty_iff, toDecimal_ne_nil, decide_eq_true_eq, false_or]
      omega
  · have hnat : n = (n.toNat : ℤ) := by omega
    rw [signedToDecimal, if_neg hneg, stoll_toDecimal (by omega), ← hnat]

/-- An optional sign, digits as far as they go, and what follows them. -/
structure ReadsAs (v sign digits tail : Bytes) : Prop where
  whole : v = sign ++ digits ++ tail
  sign_known : sign ∈ [[], [43], [45]]
  digits_ne : digits ≠ []
  digits_only : ∀ c ∈ digits, isDigit c = true
  tail_stops : ∀ c ∈ tail.head?, isDigit c = false

def signedValue (sign digits : Bytes) : ℤ :=
  if sign = [45] then -(value digits : ℤ) else value digits

variable {v sign digits tail : Bytes}

theorem signedValue_eq (sign digits : Bytes) :
    (if sign = [45] then -(value digits : ℤ) else value digits) = signedValue sign digits := rfl

theorem takeWhile_digits (hdigits : ∀ c ∈ digits, isDigit c = true)
    (htail : ∀ c ∈ tail.head?, isDigit c = false) :
    (digits ++ tail).takeWhile isDigit = digits := by
  rw [List.takeWhile_append_of_pos hdigits]
  cases tail with
  | nil => simp
  | cons c tail => simp [htail c rfl]

def leadingDigits (v : Bytes) : Bytes :=
  (if v.head? == some 45 || v.head? == some 43 then v.tail else v).takeWhile isDigit

theorem ReadsAs.leadingDigits_eq (h : ReadsAs v sign digits tail) : leadingDigits v = digits ∧
    (v.head? == some 45) = decide (sign = [45]) ∧ v.dropWhile isSpace = v := by
  obtain ⟨rfl, hsign, hne, hdigits, htail⟩ := h
  have htake := takeWhile_digits hdigits htail
  obtain ⟨d, more, hcons⟩ := List.exists_cons_of_ne_nil hne
  have hd : isDigit d = true := hdigits d (by simp [hcons])
  have hhead : (digits ++ tail).head? = some d := by simp [hcons]
  have hminus : (some d == some (45 : UInt8)) = false := by
    apply beq_false_of_ne
    rintro ⟨⟩
    cases hd
  have hplus : (some d == some (43 : UInt8)) = false := by
    apply beq_false_of_ne
    rintro ⟨⟩
    cases hd
  have hblank : (digits ++ tail).dropWhile isSpace = digits ++ tail := by
    rw [hcons, List.cons_append, List.dropWhile_cons, isSpace_digit hd]
    rfl
  simp only [List.mem_cons, List.not_mem_nil, or_false] at hsign
  rcases hsign with rfl | rfl | rfl
  · refine ⟨?_, ?_, hblank⟩
    · simp only [leadingDigits, List.nil_append, hhead, hminus, hplus, Bool.or_self,
        Bool.false_eq_true, if_false, htake]
    · rw [List.nil_append, hhead, hminus]
      rfl
  · exact ⟨htake, rfl, rfl⟩
  · exact ⟨htake, rfl, rfl⟩

/-- A string begins with a number, or no conversion reads it. -/
theorem reads_cases (v : Bytes) :
    leadingDigits v = [] ∨ ∃ sign digits tail, ReadsAs v sign digits tail := by
  have hcut : ∃ sign rest, v = sign ++ rest ∧ sign ∈ [[], [43], [(45 : UInt8)]] ∧
      leadingDigits v = rest.takeWhile isDigit := by
    cases v with
    | nil => exact ⟨[], [], rfl, by simp, by simp [leadingDigits]⟩
    | cons c v =>
      by_cases hminus : c = 45
      · subst hminus
        exact ⟨[45], v, rfl, by simp, by simp [leadingDigits]⟩
      · by_cases hplus : c = 43
        · subst hplus
          exact ⟨[43], v, rfl, by simp, by simp [leadingDigits]⟩
        · exact ⟨[], c :: v, rfl, by simp, by simp [leadingDigits, hminus, hplus]⟩
  obtain ⟨sign, rest, hv, hsign, hdigits⟩ := hcut
  rw [hdigits]
  by_cases hne : rest.takeWhile isDigit = []
  · exact .inl hne
  · refine .inr ⟨sign, rest.takeWhile isDigit, rest.dropWhile isDigit, ?_, hsign, hne, ?_, ?_⟩
    · rw [List.append_assoc, List.takeWhile_append_dropWhile]
      exact hv
    · intro c hc
      exact List.mem_takeWhile_imp hc
    · intro c hc
      have hhead := List.head?_dropWhile_not isDigit rest
      rw [hc] at hhead
      simpa using hhead

theorem stoi_reads (h : ReadsAs v sign digits tail) : stoi v =
    if -2 ^ 31 ≤ signedValue sign digits ∧ signedValue sign digits < 2 ^ 31 then
      .ok (signedValue sign digits)
    else .error (.outOfRange (ascii "stoi")) := by
  obtain ⟨hlead, hminus, hblank⟩ := h.leadingDigits_eq
  have hvalue := foldl_int digits h.digits_only
  have hempty : digits.isEmpty = false := by simpa using h.digits_ne
  rw [leadingDigits] at hlead
  simp only [stoi, hblank, hlead, hvalue, hempty]
  simp only [hminus, decide_eq_true_eq, signedValue_eq, Bool.false_eq_true, if_false,
    Bool.and_eq_true]

theorem reads_of_stoi {n : ℤ} (hblank : v.dropWhile isSpace = v) (h : stoi v = .ok n) :
    ∃ sign digits tail, ReadsAs v sign digits tail ∧ n = signedValue sign digits ∧
      -2 ^ 31 ≤ n ∧ n < 2 ^ 31 := by
  rcases reads_cases v with hnone | ⟨sign, digits, tail, hread⟩
  · rw [leadingDigits] at hnone
    simp only [stoi, hblank, hnone] at h
    cases h
  · have hstoi := stoi_reads hread
    rw [h] at hstoi
    split at hstoi
    · next hrange =>
      obtain rfl := Except.ok.inj hstoi
      exact ⟨sign, digits, tail, hread, rfl, hrange⟩
    · cases hstoi

theorem stoull_reads (h : ReadsAs (v.dropWhile isSpace) sign digits tail) : stoull v =
    if value digits < 2 ^ 64 then
      some (if sign = [45] then (2 ^ 64 - value digits) % 2 ^ 64 else value digits)
    else none := by
  obtain ⟨hlead, hminus, -⟩ := h.leadingDigits_eq
  have hempty : digits.isEmpty = false := by simpa using h.digits_ne
  rw [leadingDigits] at hlead
  have hvalue : digits.foldl (fun n d => n * 10 + (d.toNat - 48)) 0 = value digits := rfl
  simp only [stoull, hlead, hempty, hvalue]
  simp only [hminus, decide_eq_true_eq, Bool.false_or]
  by_cases hrange : value digits < 2 ^ 64
  · rw [if_neg (by omega), if_pos hrange]
  · rw [if_pos (by omega), if_neg hrange]

theorem stoll_reads (h : ReadsAs (v.dropWhile isSpace) sign digits tail) : stoll v =
    if -2 ^ 63 ≤ signedValue sign digits ∧ signedValue sign digits < 2 ^ 63 then
      some (signedValue sign digits)
    else none := by
  obtain ⟨hlead, hminus, -⟩ := h.leadingDigits_eq
  have hvalue := foldl_int digits h.digits_only
  have hempty : digits.isEmpty = false := by simpa using h.digits_ne
  rw [leadingDigits] at hlead
  simp only [stoll, hlead, hempty, hvalue]
  simp only [hminus, decide_eq_true_eq, signedValue_eq, Bool.false_or, Bool.or_eq_true]
  by_cases hrange : -2 ^ 63 ≤ signedValue sign digits ∧ signedValue sign digits < 2 ^ 63
  · rw [if_neg (by omega), if_pos hrange]
  · rw [if_pos (by omega), if_neg hrange]

def ReadableUnsigned (v : Bytes) : Prop :=
  ∃ sign digits tail, ReadsAs (v.dropWhile isSpace) sign digits tail ∧ value digits < 2 ^ 64

def ReadableSigned (v : Bytes) : Prop :=
  ∃ sign digits tail, ReadsAs (v.dropWhile isSpace) sign digits tail ∧
    -2 ^ 63 ≤ signedValue sign digits ∧ signedValue sign digits < 2 ^ 63

theorem readableUnsigned_iff (v : Bytes) : ReadableUnsigned v ↔ ∃ n, stoull v = some n := by
  constructor
  · rintro ⟨sign, digits, tail, hread, hrange⟩
    exact ⟨_, (stoull_reads hread).trans (if_pos hrange)⟩
  · rintro ⟨n, h⟩
    rcases reads_cases (v.dropWhile isSpace) with hnone | ⟨sign, digits, tail, hread⟩
    · rw [leadingDigits] at hnone
      simp only [stoull, hnone] at h
      cases h
    · rw [stoull_reads hread] at h
      split at h
      · next hrange => exact ⟨sign, digits, tail, hread, hrange⟩
      · cases h

theorem readableSigned_iff (v : Bytes) : ReadableSigned v ↔ ∃ n, stoll v = some n := by
  constructor
  · rintro ⟨sign, digits, tail, hread, hrange⟩
    exact ⟨_, (stoll_reads hread).trans (if_pos hrange)⟩
  · rintro ⟨n, h⟩
    rcases reads_cases (v.dropWhile isSpace) with hnone | ⟨sign, digits, tail, hread⟩
    · rw [leadingDigits] at hnone
      simp only [stoll, hnone] at h
      cases h
    · rw [stoll_reads hread] at h
      split at h
      · next hrange => exact ⟨sign, digits, tail, hread, hrange⟩
      · cases h

theorem stoull_lt {n : ℕ} (h : stoull v = some n) : n < 2 ^ 64 := by
  obtain ⟨sign, digits, tail, hread, hrange⟩ := (readableUnsigned_iff v).mpr ⟨n, h⟩
  rw [stoull_reads hread, if_pos hrange] at h
  obtain rfl := Option.some.inj h
  split
  · exact Nat.mod_lt _ (by decide)
  · exact hrange

theorem stoll_range {n : ℤ} (h : stoll v = some n) : -2 ^ 63 ≤ n ∧ n < 2 ^ 63 := by
  obtain ⟨sign, digits, tail, hread, hrange⟩ := (readableSigned_iff v).mpr ⟨n, h⟩
  rw [stoll_reads hread, if_pos hrange] at h
  obtain rfl := Option.some.inj h
  exact hrange

end Decimals
