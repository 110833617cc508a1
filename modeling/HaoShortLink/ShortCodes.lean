import HaoShortLink.Cpp
import Mathlib.Data.List.GetD
import Mathlib.Data.List.Nodup
import Mathlib.Data.Nat.Digits.Defs

/-! The two sources of short codes: Base62 forms of ids and codes that users choose. -/
namespace ShortCodes

open Cpp

def kBase62Chars : Bytes := ascii "0123456789ABCDEFGHIJKLMNOPQRSTUVWXYZabcdefghijklmnopqrstuvwxyz"
def kBase62Size : ℕ := 62
def kMinCodeLength : ℕ := 6

def base62Char (digit : ℕ) : UInt8 := kBase62Chars.getD digit 0

/-- The digits pushed by the division loop, least significant first. -/
def encodeLoop (value : ℕ) : Bytes :=
  if value = 0 then [] else base62Char (value % kBase62Size) :: encodeLoop (value / kBase62Size)
termination_by value
decreasing_by exact Nat.div_lt_self (by omega) (by decide)

def encodeBase62 (value : ℕ) : Bytes :=
  if value = 0 then List.replicate kMinCodeLength 48
  else
    let encoded := encodeLoop value
    (encoded ++ List.replicate (kMinCodeLength - encoded.length) 48).reverse

def reservedCodes : List Bytes :=
  [ascii "api", ascii "app", ascii "health", ascii "internal", ascii "metrics", ascii "s"]

def isValidCustomCode (code : Bytes) : Bool :=
  4 ≤ code.length && code.length ≤ 32 &&
    code.all (fun ch => isLower ch || isUpper ch || isDigit ch || ch == 95 || ch == 45) &&
    !reservedCodes.contains code

theorem encodeLoop_eq (value : ℕ) : encodeLoop value = (Nat.digits 62 value).map base62Char := by
  induction value using Nat.strong_induction_on with
  | _ value ih =>
    rw [encodeLoop]
    split
    · next h => simp [h]
    · next h =>
      have hlt : value / 62 < value := Nat.div_lt_self (Nat.pos_of_ne_zero h) (by decide)
      rw [Nat.digits_def' (by decide) (Nat.pos_of_ne_zero h), List.map_cons]
      exact congrArg _ (ih _ hlt)

/-- A code is its id's digits with zeros above them, most significant first. -/
theorem encodeBase62_eq (value : ℕ) : ∃ k, encodeBase62 value =
    ((Nat.digits 62 value ++ List.replicate k 0).map base62Char).reverse := by
  have hzero : base62Char 0 = 48 := by decide
  unfold encodeBase62
  split
  · next h => exact ⟨kMinCodeLength, by simp [h, hzero]⟩
  · exact ⟨kMinCodeLength - (encodeLoop value).length, by simp [encodeLoop_eq, hzero]⟩

theorem mem_encodeBase62 {value : ℕ} {ch : UInt8} (h : ch ∈ encodeBase62 value) :
    ∃ d < 62, base62Char d = ch := by
  obtain ⟨k, hk⟩ := encodeBase62_eq value
  rw [hk, List.mem_reverse] at h
  obtain ⟨d, hd, rfl⟩ := List.mem_map.mp h
  rcases List.mem_append.mp hd with hd | hd
  · exact ⟨d, Nat.digits_lt_base (by decide) hd, rfl⟩
  · obtain rfl := List.eq_of_mem_replicate hd
    exact ⟨0, by decide, rfl⟩

theorem encodeBase62_char {value : ℕ} {ch : UInt8} (h : ch ∈ encodeBase62 value) :
    isAlnum ch := by
  have hall : kBase62Chars.all isAlnum = true := by decide
  obtain ⟨d, hd, rfl⟩ := mem_encodeBase62 h
  have hmem : base62Char d ∈ kBase62Chars := by
    have hlength : d < kBase62Chars.length := hd
    simp [base62Char, List.getD, hlength]
  exact List.all_eq_true.mp hall _ hmem

theorem isValidCustomCode_char {code : Bytes} (h : isValidCustomCode code = true) {ch : UInt8}
    (hch : ch ∈ code) : isAlnum ch ∨ ch = 95 ∨ ch = 45 := by
  simp only [isValidCustomCode, Bool.and_eq_true, List.all_eq_true, Bool.or_eq_true,
    beq_iff_eq] at h
  have hchar := h.1.2 ch hch
  simp only [isAlnum, Bool.or_eq_true]
  tauto

theorem encodeBase62_ne_nil (value : ℕ) : encodeBase62 value ≠ [] := by
  rw [encodeBase62]
  by_cases h : value = 0
  · simp [h, kMinCodeLength]
  · rw [if_neg h, encodeLoop, if_neg h]
    simp

theorem base62Char_injective {a b : ℕ} (ha : a < 62) (hb : b < 62)
    (h : base62Char a = base62Char b) : a = b := by
  have hnodup : kBase62Chars.Nodup := by decide
  have hlen : kBase62Chars.length = 62 := by decide
  simp only [base62Char, List.getD_eq_getElem _ _ (hlen ▸ ha),
    List.getD_eq_getElem _ _ (hlen ▸ hb)] at h
  exact (hnodup.getElem_inj_iff).mp h

theorem map_base62Char_injective {l₁ l₂ : List ℕ} (h₁ : ∀ d ∈ l₁, d < 62)
    (h₂ : ∀ d ∈ l₂, d < 62) (h : l₁.map base62Char = l₂.map base62Char) : l₁ = l₂ := by
  induction l₁ generalizing l₂ with
  | nil => exact (List.map_eq_nil_iff.mp h.symm).symm
  | cons a l ih =>
    cases l₂ with
    | nil => cases h
    | cons b m =>
      obtain ⟨hab, hlm⟩ := List.cons.inj h
      have hd := base62Char_injective (h₁ a List.mem_cons_self) (h₂ b List.mem_cons_self) hab
      have hl := ih (fun d hd => h₁ d (List.mem_cons_of_mem _ hd))
        (fun d hd => h₂ d (List.mem_cons_of_mem _ hd)) hlm
      rw [hd, hl]

theorem encodeBase62_injective : Function.Injective encodeBase62 := by
  intro a b h
  obtain ⟨j, hj⟩ := encodeBase62_eq a
  obtain ⟨k, hk⟩ := encodeBase62_eq b
  have digits_lt : ∀ n i, ∀ d ∈ Nat.digits 62 n ++ List.replicate i 0, d < 62 := by
    intro n i d hd
    rcases List.mem_append.mp hd with hd | hd
    · exact Nat.digits_lt_base (by decide) hd
    · rw [List.eq_of_mem_replicate hd]
      decide
  have hdigits := map_base62Char_injective (digits_lt a j) (digits_lt b k)
    (List.reverse_injective (hj ▸ hk ▸ h))
  -- zeros above the digits do not change the number they denote
  have hvalue := congrArg (Nat.ofDigits 62) hdigits
  simpa [Nat.ofDigits_append_replicate_zero, Nat.ofDigits_digits] using hvalue

end ShortCodes
