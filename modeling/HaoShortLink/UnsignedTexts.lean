import HaoShortLink.ApiHandlers
import HaoShortLink.Positionals

/-! parseUnsigned over 64-bit words: what it accepts, and that no step of it wraps. -/
namespace UnsignedTexts

open Cpp ApiHandlers

def digit (ch : UInt8) : ℕ := ch.toNat - 48

def denoted (s : Bytes) : ℕ := Nat.ofDigits 10 (s.map digit).reverse

/-- One round of the loop as the machine runs it. -/
def wordRound (result : UInt64) (ch : UInt8) : Option UInt64 :=
  if ch < 48 || 57 < ch then none
  else
    let digit := (ch - 48).toUInt64
    if (18446744073709551615 - digit) / 10 < result then none
    else some (result * 10 + digit)

def parseUnsignedWord (value : Bytes) : Option UInt64 :=
  if value = [] then none else value.foldlM wordRound 0

theorem denoted_snoc (s : Bytes) (ch : UInt8) :
    denoted (s ++ [ch]) = denoted s * 10 + digit ch := by
  have hmap : (s ++ [ch]).map digit = s.map digit ++ [digit ch] := by simp
  rw [denoted, denoted, hmap, ← Positionals.value_eq_ofDigits, ← Positionals.value_eq_ofDigits,
    Positionals.value_snoc]

theorem isDigit_iff {ch : UInt8} : isDigit ch = true ↔ 48 ≤ ch.toNat ∧ ch.toNat ≤ 57 := by
  simp [isDigit, UInt8.le_iff_toNat_le]

theorem toNat_digit {ch : UInt8} (h : isDigit ch) : (ch - 48).toUInt64.toNat = digit ch := by
  have hch := (isDigit_iff.mp h).1
  have hle : (48 : UInt8) ≤ ch := UInt8.le_iff_toNat_le.mpr hch
  rw [UInt8.toNat_toUInt64, UInt8.toNat_sub_of_le _ _ hle]
  exact congrArg (ch.toNat - ·) (by decide)

theorem digit_lt {ch : UInt8} (h : isDigit ch) : digit ch < 10 := by
  have hch := (isDigit_iff.mp h).2
  rw [digit]
  omega

theorem toNat_round {result : UInt64} {ch : UInt8} (hch : isDigit ch)
    (h : result.toNat * 10 + digit ch < 2 ^ 64) :
    (result * 10 + (ch - 48).toUInt64).toNat = result.toNat * 10 + digit ch := by
  have hten : (10 : UInt64).toNat = 10 := by decide
  rw [UInt64.toNat_add, UInt64.toNat_mul, toNat_digit hch, hten]
  omega

/-- The truncating division refuses exactly the sums that do not fit. -/
theorem guard_iff {result : UInt64} {ch : UInt8} (hch : isDigit ch) :
    (18446744073709551615 - (ch - 48).toUInt64) / 10 < result ↔
      2 ^ 64 ≤ result.toNat * 10 + digit ch := by
  have hten : (10 : UInt64).toNat = 10 := by decide
  have hmax : (18446744073709551615 : UInt64).toNat = 2 ^ 64 - 1 := by decide
  have hlt := digit_lt hch
  have hle : (ch - 48).toUInt64 ≤ 18446744073709551615 := by
    rw [UInt64.le_iff_toNat_le, toNat_digit hch, hmax]
    omega
  rw [UInt64.lt_iff_toNat_lt, UInt64.toNat_div, UInt64.toNat_sub_of_le _ _ hle, toNat_digit hch,
    hmax, hten]
  omega

theorem wordRound_eq (result : UInt64) (ch : UInt8) :
    wordRound result ch =
      if isDigit ch ∧ result.toNat * 10 + digit ch < 2 ^ 64 then
        some (result * 10 + (ch - 48).toUInt64)
      else none := by
  have hrange : (ch < 48 || 57 < ch) = !isDigit ch := by
    rw [Bool.eq_iff_iff, Bool.not_eq_true', ← Bool.not_eq_true, isDigit_iff, Bool.or_eq_true,
      decide_eq_true_iff, decide_eq_true_iff, UInt8.lt_iff_toNat_lt, UInt8.lt_iff_toNat_lt]
    simp only [UInt8.reduceToNat]
    omega
  have hround : wordRound result ch =
      if !isDigit ch then none
      else if (18446744073709551615 - (ch - 48).toUInt64) / 10 < result then none
      else some (result * 10 + (ch - 48).toUInt64) := by
    rw [wordRound, hrange]
  rw [hround]
  by_cases hch : isDigit ch
  · rw [if_neg (by simp [hch])]
    by_cases hfits : result.toNat * 10 + digit ch < 2 ^ 64
    · rw [if_neg (by rw [guard_iff hch]; omega), if_pos ⟨hch, hfits⟩]
    · rw [if_pos (by rw [guard_iff hch]; omega), if_neg (fun h => hfits h.2)]
  · rw [if_pos (by simp [hch]), if_neg (by simp [hch])]

/-- A round is taken exactly when its sum fits, and then neither operation wraps. -/
theorem wordRound_eq_some {result next : UInt64} {ch : UInt8} :
    wordRound result ch = some next ↔
      isDigit ch ∧ result.toNat * 10 + digit ch < 2 ^ 64 ∧
        next.toNat = result.toNat * 10 + digit ch := by
  rw [wordRound_eq]
  by_cases h : isDigit ch ∧ result.toNat * 10 + digit ch < 2 ^ 64
  · rw [if_pos h, Option.some.injEq, ← UInt64.toNat_inj, toNat_round h.1 h.2]
    constructor
    · intro hnext
      exact ⟨h.1, h.2, hnext.symm⟩
    · intro hnext
      exact hnext.2.2.symm
  · rw [if_neg h]
    constructor
    · intro hnext
      cases hnext
    · intro hnext
      exact absurd ⟨hnext.1, hnext.2.1⟩ h

theorem foldlM_snoc (s : Bytes) (ch : UInt8) (result : UInt64) :
    (s ++ [ch]).foldlM wordRound result = (s.foldlM wordRound result).bind (wordRound · ch) := by
  rw [List.foldlM_append]
  cases s.foldlM wordRound result with
  | none => rfl
  | some next => simp [List.foldlM_cons]

theorem foldlM_wordRound (s : Bytes) (v : UInt64) :
    s.foldlM wordRound 0 = some v ↔ (∀ c ∈ s, isDigit c) ∧ denoted s = v.toNat := by
  induction s using List.reverseRecOn generalizing v with
  | nil =>
    simp only [List.foldlM_nil, List.not_mem_nil, false_implies, implies_true, true_and]
    rw [Option.pure_def, Option.some.injEq, ← UInt64.toNat_inj]
    exact Iff.rfl
  | append_singleton s ch ih =>
    have hall : (∀ c ∈ s ++ [ch], isDigit c) ↔ (∀ c ∈ s, isDigit c) ∧ isDigit ch := by
      simp only [List.forall_mem_append, List.forall_mem_singleton]
    rw [foldlM_snoc, Option.bind_eq_some_iff, denoted_snoc, hall]
    constructor
    · rintro ⟨result, hs, hround⟩
      obtain ⟨hdigits, hvalue⟩ := (ih result).mp hs
      obtain ⟨hch, -, hnext⟩ := wordRound_eq_some.mp hround
      exact ⟨⟨hdigits, hch⟩, by rw [hvalue, hnext]⟩
    · rintro ⟨⟨hdigits, hch⟩, hvalue⟩
      have hv := v.toNat_lt
      have hs : (UInt64.ofNat (denoted s)).toNat = denoted s :=
        UInt64.toNat_ofNat_of_lt' (by rw [UInt64.size]; omega)
      refine ⟨UInt64.ofNat (denoted s), (ih _).mpr ⟨hdigits, hs.symm⟩, ?_⟩
      rw [wordRound_eq_some, hs]
      exact ⟨hch, by omega, hvalue.symm⟩

/-- The unbounded loop takes the same rounds. -/
theorem round_eq (result : UInt64) (ch : UInt8) :
    (if !isDigit ch || (2 ^ 64 - 1 - (ch.toNat - 48)) / 10 < result.toNat then none
      else some (result.toNat * 10 + (ch.toNat - 48))) =
        (wordRound result ch).map UInt64.toNat := by
  rw [wordRound_eq]
  by_cases h : isDigit ch ∧ result.toNat * 10 + digit ch < 2 ^ 64
  · have hsum := toNat_round h.1 h.2
    have hguard : (!isDigit ch || (2 ^ 64 - 1 - digit ch) / 10 < result.toNat) = false := by
      simp only [h.1, Bool.not_true, Bool.false_or, decide_eq_false_iff_not]
      omega
    rw [if_pos h, Option.map_some, hsum]
    exact if_neg (by rw [← digit, hguard]; decide)
  · have hguard : (!isDigit ch || (2 ^ 64 - 1 - digit ch) / 10 < result.toNat) = true := by
      by_cases hch : isDigit ch
      · have hlt := digit_lt hch
        simp only [hch, true_and] at h
        simp only [hch, Bool.not_true, Bool.false_or, decide_eq_true_eq]
        omega
      · simp [hch]
    rw [if_neg h, Option.map_none]
    exact if_pos hguard

theorem parseUnsigned_eq (s : Bytes) :
    parseUnsigned s = (parseUnsignedWord s).map UInt64.toNat := by
  rw [parseUnsigned, parseUnsignedWord]
  by_cases hs : s = []
  · rw [if_pos hs, if_pos hs, Option.map_none]
  · rw [if_neg hs, if_neg hs]
    clear hs
    induction s using List.reverseRecOn with
    | nil => rfl
    | append_singleton s ch ih =>
      rw [foldlM_snoc, List.foldlM_append, ih]
      cases s.foldlM wordRound 0 with
      | none => rfl
      | some result =>
        rw [Option.map_some, Option.bind_some, ← round_eq, Option.bind_eq_bind, Option.bind_some,
          List.foldlM_cons]
        simp only [List.foldlM_nil, bind_pure]

theorem parseUnsignedWord_eq_some (s : Bytes) (v : UInt64) :
    parseUnsignedWord s = some v ↔ s ≠ [] ∧ (∀ c ∈ s, isDigit c) ∧ denoted s = v.toNat := by
  rw [parseUnsignedWord]
  by_cases hs : s = []
  · simp [hs]
  · rw [if_neg hs, foldlM_wordRound]
    constructor
    · intro h
      exact ⟨hs, h⟩
    · intro h
      exact h.2

theorem parseUnsigned_eq_some (s : Bytes) (v : ℕ) :
    parseUnsigned s = some v ↔
      s ≠ [] ∧ (∀ c ∈ s, isDigit c) ∧ denoted s = v ∧ v ≤ 2 ^ 64 - 1 := by
  rw [parseUnsigned_eq, Option.map_eq_some_iff]
  constructor
  · rintro ⟨word, hword, rfl⟩
    obtain ⟨hs, hdigits, hvalue⟩ := (parseUnsignedWord_eq_some s word).mp hword
    exact ⟨hs, hdigits, hvalue, Nat.le_sub_one_of_lt word.toNat_lt⟩
  · rintro ⟨hs, hdigits, rfl, hle⟩
    have hword : (UInt64.ofNat (denoted s)).toNat = denoted s :=
      UInt64.toNat_ofNat_of_lt' (by rw [UInt64.size]; omega)
    exact ⟨_, (parseUnsignedWord_eq_some s _).mpr ⟨hs, hdigits, hword.symm⟩, hword⟩

/-- The text is accepted exactly for what it denotes, and every round that the loop takes multiplies
and adds below the bound. -/
theorem parseUnsigned_exact (s : Bytes) :
    (∀ v, parseUnsigned s = some v ↔
      s ≠ [] ∧ (∀ c ∈ s, isDigit c) ∧ denoted s = v ∧ v ≤ 2 ^ 64 - 1) ∧
    parseUnsigned s = (parseUnsignedWord s).map UInt64.toNat ∧
    ∀ front ch back result next, s = front ++ ch :: back → front.foldlM wordRound 0 = some result →
      wordRound result ch = some next →
        result.toNat * 10 < 2 ^ 64 ∧ result.toNat * 10 + digit ch < 2 ^ 64 := by
  refine ⟨parseUnsigned_eq_some s, parseUnsigned_eq s, ?_⟩
  intro front ch back result next hs hfront hround
  obtain ⟨-, hfits, -⟩ := wordRound_eq_some.mp hround
  exact ⟨by omega, hfits⟩

/-- The largest number, also after zeros, and the one above it. -/
example : parseUnsignedWord (ascii "00018446744073709551615") = some 18446744073709551615 ∧
    parseUnsignedWord (ascii "18446744073709551616") = none := by decide

end UnsignedTexts
