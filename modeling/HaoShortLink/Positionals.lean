import Mathlib.Data.List.Basic
import Mathlib.Data.Nat.Digits.Lemmas

/-! Numerals of a fixed length, most significant digit first, and their order. -/
namespace Positionals

/-- The number that digits in base b denote. -/
def value (b : ℕ) (digits : List ℕ) : ℕ := digits.foldl (fun n d => n * b + d) 0

/-- The last k digits of n. -/
def numeral (b : ℕ) : ℕ → ℕ → List ℕ
  | 0, _ => []
  | k + 1, n => numeral b k (n / b) ++ [n % b]

variable {b k n : ℕ} {l m : List ℕ}

@[simp] theorem value_nil (b : ℕ) : value b [] = 0 := rfl

theorem value_snoc (b : ℕ) (l : List ℕ) (d : ℕ) : value b (l ++ [d]) = value b l * b + d := by
  simp [value]

theorem value_eq_ofDigits (b : ℕ) (l : List ℕ) : value b l = Nat.ofDigits b l.reverse := by
  induction l using List.reverseRecOn with
  | nil => rfl
  | append_singleton l d ih =>
    rw [value_snoc, ih, List.reverse_append, List.reverse_singleton, List.singleton_append,
      Nat.ofDigits_cons]
    ring

theorem value_cons (b d : ℕ) (l : List ℕ) : value b (d :: l) = d * b ^ l.length + value b l := by
  rw [value_eq_ofDigits, value_eq_ofDigits, List.reverse_cons, Nat.ofDigits_append,
    Nat.ofDigits_singleton, List.length_reverse]
  ring

theorem value_lt (hb : 1 < b) (h : ∀ d ∈ l, d < b) : value b l < b ^ l.length := by
  rw [value_eq_ofDigits, ← List.length_reverse]
  exact Nat.ofDigits_lt_base_pow_length hb fun d hd => h d (List.mem_reverse.mp hd)

/-- Numerals of one length are ordered as the numbers they denote. -/
theorem lt_iff_value_lt (hb : 1 < b) (hl : ∀ d ∈ l, d < b) (hm : ∀ d ∈ m, d < b)
    (hlength : l.length = m.length) : l < m ↔ value b l < value b m := by
  induction l generalizing m with
  | nil =>
    obtain rfl := List.eq_nil_of_length_eq_zero hlength.symm
    simp
  | cons c l ih =>
    cases m with
    | nil => cases hlength
    | cons d m =>
      have htails : l.length = m.length := Nat.succ.inj hlength
      have hrest : ∀ e ∈ l, e < b := fun e he => hl e (List.mem_cons_of_mem _ he)
      have hrest' : ∀ e ∈ m, e < b := fun e he => hm e (List.mem_cons_of_mem _ he)
      have hvalue := value_lt hb hrest
      have hvalue' := value_lt hb hrest'
      rw [htails] at hvalue
      rw [List.cons_lt_cons_iff, ih hrest hrest' htails, value_cons, value_cons, htails]
      rcases Nat.lt_trichotomy c d with hcd | rfl | hcd
      · have hstep := Nat.mul_le_mul_right (b ^ m.length) (Nat.succ_le_of_lt hcd)
        rw [Nat.succ_mul] at hstep
        exact ⟨fun _ => by omega, fun _ => .inl hcd⟩
      · simp
      · have hstep := Nat.mul_le_mul_right (b ^ m.length) (Nat.succ_le_of_lt hcd)
        rw [Nat.succ_mul] at hstep
        refine ⟨?_, fun h => by omega⟩
        rintro (h | h)
        · omega
        · omega

theorem map_lt_map_iff {α : Type*} [LT α] {f : ℕ → α}
    (hlt : ∀ c < b, ∀ d < b, (f c < f d ↔ c < d)) (heq : ∀ c < b, ∀ d < b, f c = f d → c = d)
    (hl : ∀ d ∈ l, d < b) (hm : ∀ d ∈ m, d < b) : l.map f < m.map f ↔ l < m := by
  induction l generalizing m with
  | nil => cases m <;> simp
  | cons c l ih =>
    cases m with
    | nil => simp
    | cons d m =>
      have hc := hl c List.mem_cons_self
      have hd := hm d List.mem_cons_self
      have hrest := ih (fun e he => hl e (List.mem_cons_of_mem _ he))
        fun e he => hm e (List.mem_cons_of_mem _ he)
      rw [List.map_cons, List.map_cons, List.cons_lt_cons_iff, List.cons_lt_cons_iff,
        hlt c hc d hd, hrest]
      exact or_congr_right (and_congr_left' ⟨heq c hc d hd, congrArg f⟩)

/-- Texts whose first parts have one length are compared part by part. -/
theorem append_lt_append_iff {α : Type*} [LT α] [Std.Irrefl (α := α) (· < ·)] {p q s t : List α}
    (h : p.length = q.length) : p ++ s < q ++ t ↔ p < q ∨ p = q ∧ s < t := by
  induction p generalizing q with
  | nil =>
    obtain rfl := List.eq_nil_of_length_eq_zero h.symm
    simp
  | cons c p ih =>
    cases q with
    | nil => cases h
    | cons d q =>
      rw [List.cons_append, List.cons_append, List.cons_lt_cons_iff, List.cons_lt_cons_iff,
        ih (Nat.succ.inj h), List.cons.injEq]
      tauto

@[simp] theorem length_numeral (b k n : ℕ) : (numeral b k n).length = k := by
  induction k generalizing n with
  | zero => rfl
  | succ k ih => simp [numeral, ih]

theorem numeral_lt (hb : 0 < b) : ∀ d ∈ numeral b k n, d < b := by
  induction k generalizing n with
  | zero => simp [numeral]
  | succ k ih =>
    intro d hd
    rcases List.mem_append.mp hd with hd | hd
    · exact ih d hd
    · rw [List.mem_singleton.mp hd]
      exact Nat.mod_lt n hb

theorem value_numeral (h : n < b ^ k) : value b (numeral b k n) = n := by
  induction k generalizing n with
  | zero => simp_all [numeral]
  | succ k ih =>
    have hdiv : n / b < b ^ k := Nat.div_lt_of_lt_mul (by rwa [← pow_succ'])
    rw [numeral, value_snoc, ih hdiv, Nat.div_add_mod']

theorem numeral_value (hl : ∀ d ∈ l, d < b) : numeral b l.length (value b l) = l := by
  induction l using List.reverseRecOn with
  | nil => rfl
  | append_singleton l d ih =>
    have hd : d < b := hl d (by simp)
    -- the last digit is the remainder and the digits before it are the quotient
    obtain ⟨hdiv, hmod⟩ := (Nat.div_mod_unique (Nat.zero_lt_of_lt hd)).mpr
      ⟨show d + b * value b l = value b l * b + d by ring, hd⟩
    rw [List.length_append, List.length_singleton, numeral, value_snoc, hdiv, hmod,
      ih fun e he => hl e (List.mem_append_left _ he)]

theorem numeral_injOn (hm : n < b ^ k) {n' : ℕ} (hn : n' < b ^ k)
    (h : numeral b k n = numeral b k n') : n = n' := by
  rw [← value_numeral hm, h, value_numeral hn]

theorem numeral_zero (b k : ℕ) : numeral b k 0 = List.replicate k 0 := by
  induction k with
  | zero => rfl
  | succ k ih => rw [numeral, Nat.zero_div, Nat.zero_mod, ih, ← List.replicate_succ']

theorem numeral_eq_map (b k n : ℕ) :
    numeral b k n = (List.range k).map fun i => n / b ^ (k - 1 - i) % b := by
  induction k generalizing n with
  | zero => rfl
  | succ k ih =>
    have hplaces : (List.range k).map (fun i => n / b / b ^ (k - 1 - i) % b) =
        (List.range k).map fun i => n / b ^ (k + 1 - 1 - i) % b := by
      refine List.map_congr_left ?_
      intro i hi
      have hi := List.mem_range.mp hi
      have hplace : k + 1 - 1 - i = k - 1 - i + 1 := by omega
      rw [Nat.div_div_eq_div_mul, hplace, pow_succ']
    rw [numeral, ih, hplaces, List.range_succ, List.map_append, List.map_singleton,
      Nat.add_sub_cancel, Nat.sub_self, pow_zero, Nat.div_one]

theorem replicate_toDigits (hb : 1 < b) (h : n < b ^ (k + 1)) :
    List.replicate (k + 1 - (Nat.toDigits b n).length) '0' ++ Nat.toDigits b n =
      (numeral b (k + 1) n).map Nat.digitChar := by
  induction k generalizing n with
  | zero =>
    rw [Nat.zero_add, pow_one] at h
    rw [Nat.toDigits_of_lt_base h, numeral, numeral, Nat.mod_eq_of_lt h]
    rfl
  | succ k ih =>
    by_cases hlt : n < b
    · have hzeros : (List.replicate (k + 1) 0).map Nat.digitChar = List.replicate (k + 1) '0' := by
        rw [List.map_replicate]
        rfl
      rw [Nat.toDigits_of_lt_base hlt, numeral, Nat.div_eq_of_lt hlt, Nat.mod_eq_of_lt hlt,
        numeral_zero, List.map_append, hzeros]
      rfl
    · have hdiv : n / b < b ^ (k + 1) := Nat.div_lt_of_lt_mul (by rwa [← pow_succ'])
      have hlength : k + 1 + 1 - ((Nat.toDigits b (n / b)).length + 1) =
          k + 1 - (Nat.toDigits b (n / b)).length := by omega
      have hdigits : numeral b (k + 1 + 1) n = numeral b (k + 1) (n / b) ++ [n % b] := rfl
      rw [Nat.toDigits_of_base_le hb (Nat.le_of_not_lt hlt), List.length_append,
        List.length_singleton, hlength, ← List.append_assoc, ih hdiv, hdigits, List.map_append,
        List.map_singleton]

end Positionals
