import HaoShortLink.HttpRequests

/-! What getHeader answers after any header lines. -/
namespace HeaderLookups

open Cpp HttpRequests
open OrderedMaps (OrderedMap)

/-- A header line, cut at its first ':'. -/
abbrev HeaderLine := Bytes × Bytes

def addHeaders (lines : List HeaderLine) : HttpRequest :=
  lines.foldl (fun request l => request.addHeader l.1 l.2) {}

def fieldValue (l : HeaderLine) : Bytes := (l.2.dropWhile isSpace).rdropWhile isSpace

/-- Equal up to ASCII case. -/
def sameName (f g : Bytes) : Bool := f.map toLower == g.map toLower

def lastValue (lines : List HeaderLine) (p : Bytes → Bool) : Option Bytes :=
  (lines.reverse.find? fun l => p l.1).map fieldValue

/-- However the name is spelled, the last line with that spelling gives the same value. -/
def SpellingsAgree (lines : List HeaderLine) (f : Bytes) : Prop :=
  ∀ k k', sameName f k = true → sameName f k' = true →
    ∀ value value', lastValue lines (· == k) = some value →
      lastValue lines (· == k') = some value' → value = value'

variable {lines : List HeaderLine} {f g : Bytes} {p : Bytes → Bool} {value : Bytes}

theorem lastValue_snoc (l : HeaderLine) : lastValue (lines ++ [l]) p =
    if p l.1 then some (fieldValue l) else lastValue lines p := by
  rw [lastValue, List.reverse_append, List.reverse_singleton, List.singleton_append,
    List.find?_cons]
  cases p l.1 <;> rfl

theorem lastValue_spelling (h : lastValue lines p = some value) :
    ∃ k, p k = true ∧ lastValue lines (· == k) = some value := by
  induction lines using List.reverseRecOn with
  | nil => cases h
  | append_singleton lines l ih =>
    rw [lastValue_snoc] at h
    cases hp : p l.1 with
    | true =>
      rw [hp, if_pos rfl] at h
      refine ⟨l.1, hp, ?_⟩
      rw [lastValue_snoc, if_pos (beq_self_eq_true l.1), h]
    | false =>
      rw [hp] at h
      obtain ⟨k, hk, hlast⟩ := ih h
      have hne : (l.1 == k) = false := by
        apply beq_false_of_ne
        rintro rfl
        rw [hp] at hk
        cases hk
      refine ⟨k, hk, ?_⟩
      rw [lastValue_snoc, hne]
      exact hlast

theorem lastValue_of_spelling {k : Bytes} (hk : p k = true)
    (h : lastValue lines (· == k) = some value) : ∃ value', lastValue lines p = some value' := by
  induction lines using List.reverseRecOn with
  | nil => cases h
  | append_singleton lines l ih =>
    rw [lastValue_snoc] at h ⊢
    cases hp : p l.1 with
    | true => exact ⟨_, rfl⟩
    | false =>
      have hne : (l.1 == k) = false := by
        apply beq_false_of_ne
        rintro rfl
        rw [hp] at hk
        cases hk
      rw [hne] at h
      exact ih h

theorem addHeaders_snoc (l : HeaderLine) :
    addHeaders (lines ++ [l]) = (addHeaders lines).addHeader l.1 l.2 := by
  rw [addHeaders, List.foldl_append]
  rfl

theorem find?_addHeaders (lines : List HeaderLine) (k : Bytes) :
    (addHeaders lines).headers.find? k = lastValue lines (· == k) := by
  induction lines using List.reverseRecOn with
  | nil => rfl
  | append_singleton lines l ih =>
    rw [addHeaders_snoc, lastValue_snoc]
    change ((addHeaders lines).headers.insert l.1 (fieldValue l)).find? k = _
    rw [OrderedMap.find?_insert, ih]
    by_cases hk : k = l.1
    · rw [if_pos hk, if_pos (by simp [hk])]
    · rw [if_neg hk, if_neg (by simpa using Ne.symm hk)]

theorem equalsIgnoreCase_comm (k f : Bytes) : HttpRequest.equalsIgnoreCase k f = sameName f k :=
  Bool.beq_comm

theorem getHeader_spelled (h : lastValue lines (· == f) = some value) :
    (addHeaders lines).getHeader f = value := by
  rw [HttpRequest.getHeader, find?_addHeaders, h]

theorem getHeader_cases (lines : List HeaderLine) (f : Bytes) :
    (∃ k, sameName f k = true ∧
      lastValue lines (· == k) = some ((addHeaders lines).getHeader f)) ∨
    (∀ k, sameName f k = true → lastValue lines (· == k) = none) ∧
      (addHeaders lines).getHeader f = [] := by
  cases hexact : lastValue lines (· == f) with
  | some value =>
    refine .inl ⟨f, beq_self_eq_true _, ?_⟩
    rw [hexact, getHeader_spelled hexact]
  | none =>
    have hscan : (addHeaders lines).getHeader f = (((addHeaders lines).headers.entries.find?
        fun h => HttpRequest.equalsIgnoreCase h.1 f).map Prod.snd).getD [] := by
      rw [HttpRequest.getHeader, find?_addHeaders, hexact]
    cases hfound : (addHeaders lines).headers.entries.find?
        fun h => HttpRequest.equalsIgnoreCase h.1 f with
    | some e =>
      have hname := List.find?_some (p := fun h : HeaderLine => HttpRequest.equalsIgnoreCase h.1 f)
        hfound
      have hentry := OrderedMap.mem_entries.mp (List.mem_of_find?_eq_some hfound)
      refine .inl ⟨e.1, ?_, ?_⟩
      · rwa [← equalsIgnoreCase_comm]
      · rw [hscan, hfound, ← find?_addHeaders, hentry]
        rfl
    | none =>
      refine .inr ⟨?_, by rw [hscan, hfound]; rfl⟩
      intro k hk
      cases hlast : lastValue lines (· == k) with
      | none => rfl
      | some value =>
        have hentry := OrderedMap.mem_entries.mpr ((find?_addHeaders lines k).trans hlast)
        have hnot := List.find?_eq_none.mp hfound (k, value) hentry
        rw [equalsIgnoreCase_comm] at hnot
        exact absurd hk hnot

theorem sameName_trans {k : Bytes} (hfg : sameName f g = true) :
    sameName f k = true ↔ sameName g k = true := by
  simp only [sameName, beq_iff_eq] at hfg ⊢
  rw [hfg]

theorem getHeader_of_agree (hagree : SpellingsAgree lines f) (hg : sameName f g = true) :
    (addHeaders lines).getHeader g = (lastValue lines (sameName f)).getD [] := by
  rcases getHeader_cases lines g with ⟨k, hk, hvalue⟩ | ⟨hnone, hempty⟩
  · have hfk := (sameName_trans hg).mpr hk
    obtain ⟨value', hclass⟩ := lastValue_of_spelling hfk hvalue
    obtain ⟨k', hfk', hvalue'⟩ := lastValue_spelling hclass
    rw [hclass]
    exact hagree k k' hfk hfk' _ _ hvalue hvalue'
  · rw [hempty]
    cases hclass : lastValue lines (sameName f) with
    | none => rfl
    | some value =>
      obtain ⟨k, hfk, hvalue⟩ := lastValue_spelling hclass
      rw [hnone k ((sameName_trans hg).mp hfk)] at hvalue
      cases hvalue

/-- The spelling of a name makes no difference, and its last line counts, exactly where all the
spellings of it agree. -/
theorem getHeader_ignores_case_iff (lines : List HeaderLine) (f : Bytes) :
    (∀ g, sameName f g = true →
      (addHeaders lines).getHeader f = (addHeaders lines).getHeader g ∧
      (addHeaders lines).getHeader f = (lastValue lines (sameName f)).getD []) ↔
    SpellingsAgree lines f := by
  constructor
  · intro h k k' hk hk' value value' hvalue hvalue'
    have hsame := (h k hk).1.symm.trans (h k' hk').1
    rwa [getHeader_spelled hvalue, getHeader_spelled hvalue'] at hsame
  · intro hagree g hg
    have hf := getHeader_of_agree hagree (beq_self_eq_true (f.map toLower))
    exact ⟨hf.trans (getHeader_of_agree hagree hg).symm, hf⟩

/-- Two lines for one name, and each spelling has its own value. -/
theorem spelling_selects : ¬ ∀ (lines : List HeaderLine) (f g : Bytes), sameName f g = true →
    (addHeaders lines).getHeader f = (addHeaders lines).getHeader g ∧
    (addHeaders lines).getHeader f = (lastValue lines (sameName f)).getD [] := by
  intro h
  have hhost := h [(ascii "Host", ascii "a.example"), (ascii "host", ascii "b.example")]
    (ascii "Host") (ascii "host") (by decide)
  exact absurd hhost.1 (by decide)

theorem lastValue_single {l : HeaderLine} (h : lines.filter (fun l => p l.1) = [l]) :
    lastValue lines p = some (fieldValue l) := by
  rw [lastValue, ← List.head?_filter, List.filter_reverse, h]
  rfl

/-- A line that alone has its name is found under every spelling. -/
theorem getHeader_single {l : HeaderLine} (h : lines.filter (fun l => sameName f l.1) = [l]) :
    (addHeaders lines).getHeader f = fieldValue l := by
  have hspelled : ∀ k value, sameName f k = true → lastValue lines (· == k) = some value →
      value = fieldValue l := by
    intro k value hk hvalue
    obtain ⟨e, he, rfl⟩ := Option.map_eq_some_iff.mp hvalue
    have hname : e.1 = k := by simpa using List.find?_some (p := fun e : HeaderLine => e.1 == k) he
    have hmem : e ∈ lines.filter fun l => sameName f l.1 := by
      apply List.mem_filter.mpr
      constructor
      · exact List.mem_reverse.mp (List.mem_of_find?_eq_some he)
      · rwa [hname]
    rw [h] at hmem
    rw [List.mem_singleton.mp hmem]
  have hagree : SpellingsAgree lines f := by
    intro k k' hk hk' value value' hvalue hvalue'
    exact (hspelled k value hk hvalue).trans (hspelled k' value' hk' hvalue').symm
  rw [getHeader_of_agree hagree (beq_self_eq_true (f.map toLower)), lastValue_single h]
  rfl

end HeaderLookups
