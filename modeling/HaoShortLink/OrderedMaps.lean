import Mathlib.Data.List.Basic

/-! Maps that are iterated in key order, as std::map is. -/
namespace OrderedMaps

structure OrderedMap (K V : Type) [LT K] where
  entries : List (K × V)
  sorted : entries.Pairwise fun a b => a.1 < b.1
  deriving DecidableEq

variable {K V : Type} [LT K] [DecidableLT K] [DecidableEq K]

def insertEntry (k : K) (v : V) : List (K × V) → List (K × V)
  | [] => [(k, v)]
  | (k', v') :: l =>
    if k < k' then (k, v) :: (k', v') :: l
    else if k = k' then (k, v) :: l
    else (k', v') :: insertEntry k v l

def findEntry (k : K) (l : List (K × V)) : Option V := (l.find? (·.1 == k)).map Prod.snd

theorem mem_insertEntry {k : K} {v : V} {l : List (K × V)} {e : K × V}
    (h : e ∈ insertEntry k v l) : e = (k, v) ∨ e ∈ l := by
  induction l with
  | nil => simpa [insertEntry] using h
  | cons a l ih =>
    simp only [insertEntry] at h
    split at h
    · simpa using h
    · split at h
      · exact (List.mem_cons.mp h).imp_right (List.mem_cons_of_mem _)
      · rcases List.mem_cons.mp h with rfl | h
        · exact .inr List.mem_cons_self
        · exact (ih h).imp_right (List.mem_cons_of_mem _)

omit [LT K] [DecidableLT K] in
theorem findEntry_cons (k : K) (a : K × V) (l : List (K × V)) :
    findEntry k (a :: l) = if k = a.1 then some a.2 else findEntry k l := by
  by_cases h : a.1 = k
  · subst h
    simp [findEntry]
  · simp [findEntry, h, Ne.symm h]

theorem find_insertEntry (k k' : K) (v : V) (l : List (K × V)) :
    findEntry k' (insertEntry k v l) = if k' = k then some v else findEntry k' l := by
  induction l with
  | nil => exact findEntry_cons k' (k, v) []
  | cons a l ih =>
    simp only [insertEntry]
    split
    · exact findEntry_cons k' (k, v) (a :: l)
    · split
      · next heq =>
        subst heq
        rw [findEntry_cons, findEntry_cons]
        split <;> rfl
      · next hne =>
        rw [findEntry_cons, findEntry_cons, ih]
        by_cases heq : k' = a.1
        · subst heq
          rw [if_pos rfl, if_neg (Ne.symm hne), if_pos rfl]
        · rw [if_neg heq, if_neg heq]

namespace OrderedMap

def empty : OrderedMap K V := ⟨[], .nil⟩

def find? (m : OrderedMap K V) (k : K) : Option V := findEntry k m.entries

variable [Trans (α := K) (· < ·) (· < ·) (· < ·)] [Std.Trichotomous (α := K) (· < ·)]

omit [DecidableEq K] in
theorem insertEntry_sorted [DecidableEq K] {k : K} {v : V} {l : List (K × V)}
    (h : l.Pairwise fun a b => a.1 < b.1) :
    (insertEntry k v l).Pairwise fun a b => a.1 < b.1 := by
  induction l with
  | nil => simp [insertEntry]
  | cons a l ih =>
    obtain ⟨ha, hl⟩ := List.pairwise_cons.mp h
    simp only [insertEntry]
    split
    · next hlt =>
      refine List.pairwise_cons.mpr ⟨?_, h⟩
      intro e he
      rcases List.mem_cons.mp he with rfl | he
      · exact hlt
      · exact Trans.trans hlt (ha e he)
    · next hnlt =>
      split
      · next heq =>
        subst heq
        exact List.pairwise_cons.mpr ⟨ha, hl⟩
      · next hne =>
        refine List.pairwise_cons.mpr ⟨?_, ih hl⟩
        intro e he
        rcases mem_insertEntry he with rfl | he
        · by_contra hnot
          exact hne (Std.Trichotomous.trichotomous _ _ hnlt hnot)
        · exact ha e he

/-- operator[] followed by an assignment. -/
def insert (m : OrderedMap K V) (k : K) (v : V) : OrderedMap K V :=
  ⟨insertEntry k v m.entries, insertEntry_sorted m.sorted⟩

theorem find?_insert (m : OrderedMap K V) (k k' : K) (v : V) :
    (m.insert k v).find? k' = if k' = k then some v else m.find? k' :=
  find_insertEntry k k' v m.entries

omit [DecidableLT K] [Trans (α := K) (· < ·) (· < ·) (· < ·)]
  [Std.Trichotomous (α := K) (· < ·)] in
/-- No key has two entries, so iterating and looking up see the same. -/
theorem mem_entries [Std.Irrefl (α := K) (· < ·)] {m : OrderedMap K V} {k : K} {v : V} :
    (k, v) ∈ m.entries ↔ m.find? k = some v := by
  obtain ⟨l, hl⟩ := m
  rw [find?]
  dsimp only
  induction l with
  | nil => simp [findEntry]
  | cons a l ih =>
    obtain ⟨ha, hl⟩ := List.pairwise_cons.mp hl
    rw [findEntry_cons, List.mem_cons, ih hl]
    by_cases hk : k = a.1
    · subst hk
      have hnot : findEntry a.1 l ≠ some v := by
        intro h
        have hlt := ha _ ((ih hl).mpr h)
        exact Std.Irrefl.irrefl _ hlt
      simp [hnot, Prod.ext_iff, eq_comm]
    · simp [hk, Prod.ext_iff]

end OrderedMap

end OrderedMaps
