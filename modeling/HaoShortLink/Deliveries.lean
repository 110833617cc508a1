import Mathlib.Data.Finset.Card
import Mathlib.Data.Finset.Filter
import Mathlib.Data.Finset.Range
import Mathlib.Data.List.Nodup
import Mathlib.Data.List.Pairwise

/-! Messages handed to a client that stores them in a topic later: each at most once, within its
partition in their order, and what became of each is told at most once. -/
namespace Deliveries

inductive Outcome (E : Type) where
  | stored
  | failed (error : E)
  deriving DecidableEq, Repr

/-- Messages are known by their place among those taken. -/
structure Client (M E : Type) where
  taken : List M
  /-- Partition and message, in the order in which they were stored. -/
  topic : List (ℕ × ℕ)
  outcome : ℕ → Option (Outcome E)
  /-- The messages whose outcome was told. -/
  told : Finset ℕ
  stored_taken : ∀ x ∈ topic, x.2 < taken.length
  once : (topic.map Prod.snd).Nodup
  ordered : topic.Pairwise fun x y => x.1 = y.1 → x.2 < y.2
  settled : ∀ i o, outcome i = some o →
    i < taken.length ∧ (o = .stored → i ∈ topic.map Prod.snd)
  told_settled : ∀ i ∈ told, (outcome i).isSome

namespace Client

variable {M E : Type}

def empty : Client M E where
  taken := []
  topic := []
  outcome _ := none
  told := ∅
  stored_taken := by simp
  once := .nil
  ordered := .nil
  settled := by simp
  told_settled := by simp

def take (c : Client M E) (m : M) : Client M E :=
  { c with
    taken := c.taken ++ [m]
    stored_taken := fun x hx => by
      have hlt := c.stored_taken x hx
      rw [List.length_append, List.length_singleton]
      omega
    settled := fun i o ho => by
      obtain ⟨hlt, hstored⟩ := c.settled i o ho
      refine ⟨?_, hstored⟩
      rw [List.length_append, List.length_singleton]
      omega }

/-- A message goes to the end of a partition in which none that was taken later is. -/
def store (c : Client M E) (partition i : ℕ) : Option (Client M E) :=
  if h : i < c.taken.length ∧ i ∉ c.topic.map Prod.snd ∧
      ∀ x ∈ c.topic, x.1 = partition → x.2 < i then
    some { c with
      topic := c.topic ++ [(partition, i)]
      stored_taken := fun x hx => by
        rcases List.mem_append.mp hx with hx | hx
        · exact c.stored_taken x hx
        · obtain rfl := List.mem_singleton.mp hx
          exact h.1
      once := by
        rw [List.map_append, List.nodup_append]
        refine ⟨c.once, List.nodup_singleton _, ?_⟩
        rintro j hj k hk rfl
        obtain rfl := List.mem_singleton.mp hk
        exact h.2.1 hj
      ordered := by
        rw [List.pairwise_append]
        refine ⟨c.ordered, List.pairwise_singleton _ _, ?_⟩
        intro x hx y hy
        obtain rfl := List.mem_singleton.mp hy
        exact h.2.2 x hx
      settled := fun j o ho => by
        obtain ⟨hlt, hstored⟩ := c.settled j o ho
        refine ⟨hlt, fun heq => ?_⟩
        rw [List.map_append]
        exact List.mem_append_left _ (hstored heq) }
  else none

/-- Only of what is in the topic it is known that it was stored. -/
def settle (c : Client M E) (i : ℕ) (o : Outcome E) [Decidable (o = .stored)] :
    Option (Client M E) :=
  if h : i < c.taken.length ∧ c.outcome i = none ∧ (o = .stored → i ∈ c.topic.map Prod.snd) then
    some { c with
      outcome := Function.update c.outcome i (some o)
      settled := fun j o' ho' => by
        by_cases hj : j = i
        · subst hj
          rw [Function.update_self] at ho'
          obtain rfl := Option.some.inj ho'
          exact ⟨h.1, h.2.2⟩
        · rw [Function.update_of_ne hj] at ho'
          exact c.settled j o' ho'
      told_settled := fun j hj => by
        by_cases hji : j = i
        · subst hji
          rw [Function.update_self]
          rfl
        · rw [Function.update_of_ne hji]
          exact c.told_settled j hj }
  else none

/-- What has no outcome yet has failed. -/
def purge (c : Client M E) (error : ℕ → E) : Client M E :=
  { c with
    outcome := fun i =>
      if i < c.taken.length then (c.outcome i).or (some (.failed (error i))) else none
    settled := fun i o ho => by
      by_cases hi : i < c.taken.length
      · refine ⟨hi, ?_⟩
        rintro rfl
        rw [if_pos hi] at ho
        cases houtcome : c.outcome i with
        | none =>
          rw [houtcome] at ho
          cases ho
        | some o =>
          rw [houtcome] at ho
          obtain rfl := Option.some.inj ho
          exact (c.settled i _ houtcome).2 rfl
      · rw [if_neg hi] at ho
        cases ho
    told_settled := fun i hi => by
      obtain ⟨o, ho⟩ := Option.isSome_iff_exists.mp (c.told_settled i hi)
      rw [if_pos (c.settled i o ho).1, ho]
      rfl }

def tell (c : Client M E) (i : ℕ) : Option (Outcome E × Client M E) :=
  match h : c.outcome i with
  | some o =>
    if i ∈ c.told then none
    else some (o, { c with
      told := insert i c.told
      told_settled := fun j hj => by
        rcases Finset.mem_insert.mp hj with rfl | hj
        · rw [h]
          rfl
        · exact c.told_settled j hj })
  | none => none

def outstanding (c : Client M E) : ℕ := c.taken.length - c.told.card

variable [DecidableEq E] (c : Client M E)

def succeeded : Finset ℕ := c.told.filter fun i => c.outcome i = some .stored
def failed : Finset ℕ := c.told.filter fun i => c.outcome i ≠ some .stored

def log (partition : ℕ) : List M :=
  (c.topic.filter fun x => x.1 = partition).filterMap fun x => c.taken[x.2]?

omit [DecidableEq E] in
theorem told_lt {i : ℕ} (hi : i ∈ c.told) : i < c.taken.length := by
  obtain ⟨o, ho⟩ := Option.isSome_iff_exists.mp (c.told_settled i hi)
  exact (c.settled i o ho).1

omit [DecidableEq E] in
theorem told_card_le : c.told.card ≤ c.taken.length := by
  have hsub : c.told ⊆ Finset.range c.taken.length := fun i hi =>
    Finset.mem_range.mpr (c.told_lt hi)
  simpa using Finset.card_le_card hsub

theorem card_told : c.succeeded.card + c.failed.card = c.told.card :=
  Finset.card_filter_add_card_filter_not _

theorem accounted : c.succeeded.card + c.failed.card + c.outstanding = c.taken.length := by
  rw [card_told, outstanding]
  have hle := c.told_card_le
  omega

omit [DecidableEq E] in
theorem told_of_outstanding (h : c.outstanding = 0) {i : ℕ} (hi : i < c.taken.length) :
    i ∈ c.told := by
  have hsub : c.told ⊆ Finset.range c.taken.length := fun j hj =>
    Finset.mem_range.mpr (c.told_lt hj)
  have hcard : (Finset.range c.taken.length).card ≤ c.told.card := by
    rw [Finset.card_range]
    rw [outstanding] at h
    omega
  rw [Finset.eq_of_subset_of_card_le hsub hcard]
  exact Finset.mem_range.mpr hi

theorem succeeded_stored {i : ℕ} (hi : i ∈ c.succeeded) : i ∈ c.topic.map Prod.snd :=
  (c.settled i _ (Finset.mem_filter.mp hi).2).2 rfl

omit [DecidableEq E] in
theorem topic_length_le : c.topic.length ≤ c.taken.length := by
  have hsub : (c.topic.map Prod.snd).toFinset ⊆ Finset.range c.taken.length := by
    intro i hi
    obtain ⟨x, hx, rfl⟩ := List.mem_map.mp (List.mem_toFinset.mp hi)
    exact Finset.mem_range.mpr (c.stored_taken x hx)
  have hle := Finset.card_le_card hsub
  rwa [List.toFinset_card_of_nodup c.once, List.length_map, Finset.card_range] at hle

theorem succeeded_card_le : c.succeeded.card ≤ c.topic.length := by
  have hsub : c.succeeded ⊆ (c.topic.map Prod.snd).toFinset := fun i hi =>
    List.mem_toFinset.mpr (c.succeeded_stored hi)
  have hle := Finset.card_le_card hsub
  rwa [List.toFinset_card_of_nodup c.once, List.length_map] at hle

theorem filterMap_getElem_sublist {l : List M} {places : List ℕ} (h : places.Pairwise (· < ·))
    (hlt : ∀ i ∈ places, i < l.length) : (places.filterMap fun i => l[i]?).Sublist l := by
  have hplaces : (places.filterMap fun i => l[i]?) =
      (places.attach.map fun i => (⟨i.1, hlt i.1 i.2⟩ : Fin l.length)).map fun i => l[i] := by
    rw [List.map_map]
    conv_lhs => rw [← List.attach_map_subtype_val places, List.filterMap_map]
    rw [← List.filterMap_eq_map]
    apply List.filterMap_congr
    rintro ⟨i, hi⟩ -
    simp [hlt i hi]
  rw [hplaces]
  apply List.map_getElem_sublist
  rw [List.pairwise_map]
  rw [← List.attach_map_subtype_val places, List.pairwise_map] at h
  exact h

omit [DecidableEq E] in
/-- A partition holds messages that were taken, each once and in their order. -/
theorem log_sublist (partition : ℕ) : (c.log partition).Sublist c.taken := by
  have hlog : c.log partition =
      ((c.topic.filter fun x => x.1 = partition).map Prod.snd).filterMap fun i => c.taken[i]? := by
    rw [log, List.filterMap_map]
    rfl
  rw [hlog]
  apply filterMap_getElem_sublist
  · rw [List.pairwise_map, List.pairwise_filter]
    apply c.ordered.imp
    intro x y hxy hx hy
    apply hxy
    rw [decide_eq_true_eq] at hx hy
    rw [hx, hy]
  · intro i hi
    obtain ⟨x, hx, rfl⟩ := List.mem_map.mp hi
    exact c.stored_taken x (List.mem_filter.mp hx).1

variable {c} {c' : Client M E} {i partition : ℕ} {o : Outcome E}

theorem tallies_congr (htold : c'.told = c.told)
    (houtcome : ∀ i ∈ c.told, c'.outcome i = c.outcome i) :
    c'.succeeded = c.succeeded ∧ c'.failed = c.failed := by
  constructor
  · rw [succeeded, succeeded, htold]
    exact Finset.filter_congr fun i hi => by rw [houtcome i hi]
  · rw [failed, failed, htold]
    exact Finset.filter_congr fun i hi => by rw [houtcome i hi]

omit [DecidableEq E] in
theorem store_eq (h : c.store partition i = some c') :
    c'.taken = c.taken ∧ c'.told = c.told ∧ c'.outcome = c.outcome := by
  rw [store] at h
  split_ifs at h
  obtain rfl := Option.some.inj h
  exact ⟨rfl, rfl, rfl⟩

theorem settle_eq (h : c.settle i o = some c') : c'.taken = c.taken ∧ c'.topic = c.topic ∧
    c'.told = c.told ∧ ∀ j ∈ c.told, c'.outcome j = c.outcome j := by
  rw [settle] at h
  split_ifs at h with hi
  obtain rfl := Option.some.inj h
  refine ⟨rfl, rfl, rfl, ?_⟩
  intro j hj
  refine Function.update_of_ne ?_ _ _
  rintro rfl
  have hsome := c.told_settled j hj
  rw [hi.2.1] at hsome
  cases hsome

omit [DecidableEq E] in
theorem purge_outcome (error : ℕ → E) (h : i ∈ c.told) :
    (c.purge error).outcome i = c.outcome i := by
  obtain ⟨o, ho⟩ := Option.isSome_iff_exists.mp (c.told_settled i h)
  rw [purge]
  dsimp only
  rw [if_pos (c.settled i o ho).1, ho]
  rfl

theorem tell_eq (h : c.tell i = some (o, c')) : c'.taken = c.taken ∧ c'.topic = c.topic ∧
    c'.succeeded.card = c.succeeded.card + (if o = .stored then 1 else 0) ∧
    c'.failed.card = c.failed.card + (if o = .stored then 0 else 1) := by
  rw [tell] at h
  split at h
  · next o' ho =>
    split_ifs at h with hi
    obtain ⟨rfl, rfl⟩ := Prod.mk.inj (Option.some.inj h)
    refine ⟨rfl, rfl, ?_, ?_⟩
    · simp only [succeeded, Finset.filter_insert, ho, Option.some.injEq]
      split_ifs
      · rw [Finset.card_insert_of_notMem fun hmem => hi (Finset.mem_filter.mp hmem).1]
      · rfl
    · simp only [failed, Finset.filter_insert, ho, ne_eq, Option.some.injEq]
      by_cases hstored : o' = .stored
      · rw [if_neg (not_not.mpr hstored), if_pos hstored, Nat.add_zero]
      · rw [if_pos hstored, if_neg hstored,
          Finset.card_insert_of_notMem fun hmem => hi (Finset.mem_filter.mp hmem).1]
  · cases h

end Client

end Deliveries
