import Mathlib.Data.List.Forall2
import Mathlib.Data.Set.Basic
import Mathlib.Order.Basic

/-! Reading a changing set of keys page by page, each page from the last key of the one before. -/
namespace CursorPages

variable {K : Type} [LinearOrder K]

/-- The least keys of S above the cursor, in order, and the last of them where S has more. -/
structure IsPage (S : Set K) (cursor : K) (page : List K) (next : Option K) : Prop where
  sorted : page.Pairwise (· < ·)
  sound : ∀ k ∈ page, k ∈ S ∧ cursor < k
  all : next = none → ∀ k ∈ S, cursor < k → k ∈ page
  last : ∀ c, next = some c → page.getLast? = some c ∧ ∃ k ∈ S, c < k
  upTo : ∀ c, next = some c → ∀ k ∈ S, cursor < k → k ≤ c → k ∈ page

/-- What has been read once the next page starts at the cursor, or once there is none. The keys
in always have been in every set so far. -/
structure Scanned (start : K) (always : Set K) (cursor : Option K) (seen : List K) : Prop where
  sorted : seen.Pairwise (· < ·)
  below : ∀ c, cursor = some c → ∀ k ∈ seen, k ≤ c
  reached : ∀ c, cursor = some c → c = start ∨ c ∈ seen
  complete : ∀ k ∈ always, (∀ c, cursor = some c → k ≤ c) → k ∈ seen

variable {S always always' : Set K} {start c₀ : K} {ks seen : List K} {next : Option K}

theorem scanned_start (h : ∀ k ∈ always, start < k) : Scanned start always (some start) [] where
  sorted := .nil
  below _ _ _ hk := by cases hk
  reached _ hc := .inl (Option.some.inj hc).symm
  complete k hk hle := absurd (hle start rfl) (not_le.mpr (h k hk))

theorem Scanned.mono {cursor : Option K} (h : Scanned start always cursor seen)
    (hsub : ∀ k ∈ always', k ∈ always) : Scanned start always' cursor seen where
  sorted := h.sorted
  below := h.below
  reached := h.reached
  complete k hk := h.complete k (hsub k hk)

theorem Scanned.page (h : Scanned start always (some c₀) seen) (hpage : IsPage S c₀ ks next)
    (hS : ∀ k ∈ always, k ∈ S) : Scanned start always next (seen ++ ks) where
  sorted := by
    refine List.pairwise_append.mpr ⟨h.sorted, hpage.sorted, ?_⟩
    intro k hk k' hk'
    exact (h.below c₀ rfl k hk).trans_lt (hpage.sound k' hk').2
  below c hc k hk := by
    obtain ⟨before, rfl⟩ := List.getLast?_eq_some_iff.mp (hpage.last c hc).1
    rcases List.mem_append.mp hk with hk | hk
    · exact (h.below c₀ rfl k hk).trans (hpage.sound c (by simp)).2.le
    · rcases List.mem_append.mp hk with hk | hk
      · exact ((List.pairwise_append.mp hpage.sorted).2.2 k hk c (by simp)).le
      · exact (List.mem_singleton.mp hk).le
  reached c hc := .inr (List.mem_append_right _ (List.mem_of_getLast? (hpage.last c hc).1))
  complete k hk hle := by
    by_cases hold : k ≤ c₀
    · refine List.mem_append_left _ (h.complete k hk ?_)
      intro c hc
      rw [← Option.some.inj hc]
      exact hold
    · apply List.mem_append_right _
      cases hnext : next with
      | none => exact hpage.all hnext k (hS k hk) (not_le.mp hold)
      | some c => exact hpage.upTo c hnext k (hS k hk) (not_le.mp hold) (hle c hnext)

/-- The last page is the one after which nothing is left. -/
theorem next_none_iff (h : Scanned start always (some c₀) seen) (hpage : IsPage S c₀ ks next)
    (hstart : ∀ k ∈ S, start < k) : next = none ↔ ¬ ∃ k ∈ S, ∀ k' ∈ seen ++ ks, k' < k := by
  constructor
  · rintro hnone ⟨k, hk, hlt⟩
    have habove : c₀ < k := by
      rcases h.reached c₀ rfl with rfl | hseen
      · exact hstart k hk
      · exact hlt c₀ (List.mem_append_left _ hseen)
    exact lt_irrefl k (hlt k (List.mem_append_right _ (hpage.all hnone k hk habove)))
  · intro hno
    by_contra hsome
    obtain ⟨c, hc⟩ := Option.ne_none_iff_exists'.mp hsome
    obtain ⟨_, k, hk, hlt⟩ := hpage.last c hc
    have hnone : Scanned start ∅ (some c₀) seen := h.mono (by simp)
    have hbelow := (hnone.page hpage (by simp)).below c hc
    exact hno ⟨k, hk, fun k' hk' => (hbelow k' hk').trans_lt hlt⟩

theorem lt_of_mem_drop {l : List K} {n : ℕ} (h : l.Pairwise (· < ·)) {k k' : K}
    (hk : k ∈ l.take n) (hk' : k' ∈ l.drop n) : k < k' := by
  rw [← List.take_append_drop n l] at h
  exact (List.pairwise_append.mp h).2.2 k hk k' hk'

/-- The first keys of a sorted list, where the list has just those above the cursor. -/
theorem isPage_take {l : List K} {limit : ℕ} (hsorted : l.Pairwise (· < ·))
    (hl : ∀ k, k ∈ l ↔ k ∈ S ∧ c₀ < k) (hlimit : 0 < limit) :
    IsPage S c₀ (l.take limit)
      (if limit < l.length then (l.take limit).getLast? else none) where
  sorted := hsorted.sublist (List.take_sublist _ _)
  sound k hk := (hl k).mp (List.mem_of_mem_take hk)
  all hnone k hk habove := by
    have hle : l.length ≤ limit := by
      by_contra hmore
      rw [if_pos (not_le.mp hmore), List.getLast?_eq_none_iff, List.take_eq_nil_iff] at hnone
      rcases hnone with hzero | hnil
      · exact hlimit.ne' hzero
      · simp [hnil] at hmore
    rw [List.take_of_length_le hle]
    exact (hl k).mpr ⟨hk, habove⟩
  last c hc := by
    by_cases hmore : limit < l.length
    · rw [if_pos hmore] at hc
      have hdrop : l.drop limit ≠ [] := by simpa using hmore
      obtain ⟨k, hk⟩ := List.exists_mem_of_ne_nil _ hdrop
      exact ⟨hc, k, ((hl k).mp (List.mem_of_mem_drop hk)).1,
        lt_of_mem_drop hsorted (List.mem_of_getLast? hc) hk⟩
    · rw [if_neg hmore] at hc
      cases hc
  upTo c hc k hk habove hle := by
    have hk' := (hl k).mpr ⟨hk, habove⟩
    rw [← List.take_append_drop limit l] at hk'
    rcases List.mem_append.mp hk' with htake | hdrop
    · exact htake
    · by_cases hmore : limit < l.length
      · rw [if_pos hmore] at hc
        exact absurd (lt_of_mem_drop hsorted (List.mem_of_getLast? hc) hdrop) (not_lt.mpr hle)
      · rw [if_neg hmore] at hc
        cases hc

theorem forall₂_of_sorted {A B : Type} {R : A → B → Prop} {key : A → K} {key' : B → K}
    (hR : ∀ a b, R a b → key a = key' b) {l : List A} {l' : List B}
    (hl : l.Pairwise fun a b => key a < key b) (hl' : l'.Pairwise fun a b => key' a < key' b)
    (hleft : ∀ a ∈ l, ∃ b ∈ l', R a b) (hright : ∀ b ∈ l', ∃ a ∈ l, R a b) :
    List.Forall₂ R l l' := by
  induction l generalizing l' with
  | nil =>
    cases l' with
    | nil => exact .nil
    | cons b l' =>
      obtain ⟨a, ha, -⟩ := hright b List.mem_cons_self
      cases ha
  | cons a l ih =>
    cases l' with
    | nil =>
      obtain ⟨b, hb, -⟩ := hleft a List.mem_cons_self
      cases hb
    | cons b l' =>
      obtain ⟨hfirst, hl⟩ := List.pairwise_cons.mp hl
      obtain ⟨hfirst', hl'⟩ := List.pairwise_cons.mp hl'
      -- neither head can match behind the other
      have hheads : R a b := by
        obtain ⟨b₁, hb₁, hab₁⟩ := hleft a List.mem_cons_self
        obtain ⟨a₁, ha₁, hab⟩ := hright b List.mem_cons_self
        rcases List.mem_cons.mp hb₁ with rfl | hb₁
        · exact hab₁
        rcases List.mem_cons.mp ha₁ with rfl | ha₁
        · exact hab
        have hlt := hfirst' b₁ hb₁
        have hlt' := hfirst a₁ ha₁
        rw [← hR _ _ hab₁, ← hR _ _ hab] at hlt
        exact absurd hlt (not_lt.mpr hlt'.le)
      have hkey := hR _ _ hheads
      apply List.Forall₂.cons hheads
      apply ih hl hl'
      · intro a₁ ha₁
        obtain ⟨b₁, hb₁, hab⟩ := hleft a₁ (List.mem_cons_of_mem _ ha₁)
        rcases List.mem_cons.mp hb₁ with rfl | hb₁
        · exact absurd (hfirst a₁ ha₁) (by rw [hkey, hR _ _ hab]; exact lt_irrefl _)
        · exact ⟨b₁, hb₁, hab⟩
      · intro b₁ hb₁
        obtain ⟨a₁, ha₁, hab⟩ := hright b₁ (List.mem_cons_of_mem _ hb₁)
        rcases List.mem_cons.mp ha₁ with rfl | ha₁
        · exact absurd (hfirst' b₁ hb₁) (by rw [← hkey, hR _ _ hab]; exact lt_irrefl _)
        · exact ⟨a₁, ha₁, hab⟩

end CursorPages
