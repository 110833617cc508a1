import Mathlib.Data.Finset.Card
import Mathlib.Order.Interval.Finset.Nat
import Mathlib.Data.List.Induction

/-! Counting in fixed windows: a hit opens a window of a given length when none is open, and the
hits of a window are numbered from one. -/
namespace FixedWindows

structure Hit where
  time : ℤ
  opened : ℤ
  number : ℕ
  deriving DecidableEq, Repr

def hit (length : ℤ) (last : Option Hit) (time : ℤ) : Hit :=
  match last with
  | none => ⟨time, time, 1⟩
  | some h =>
    if time < h.opened + length then ⟨time, h.opened, h.number + 1⟩ else ⟨time, time, 1⟩

inductive Log (length : ℤ) : List Hit → Prop where
  | nil : Log length []
  | snoc {hits time} : Log length hits → (∀ h ∈ hits.getLast?, h.time ≤ time) →
      Log length (hits ++ [hit length hits.getLast? time])

/-- Two hits in order: the same window and growing numbers, or one window after the other. -/
def Precedes (length : ℤ) (a b : Hit) : Prop :=
  a.time ≤ b.time ∧ (a.opened = b.opened ∧ a.number < b.number ∨ a.opened + length ≤ b.opened)

def Hit.Proper (length : ℤ) (h : Hit) : Prop :=
  1 ≤ h.number ∧ h.opened ≤ h.time ∧ h.time < h.opened + length

variable {length : ℤ} {hits : List Hit}

theorem hit_cases (length : ℤ) (last : Option Hit) (time : ℤ) :
    (hit length last time = ⟨time, time, 1⟩ ∧ ∀ h ∈ last, h.opened + length ≤ time) ∨
    ∃ h ∈ last, time < h.opened + length ∧
      hit length last time = ⟨time, h.opened, h.number + 1⟩ := by
  cases last with
  | none => exact .inl ⟨rfl, by simp⟩
  | some h =>
    by_cases hlt : time < h.opened + length
    · exact .inr ⟨h, rfl, hlt, by rw [hit, if_pos hlt]⟩
    · refine .inl ⟨by rw [hit, if_neg hlt], ?_⟩
      rintro h' ⟨⟩
      omega

theorem hit_time (length : ℤ) (last : Option Hit) (time : ℤ) :
    (hit length last time).time = time := by
  rcases hit_cases length last time with ⟨heq, _⟩ | ⟨h, _, _, heq⟩
  · rw [heq]
  · rw [heq]

theorem Log.proper (h : Log length hits) (hlength : 0 < length) :
    ∀ a ∈ hits, a.Proper length := by
  induction h with
  | nil => simp
  | @snoc hits time hlog hle ih =>
    intro a ha
    rcases List.mem_append.mp ha with ha | ha
    · exact ih a ha
    · rw [List.mem_singleton.mp ha]
      rcases hit_cases length hits.getLast? time with ⟨heq, _⟩ | ⟨b, hb, hlt, heq⟩
      · rw [heq]
        exact ⟨Nat.le_refl 1, Int.le_refl _, by simpa using hlength⟩
      · have hproper := ih b (List.mem_of_getLast? hb)
        have hbefore := hle b hb
        rw [heq]
        exact ⟨by simp, Int.le_trans hproper.2.1 hbefore, hlt⟩

theorem Precedes.trans {a b c : Hit} (hlength : 0 < length) (hab : Precedes length a b)
    (hbc : Precedes length b c) : Precedes length a c := by
  obtain ⟨htime, hab⟩ := hab
  obtain ⟨htime', hbc⟩ := hbc
  refine ⟨by omega, ?_⟩
  omega

theorem Log.pairwise (h : Log length hits) (hlength : 0 < length) :
    hits.Pairwise (Precedes length) := by
  induction h with
  | nil => exact .nil
  | @snoc hits time hlog hle ih =>
    refine List.pairwise_append.mpr ⟨ih, List.pairwise_singleton _ _, ?_⟩
    intro a ha b hb
    rw [List.mem_singleton.mp hb]
    have hlast : ∀ c ∈ hits.getLast?, Precedes length c (hit length hits.getLast? time) := by
      intro c hc
      have hbefore := hle c hc
      rcases hit_cases length hits.getLast? time with ⟨heq, hclosed⟩ | ⟨d, hd, hlt, heq⟩
      · have hle := hclosed c hc
        rw [heq]
        exact ⟨hbefore, .inr hle⟩
      · obtain rfl := Option.some.inj (hc.symm.trans hd)
        rw [heq]
        exact ⟨hbefore, .inl ⟨rfl, Nat.lt_succ_self _⟩⟩
    rcases List.eq_nil_or_concat hits with rfl | ⟨before, c, rfl⟩
    · cases ha
    · rw [List.concat_eq_append] at ih ha hlast
      have hc := hlast c (by simp)
      rw [List.concat_eq_append]
      rcases List.mem_append.mp ha with ha | ha
      · have hac := (List.pairwise_append.mp ih).2.2 a ha c (by simp)
        exact hac.trans hlength hc
      · rw [List.mem_singleton.mp ha]
        exact hc

theorem Log.of_snoc {before : List Hit} {a : Hit} (h : Log length (before ++ [a])) :
    Log length before ∧ ∃ time, a = hit length before.getLast? time := by
  generalize heq : before ++ [a] = hits at h
  cases h with
  | nil => simp at heq
  | @snoc hits time hlog hle =>
    obtain ⟨rfl, hlast⟩ := List.append_inj' heq rfl
    exact ⟨hlog, time, List.singleton_inj.mp hlast⟩

theorem Log.of_append {before after : List Hit} (h : Log length (before ++ after)) :
    Log length before := by
  induction after using List.reverseRecOn with
  | nil => simpa using h
  | append_singleton after a ih =>
    rw [← List.append_assoc] at h
    exact ih h.of_snoc.1

/-- The numbers of a window are all there, up to the last. -/
theorem Log.numbered {before after : List Hit} {a : Hit} (h : Log length (before ++ a :: after))
    {number : ℕ} (hpos : 1 ≤ number) (hlt : number < a.number) :
    ∃ b ∈ before, b.opened = a.opened ∧ b.number = number := by
  have hprefix : Log length (before ++ [a]) := by
    rw [List.append_cons] at h
    exact h.of_append
  clear h
  induction before using List.reverseRecOn generalizing a with
  | nil =>
    obtain ⟨_, time, rfl⟩ := hprefix.of_snoc
    simp only [List.getLast?_nil, hit] at hlt
    omega
  | append_singleton before c ih =>
    obtain ⟨hbefore, time, ha⟩ := hprefix.of_snoc
    rcases hit_cases length (before ++ [c]).getLast? time with ⟨heq, _⟩ | ⟨d, hd, _, heq⟩
    · rw [ha, heq] at hlt
      simp only at hlt
      omega
    · rw [List.getLast?_concat] at hd
      obtain rfl := Option.some.inj hd
      rw [ha, heq] at hlt ⊢
      by_cases hlast : number = c.number
      · exact ⟨c, by simp, rfl, hlast.symm⟩
      · simp only at hlt
        obtain ⟨b, hb, hopened, hnumber⟩ := ih (a := c) (by omega) hbefore
        exact ⟨b, List.mem_append_left _ hb, hopened, hnumber⟩

theorem countP_le_add {l : List Hit} {p q r : Hit → Bool} (h : ∀ a ∈ l, p a → q a ∨ r a) :
    l.countP p ≤ l.countP q + l.countP r := by
  induction l with
  | nil => simp
  | cons a l ih =>
    have hrest := ih fun b hb => h b (List.mem_cons_of_mem a hb)
    have ha := h a List.mem_cons_self
    rw [List.countP_cons, List.countP_cons, List.countP_cons]
    by_cases hp : p a
    · rcases ha hp with hq | hr
      · rw [if_pos hp, if_pos hq]
        omega
      · rw [if_pos hp, if_pos hr]
        omega
    · rw [if_neg hp]
      omega

theorem countP_le {p : Hit → Bool} {limit : ℕ} (hpairwise : hits.Pairwise (Precedes length))
    (hproper : ∀ a ∈ hits, a.Proper length)
    (hsame : ∀ a ∈ hits, ∀ b ∈ hits, p a → p b → ¬ a.opened + length ≤ b.opened) :
    hits.countP (fun a => p a && decide (a.number ≤ limit)) ≤ limit := by
  rw [List.countP_eq_length_filter]
  have hmem : ∀ a ∈ hits.filter (fun a => p a && decide (a.number ≤ limit)),
      a ∈ hits ∧ p a ∧ a.number ≤ limit := by
    intro a ha
    simpa [List.mem_filter] using ha
  have hsorted : (hits.filter fun a => p a && decide (a.number ≤ limit)).Pairwise
      fun a b => a.number < b.number := by
    apply (hpairwise.filter _).imp_of_mem
    intro a b ha hb hab
    obtain ⟨ha, hpa, _⟩ := hmem a ha
    obtain ⟨hb, hpb, _⟩ := hmem b hb
    rcases hab.2 with ⟨_, hlt⟩ | hle
    · exact hlt
    · exact absurd hle (hsame a ha b hb hpa hpb)
  have hnodup : ((hits.filter fun a => p a && decide (a.number ≤ limit)).map Hit.number).Nodup :=
    List.pairwise_map.mpr (hsorted.imp Nat.ne_of_lt)
  have hsub : ((hits.filter fun a => p a && decide (a.number ≤ limit)).map Hit.number).toFinset ⊆
      Finset.Icc 1 limit := by
    intro n hn
    obtain ⟨a, ha, rfl⟩ := List.mem_map.mp (List.mem_toFinset.mp hn)
    obtain ⟨ha, _, hle⟩ := hmem a ha
    exact Finset.mem_Icc.mpr ⟨(hproper a ha).1, hle⟩
  have hcard := Finset.card_le_card hsub
  rw [List.toFinset_card_of_nodup hnodup, List.length_map, Nat.card_Icc] at hcard
  omega

/-- A stretch of the length of a window meets at most two windows. -/
theorem Log.countP_stretch_le (h : Log length hits) (hlength : 0 < length) (limit : ℕ) (x : ℤ) :
    hits.countP (fun a => decide (x ≤ a.time ∧ a.time < x + length) && decide (a.number ≤ limit)) ≤
      2 * limit := by
  have hpairwise := h.pairwise hlength
  have hproper := h.proper hlength
  have hold : hits.countP
      (fun a => decide (a.opened < x ∧ x ≤ a.time) && decide (a.number ≤ limit)) ≤ limit := by
    apply countP_le hpairwise hproper
    intro a ha b hb hpa hpb hle
    have htime := (hproper a ha).2.2
    simp only [decide_eq_true_eq] at hpa hpb
    omega
  have hnew : hits.countP (fun a => decide (x ≤ a.opened ∧ a.time < x + length) &&
      decide (a.number ≤ limit)) ≤ limit := by
    apply countP_le hpairwise hproper
    intro a ha b hb hpa hpb hle
    have htime := (hproper b hb).2.1
    simp only [decide_eq_true_eq] at hpa hpb
    omega
  have hsplit := countP_le_add (l := hits)
    (p := fun a => decide (x ≤ a.time ∧ a.time < x + length) && decide (a.number ≤ limit))
    (q := fun a => decide (a.opened < x ∧ x ≤ a.time) && decide (a.number ≤ limit))
    (r := fun a => decide (x ≤ a.opened ∧ a.time < x + length) && decide (a.number ≤ limit)) (by
      intro a _ ha
      simp only [Bool.and_eq_true, decide_eq_true_eq] at ha ⊢
      omega)
  omega

/-- When a number passes the limit, the window has had limit hits before. -/
theorem Log.le_countP {before after : List Hit} {a : Hit} {limit : ℕ}
    (h : Log length (before ++ a :: after)) (hlimit : limit < a.number) :
    limit ≤ before.countP fun b => decide (b.opened = a.opened) && decide (b.number ≤ limit) := by
  have hsub : Finset.Icc 1 limit ⊆ ((before.filter fun b =>
      decide (b.opened = a.opened) && decide (b.number ≤ limit)).map Hit.number).toFinset := by
    intro n hn
    obtain ⟨hpos, hle⟩ := Finset.mem_Icc.mp hn
    obtain ⟨b, hb, hopened, rfl⟩ := h.numbered hpos (by omega)
    rw [List.mem_toFinset]
    exact List.mem_map_of_mem (List.mem_filter.mpr ⟨hb, by simp [hopened, hle]⟩)
  have hcard := Finset.card_le_card hsub
  have hle := List.toFinset_card_le ((before.filter fun b =>
      decide (b.opened = a.opened) && decide (b.number ≤ limit)).map Hit.number)
  rw [Nat.card_Icc] at hcard
  rw [List.length_map] at hle
  rw [List.countP_eq_length_filter]
  omega

end FixedWindows
