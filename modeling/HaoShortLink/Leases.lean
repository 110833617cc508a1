import HaoShortLink.Histories

/-! A lease that events open and end, told from the events alone. -/
namespace Leases

variable {E U : Type}

structure Lease (U : Type) where
  user : U
  expiresAt : ℤ
  ended : Bool
  deriving DecidableEq, Repr

/-- Which events open the lease, for whom and until when, and which end it. -/
structure Terms (E U : Type) where
  opens : E → Option (U × ℤ)
  ends : E → Bool

namespace Terms

variable (terms : Terms E U)

/-- An open lease is replaced, and a lease that ended stays where it is. -/
def after (lease : Option (Lease U)) (e : E) : Option (Lease U) :=
  match terms.opens e with
  | some (user, expiresAt) => some ⟨user, expiresAt, false⟩
  | none => if terms.ends e then lease.map fun l => { l with ended := true } else lease

def lease (events : List E) : Option (Lease U) := events.foldl terms.after none

end Terms

/-- Whom the lease lets in. -/
def Lease.holder (now : ℤ) (lease : Lease U) : Option U :=
  if lease.ended = false ∧ now < lease.expiresAt then some lease.user else none

theorem Lease.holder_eq_some {now : ℤ} {lease : Lease U} {user : U} :
    lease.holder now = some user ↔
      lease = ⟨user, lease.expiresAt, false⟩ ∧ now < lease.expiresAt := by
  obtain ⟨user', expiresAt, ended⟩ := lease
  simp only [Lease.holder, Option.ite_none_right_eq_some, Option.some.injEq, Lease.mk.injEq,
    true_and]
  tauto

variable {terms : Terms E U} {events before later : List E} {e : E} {user : U} {expiresAt : ℤ}

@[simp] theorem lease_snoc : terms.lease (events ++ [e]) = terms.after (terms.lease events) e := by
  rw [Terms.lease, Terms.lease, List.foldl_append, List.foldl_cons, List.foldl_nil]

theorem after_opens {lease : Option (Lease U)} (h : terms.opens e = some (user, expiresAt)) :
    terms.after lease e = some ⟨user, expiresAt, false⟩ := by rw [Terms.after, h]

theorem after_ends {lease : Option (Lease U)} (hopens : terms.opens e = none)
    (hends : terms.ends e = true) :
    terms.after lease e = lease.map fun l => { l with ended := true } := by
  rw [Terms.after, hopens, if_pos hends]

theorem after_other {lease : Option (Lease U)} (hopens : terms.opens e = none)
    (hends : terms.ends e = false) : terms.after lease e = lease := by
  rw [Terms.after, hopens, hends]
  rfl

theorem after_open_iff {lease : Option (Lease U)} :
    terms.after lease e = some ⟨user, expiresAt, false⟩ ↔
      terms.opens e = some (user, expiresAt) ∨
        (terms.opens e = none ∧ terms.ends e = false ∧
          lease = some ⟨user, expiresAt, false⟩) := by
  cases hopens : terms.opens e with
  | some opened =>
    rw [after_opens hopens]
    simp [Prod.ext_iff]
  | none =>
    cases hends : terms.ends e with
    | false =>
      rw [after_other hopens hends]
      simp
    | true =>
      rw [after_ends hopens hends]
      simp

/-- The lease is open exactly when some event opened it and none since has replaced or ended it. -/
theorem lease_open_iff : terms.lease events = some ⟨user, expiresAt, false⟩ ↔
    ∃ before e since, events = before ++ e :: since ∧ terms.opens e = some (user, expiresAt) ∧
      ∀ x ∈ since, terms.opens x = none ∧ terms.ends x = false := by
  induction events using List.reverseRecOn with
  | nil => simp [Terms.lease]
  | append_singleton events last ih =>
    rw [lease_snoc, after_open_iff, ih]
    constructor
    · rintro (hopens | ⟨hnone, hends, before, e, since, rfl, hopens, hsince⟩)
      · exact ⟨events, last, [], rfl, hopens, by simp⟩
      · refine ⟨before, e, since ++ [last], by simp, hopens, ?_⟩
        intro x hx
        rcases List.mem_append.mp hx with hx | hx
        · exact hsince x hx
        · obtain rfl := List.mem_singleton.mp hx
          exact ⟨hnone, hends⟩
    · rintro ⟨before, e, since, hevents, hopens, hsince⟩
      rcases List.eq_nil_or_concat since with rfl | ⟨since, x, rfl⟩
      · obtain ⟨rfl, hlast⟩ := List.append_inj' hevents rfl
        obtain rfl := List.singleton_inj.mp hlast
        exact .inl hopens
      · rw [List.concat_eq_append, ← List.cons_append, ← List.append_assoc] at hevents
        obtain ⟨rfl, hlast⟩ := List.append_inj' hevents rfl
        obtain rfl := List.singleton_inj.mp hlast
        obtain ⟨hnone, hends⟩ := hsince last (by simp)
        exact .inr ⟨hnone, hends, before, e, since, rfl, hopens,
          fun y hy => hsince y (by simp [hy])⟩

def Terms.Once (terms : Terms E U) (events : List E) : Prop :=
  events.Pairwise fun e e' => (terms.opens e).isSome → terms.opens e' = none

theorem once_lease_open_iff (honce : terms.Once events) :
    terms.lease events = some ⟨user, expiresAt, false⟩ ↔
      ∃ before e since, events = before ++ e :: since ∧ terms.opens e = some (user, expiresAt) ∧
        ∀ x ∈ since, terms.ends x = false := by
  rw [lease_open_iff]
  constructor
  · rintro ⟨before, e, since, hevents, hopens, hsince⟩
    exact ⟨before, e, since, hevents, hopens, fun x hx => (hsince x hx).2⟩
  · rintro ⟨before, e, since, rfl, hopens, hsince⟩
    refine ⟨before, e, since, rfl, hopens, fun x hx => ⟨?_, hsince x hx⟩⟩
    have hlater := (List.pairwise_append.mp honce).2.1
    exact (List.pairwise_cons.mp hlater).1 x hx (by rw [hopens]; rfl)

theorem opened_unique {e' : E} (honce : terms.Once events) (he : e ∈ events) (he' : e' ∈ events)
    (hopens : (terms.opens e).isSome) (hopens' : (terms.opens e').isSome) : e = e' := by
  have htwice : ∀ a b, ((terms.opens a).isSome → terms.opens b = none) →
      (terms.opens a).isSome → (terms.opens b).isSome → a = b := by
    intro a b hnone ha hb
    rw [hnone ha] at hb
    cases hb
  refine List.Pairwise.forall_of_forall_of_flip
    (R := fun a b => (terms.opens a).isSome → (terms.opens b).isSome → a = b)
    (fun _ _ _ _ => rfl) (honce.imp fun h => htwice _ _ h)
    (honce.imp fun h ha hb => (htwice _ _ h hb ha).symm) he he' hopens hopens'

theorem lease_ended {opened last : E} (honce : terms.Once events)
    (horder : [opened, last].Sublist events) (hopens : (terms.opens opened).isSome)
    (hends : terms.ends last = true) : terms.lease events ≠ some ⟨user, expiresAt, false⟩ := by
  rw [Ne, once_lease_open_iff honce]
  rintro ⟨before, e, since, rfl, he, hsince⟩
  obtain ⟨_, hlater, hacross⟩ := List.pairwise_append.mp honce
  have hnone : ∀ x ∈ since, terms.opens x = none := fun x hx =>
    (List.pairwise_cons.mp hlater).1 x hx (by rw [he]; rfl)
  obtain ⟨l₁, l₂, hsplit, hbefore, hafter⟩ := List.sublist_append_iff.mp horder
  cases l₁ with
  | cons x l₁ =>
    -- opened twice
    obtain rfl := (List.cons.inj hsplit).1
    have htwice := hacross opened (hbefore.subset (by simp)) e (by simp) hopens
    rw [he] at htwice
    cases htwice
  | nil =>
    obtain rfl := hsplit
    cases hafter with
    | cons _ h =>
      rw [hnone opened (h.subset (by simp))] at hopens
      cases hopens
    | cons_cons _ h =>
      rw [hsince last (h.subset (by simp))] at hends
      cases hends

end Leases
