import HaoShortLink.ConnectionPools
import Mathlib.Data.Multiset.UnionInter

/-! The background check of the pool. It works on a copy of the queue, so it meets a connection
that a caller has taken in the meantime. -/
namespace PoolChecks

open ConnectionPools Histories

/-- The connection that the background thread pings or reconnects. -/
def touches : Event → Option ℕ
  | .checkPing c _ | .checkReconnect c _ => some c
  | _ => none

/-- The step takes from the queue no connection that is still to be checked. -/
def PopsChecked (s : Pool) : Event → Prop
  | .acquire _ => ∀ c ∈ s.connections.head?, c ∉ s.checker.listed
  | _ => True

instance (s : Pool) (e : Event) : Decidable (PopsChecked s e) := by
  cases e <;> simp only [PopsChecked] <;> infer_instance

theorem checker_advance {s s' : Pool} {t : Call} {step : Multiset Call → Option Pool}
    (h : s.advance t step = some s')
    (hstep : ∀ rest, step rest = some s' → s'.checker = s.checker) : s'.checker = s.checker := by
  obtain ⟨rest, _, h⟩ := Pool.advance_eq_some.mp h
  exact hstep rest h

theorem checker_push {s s' : Pool} {t : Call} {c : ℕ} {woken : Woken}
    (h : s.advance t (s.push c woken) = some s') : s'.checker = s.checker := by
  apply checker_advance h
  intro rest hrest
  obtain ⟨calls, _, rfl⟩ := push_eq_some.mp hrest
  rfl

theorem listed_step {s s' : Pool} {e : Event} (h : next s e = some s') :
    (∀ c ∈ s'.checker.listed, c ∈ s.checker.listed) ∨
      s'.checker.listed = s.connections ∧ s'.calls = s.calls := by
  cases e with
  | snapshot =>
    refine .inr ⟨?_, (change_checker h (.inl rfl)).2⟩
    simp only [next] at h
    grind [Checker.listed]
  | checkPing c answer =>
    left
    simp only [next] at h
    grind [Checker.listed]
  | checkReconnect c returns =>
    left
    simp only [next] at h
    grind [Checker.listed]
  | checkRest =>
    left
    simp only [next] at h
    grind [Checker.listed]
  | getConnection =>
    obtain rfl := Option.some.inj h
    exact .inl fun c hc => hc
  | isHealthy =>
    obtain rfl := Option.some.inj h
    exact .inl fun c hc => hc
  | release c woken =>
    simp only [next] at h
    exact .inl fun c hc => checker_push h ▸ hc
  | rethrow c woken =>
    simp only [next] at h
    exact .inl fun c hc => checker_push h ▸ hc
  | _ =>
    simp only [next] at h
    have hsame : s'.checker = s.checker := checker_advance h fun rest hrest => by grind
    exact .inl fun c hc => hsame ▸ hc

theorem touches_listed {s s' : Pool} {e : Event} {c : ℕ} (h : next s e = some s')
    (hc : touches e = some c) : c ∈ s.checker.listed := by
  cases e with
  | checkPing c' answer =>
    obtain rfl := Option.some.inj hc
    simp only [next] at h
    cases hchecker : s.checker with
    | pinging conns =>
      cases conns with
      | nil => simp [hchecker] at h
      | cons c conns =>
        simp only [hchecker, Option.ite_none_right_eq_some] at h
        obtain ⟨rfl, _⟩ := h
        exact List.mem_cons_self
    | _ => simp [hchecker] at h
  | checkReconnect c' returns =>
    obtain rfl := Option.some.inj hc
    simp only [next] at h
    cases hchecker : s.checker with
    | reconnecting c conns =>
      simp only [hchecker, Option.ite_none_right_eq_some] at h
      obtain ⟨rfl, _⟩ := h
      exact List.mem_cons_self
    | _ => simp [hchecker] at h
  | _ => cases hc

/-- No call has taken a connection that is still to be checked. -/
def Unborrowed (s : Pool) : Prop := ∀ c ∈ s.checker.listed, c ∉ held s.calls

theorem step_unborrowed {s s' : Pool} {e : Event} (h : next s e = some s')
    (hnodup : s.all.Nodup) (hpop : PopsChecked s e) (hs : Unborrowed s) : Unborrowed s' := by
  intro c hc hheld
  have hdisjoint : ∀ c ∈ s.connections, c ∉ held s.calls := fun c hc hheld =>
    Multiset.disjoint_left.mp (Multiset.nodup_add.mp hnodup).2.2 (Multiset.mem_coe.mpr hc) hheld
  rcases listed_step h with hlisted | ⟨hcopy, hcalls⟩
  · rcases next_held h with ⟨_, hsame⟩ | ⟨notified, c', rfl, hconns, htaken⟩ | ⟨c', _, hback⟩
    · rw [hsame] at hheld
      exact hs c (hlisted c hc) hheld
    · rw [htaken] at hheld
      rcases Multiset.mem_cons.mp hheld with rfl | hheld
      · exact hpop c (by simp [hconns]) (hlisted c hc)
      · exact hs c (hlisted c hc) hheld
    · exact hs c (hlisted c hc) (hback ▸ Multiset.mem_cons_of_mem hheld)
  · rw [hcopy] at hc
    rw [hcalls] at hheld
    exact hdisjoint c hc hheld

theorem acquire_takes {s s' : Pool} {notified : Bool} {c : ℕ}
    (h : next s (.acquire notified) = some s') (hc : s.connections.head? = some c) :
    s'.checker = s.checker ∧ c ∈ held s'.calls := by
  obtain ⟨cs, hconns⟩ := List.head?_eq_some_iff.mp hc
  simp only [next, hconns] at h
  obtain ⟨rest, _, h⟩ := Pool.advance_eq_some.mp h
  obtain rfl := Option.some.inj h
  refine ⟨rfl, ?_⟩
  rw [held_cons_some rfl]
  exact Multiset.mem_cons_self c _

/-- The background thread alone gets to every connection of its list. -/
theorem listed_touched {s : Pool} {c : ℕ} (hc : c ∈ s.checker.listed) :
    ∃ events s₁ e s₂, Run Step s events s₁ ∧ s₁.calls = s.calls ∧ Step s₁ e s₂ ∧
      touches e = some c := by
  have hpinging : ∀ (conns : List ℕ) (s : Pool), s.checker = .pinging conns → c ∈ conns →
      ∃ events s₁ e s₂, Run Step s events s₁ ∧ s₁.calls = s.calls ∧ Step s₁ e s₂ ∧
        touches e = some c := by
    intro conns
    induction conns with
    | nil => exact fun s _ hc => absurd hc List.not_mem_nil
    | cons c' conns ih =>
      intro s hchecker hc
      have hping : Step s (.checkPing c' .alive) { s with checker := .pinging conns } := by
        simp [Step, next, hchecker]
      by_cases heq : c' = c
      · subst heq
        exact ⟨[], s, _, _, .start, rfl, hping, rfl⟩
      · have hrest : c ∈ conns := (List.mem_cons.mp hc).resolve_left (Ne.symm heq)
        obtain ⟨events, s₁, e, s₂, hrun, hcalls, hlast, he⟩ :=
          ih { s with checker := .pinging conns } rfl hrest
        exact ⟨_, s₁, e, s₂, hrun.cons hping, hcalls, hlast, he⟩
  cases hchecker : s.checker with
  | resting => simp [hchecker, Checker.listed] at hc
  | pinging conns =>
    rw [hchecker] at hc
    exact hpinging conns s hchecker hc
  | reconnecting c' conns =>
    have hreconnect : Step s (.checkReconnect c' true) { s with checker := .pinging conns } := by
      simp [Step, next, hchecker]
    by_cases heq : c' = c
    · subst heq
      exact ⟨[], s, _, _, .start, rfl, hreconnect, rfl⟩
    · rw [hchecker] at hc
      have hrest : c ∈ conns := (List.mem_cons.mp hc).resolve_left (Ne.symm heq)
      obtain ⟨events, s₁, e, s₂, hrun, hcalls, hlast, he⟩ :=
        hpinging conns { s with checker := .pinging conns } rfl hrest
      exact ⟨_, s₁, e, s₂, hrun.cons hreconnect, hcalls, hlast, he⟩

/-- The background thread keeps off borrowed connections as long as no call takes one that is
still to be checked; and when a call does, the background thread alone can get to it. -/
theorem checks_unborrowed {opens : List Bool} {s₀ s : Pool} {steps : List (Pool × Event × Pool)}
    (hinit : init fresh opens = (true, s₀)) (h : Path Step s₀ steps s) :
    ((∀ t ∈ steps, PopsChecked t.1 t.2.1) →
      ∀ t ∈ steps, ∀ c, touches t.2.1 = some c → c ∉ held t.1.calls) ∧
    ∀ e s', Step s e s' → ¬ PopsChecked s e → ∃ events s₁ e' s₂ c, Run Step s' events s₁ ∧
      Step s₁ e' s₂ ∧ touches e' = some c ∧ c ∈ held s₁.calls := by
  have hall : s₀.all.Nodup := by
    rw [all_init hinit, init_ok hinit]
    exact Multiset.coe_nodup.mpr List.nodup_range
  constructor
  · intro hpops t ht c hc
    have hstart : s₀.all.Nodup ∧ Unborrowed s₀ := by
      refine ⟨hall, ?_⟩
      rw [init_ok hinit]
      exact fun c hc => absurd hc List.not_mem_nil
    have hkeep : ∀ s e s', Step s e s' → PopsChecked s e → s.all.Nodup ∧ Unborrowed s →
        s'.all.Nodup ∧ Unborrowed s' := fun s e s' hstep hpop hs =>
      ⟨next_all hstep ▸ hs.1, step_unborrowed hstep hs.1 hpop hs.2⟩
    obtain ⟨⟨_, hfree⟩, hstep⟩ :=
      (h.invariant (P := fun s => s.all.Nodup ∧ Unborrowed s) hstart hkeep hpops).2 t ht
    exact hfree c (touches_listed hstep hc)
  · intro e s' hstep hpop
    cases e with
    | acquire notified =>
      simp only [PopsChecked, not_forall, not_not] at hpop
      obtain ⟨c, hhead, hlisted⟩ := hpop
      obtain ⟨hchecker, hheld⟩ := acquire_takes hstep hhead
      obtain ⟨events, s₁, e', s₂, hrun, hcalls, hlast, he⟩ :=
        listed_touched (s := s') (c := c) (hchecker ▸ hlisted)
      exact ⟨events, s₁, e', s₂, c, hrun, hlast, he, hcalls ▸ hheld⟩
    | _ => exact absurd trivial hpop

/-- Two checks of one connection, around a caller that has it in the meantime. -/
theorem checks_unborrowed_demo :
    ∃ s, Path Step (init fresh [true]).2
        (trace next (init fresh [true]).2
          [.snapshot, .checkPing 0 .alive, .getConnection, .acquire false, .ping 0 .alive,
            .checkRest, .release 0 .nobody, .snapshot, .checkPing 0 .lost]) s ∧
      ∀ t ∈ trace next (init fresh [true]).2
          [.snapshot, .checkPing 0 .alive, .getConnection, .acquire false, .ping 0 .alive,
            .checkRest, .release 0 .nobody, .snapshot, .checkPing 0 .lost],
        ∀ c, touches t.2.1 = some c → c ∉ held t.1.calls :=
  have hpath := path_of_next rfl
  ⟨_, hpath, (checks_unborrowed (show init fresh [true] = (true, _) from rfl) hpath).1
    (by decide)⟩

/-- A connection that is taken after the copy was made is reconnected under its caller. -/
theorem borrowed_reconnected :
    ∃ s, Run Step (init fresh [true]).2
        [.snapshot, .getConnection, .acquire false, .ping 0 .alive, .checkPing 0 .lost] s ∧
      .holding 0 ∈ s.calls ∧ ∃ s', Step s (.checkReconnect 0 true) s' :=
  ⟨_, run_of_next rfl, by decide, _, rfl⟩

end PoolChecks
