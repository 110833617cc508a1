import HaoShortLink.ConnectionPools

/-! Wakeups in the connection pool. getConnection and isHealthy sleep on one condition variable,
and a woken isHealthy takes no connection and wakes nobody. -/
namespace PoolWakeups

open ConnectionPools Histories

/-- While a caller sleeps, every idle connection is meant for a caller that was notified. -/
def NoLostWakeup (s : Pool) : Prop :=
  .asleep ∈ s.calls → s.connections.length ≤ s.calls.count (.acquiring true)

/-- The step wakes no readiness probe past a sleeping caller whom the connection that comes back
was for. -/
def SparesCallers (s : Pool) (e : Event) : Prop :=
  e.wakes = some .probe → .asleep ∈ s.calls →
    s.connections.length < s.calls.count (.acquiring true)

instance (s : Pool) : Decidable (NoLostWakeup s) :=
  inferInstanceAs (Decidable (_ → _))

instance (s : Pool) (e : Event) : Decidable (SparesCallers s e) :=
  inferInstanceAs (Decidable (_ → _ → _))

theorem count_cons_le (t : Call) (rest : Multiset Call) :
    (t ::ₘ rest).count (.acquiring true) ≤ rest.count (.acquiring true) + 1 := by
  rw [Multiset.count_cons]
  split <;> omega

theorem ne_asleep {t : Call} {c : ℕ} (ht : t.conn = some c) : Call.asleep ≠ t := by
  rintro rfl
  cases ht

theorem ne_acquiring {t : Call} {c : ℕ} {b : Bool} (ht : t.conn = some c) :
    Call.acquiring b ≠ t := by
  rintro rfl
  cases ht

/-- A connection comes back: it is up to the sleeper that is woken. -/
theorem push_noLostWakeup {s s' : Pool} {t : Call} {rest : Multiset Call} {c : ℕ} {woken : Woken}
    (ht : t.conn = some c) (hcalls : s.calls = t ::ₘ rest)
    (hnotify : notifyOne rest woken = some s'.calls)
    (hconns : s'.connections = s.connections ++ [c]) (hs : NoLostWakeup s) :
    NoLostWakeup s' ↔ (woken = .probe → .asleep ∈ s.calls →
      s.connections.length < s.calls.count (.acquiring true)) := by
  have hlength : s'.connections.length = s.connections.length + 1 := by simp [hconns]
  have hmem : .asleep ∈ s.calls ↔ .asleep ∈ rest := by
    rw [hcalls, Multiset.mem_cons, or_iff_right (ne_asleep ht)]
  have hcount : s.calls.count (.acquiring true) = rest.count (.acquiring true) := by
    rw [hcalls, Multiset.count_cons_of_ne (ne_acquiring ht)]
  rw [NoLostWakeup, hmem, hcount] at hs
  rw [NoLostWakeup, hmem, hcount, hlength]
  rcases notifyOne_cases hnotify with ⟨rfl, hnone, heq⟩ | ⟨others, rfl, rfl, heq⟩ |
    ⟨others, rfl, rfl, heq⟩
  · rw [heq]
    exact ⟨fun _ hprobe => (by cases hprobe), fun _ hsleep => absurd hsleep hnone⟩
  · have hle := hs (Multiset.mem_cons_self _ _)
    rw [Multiset.count_cons_of_ne (by decide)] at hle
    rw [heq, Multiset.count_cons_self]
    exact ⟨fun _ hprobe => (by cases hprobe), fun _ _ => by omega⟩
  · rw [heq, Multiset.count_cons_of_ne (by decide), Multiset.count_cons_of_ne (by decide),
      Multiset.mem_cons, Multiset.mem_cons, or_iff_right (by decide), or_iff_right (by decide)]
    exact ⟨fun h _ hsleep => h hsleep, fun h hsleep => h rfl hsleep⟩

theorem step_noLostWakeup (s : Pool) (e : Event) (s' : Pool) (h : Step s e s')
    (hs : NoLostWakeup s) : NoLostWakeup s' ↔ SparesCallers s e := by
  cases next_change h with
  | quiet before after rest hwakes hcalls hcalls' hconns _ hsleep hacquiring =>
    have hgoal : NoLostWakeup s' := by
      intro hmem
      rw [hcalls'] at hmem
      have hrest : .asleep ∈ rest := (Multiset.mem_add.mp hmem).resolve_left hsleep
      have hle := hs (hcalls ▸ Multiset.mem_add.mpr (.inr hrest))
      rw [hcalls, Multiset.count_add, Multiset.count_eq_zero.mpr (hacquiring true)] at hle
      rw [hconns, hcalls', Multiset.count_add]
      omega
    exact ⟨fun _ hprobe => (by simp [hwakes] at hprobe), fun _ => hgoal⟩
  | waits notified rest he _ hconns' _ _ =>
    subst he
    have hgoal : NoLostWakeup s' := by
      intro _
      simp [hconns']
    exact ⟨fun _ hprobe => (by cases hprobe), fun _ => hgoal⟩
  | pops notified rest c he hconns hcalls hcalls' =>
    subst he
    have hgoal : NoLostWakeup s' := by
      intro hmem
      rw [hcalls', Multiset.mem_cons, or_iff_right (ne_asleep (c := c) rfl)] at hmem
      have hle := hs (hcalls ▸ Multiset.mem_cons_of_mem hmem)
      have hcount := count_cons_le (.acquiring notified) rest
      rw [hcalls, hconns, List.length_cons] at hle
      rw [hcalls', Multiset.count_cons_of_ne (ne_acquiring (c := c) rfl)]
      omega
    exact ⟨fun _ hprobe => (by cases hprobe), fun _ => hgoal⟩
  | pushes t rest c woken hwakes ht hcalls hnotify hconns =>
    rw [push_noLostWakeup ht hcalls hnotify hconns hs, SparesCallers, hwakes, Option.some.injEq]

/-- A run of the pool loses no wakeup exactly as long as no connection that comes back wakes a
readiness probe instead of the caller it is for. -/
theorem no_lost_wakeup_iff {opens : List Bool} {s₀ s : Pool} {steps : List (Pool × Event × Pool)}
    (hinit : init fresh opens = (true, s₀)) (h : Path Step s₀ steps s) :
    (∀ t ∈ steps, NoLostWakeup t.2.2) ↔ ∀ t ∈ steps, SparesCallers t.1 t.2.1 := by
  refine h.forall_iff ?_ step_noLostWakeup
  rw [init_ok hinit]
  exact fun hmem => absurd hmem (Multiset.notMem_zero _)

/-- Two callers and a readiness probe that finds its connection again. -/
theorem no_lost_wakeup_demo :
    ∃ s, Path Step (init fresh [true]).2
        (trace next (init fresh [true]).2
          [.getConnection, .acquire false, .ping 0 .alive, .isHealthy, .probeEnter,
            .getConnection, .acquire false, .release 0 .caller, .probeTimeout]) s ∧
      ∀ t ∈ trace next (init fresh [true]).2
          [.getConnection, .acquire false, .ping 0 .alive, .isHealthy, .probeEnter,
            .getConnection, .acquire false, .release 0 .caller, .probeTimeout],
        NoLostWakeup t.2.2 :=
  have hpath := path_of_next rfl
  ⟨_, hpath, (no_lost_wakeup_iff (show init fresh [true] = (true, _) from rfl) hpath).mpr
    (by decide)⟩

/-- The connection that is given back wakes the readiness probe, which looks at it and leaves:
the caller sleeps on beside an idle connection. -/
theorem probe_takes_wakeup :
    ∃ s, Run Step (init fresh [true]).2
        [.getConnection, .acquire false, .ping 0 .alive, .isHealthy, .probeEnter,
          .getConnection, .acquire false, .release 0 .probe, .probeWake false, .probeAnswer] s ∧
      s.connections = [0] ∧ s.calls = {.asleep} ∧ ¬ NoLostWakeup s :=
  ⟨_, run_of_next rfl, by decide⟩

end PoolWakeups
