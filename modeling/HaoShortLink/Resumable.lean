import Mathlib.Data.List.Basic

/-! Scanners that can be interrupted anywhere: a loop over a buffer whose every turn either
consumes something, stops, or has to wait for more input and then changes nothing. -/
namespace Resumable

inductive Turn (S R A : Type*) where
  | again (s : S) (rest : List A)
  | stop (r : R) (s : S) (rest : List A)
  | starved

structure Scanner (S R A : Type*) where
  turn : S → List A → Turn S R A
  shrinks : ∀ {s b s' b'}, turn s b = .again s' b' → b'.length < b.length
  again_append : ∀ {s b s' b'} q, turn s b = .again s' b' → turn s (b ++ q) = .again s' (b' ++ q)
  stop_append : ∀ {s b r s' b'} q, turn s b = .stop r s' b' →
    turn s (b ++ q) = .stop r s' (b' ++ q)

inductive Verdict (S R A : Type*) where
  | finished (r : R) (s : S) (rest : List A)
  | pending (s : S) (rest : List A)
  deriving DecidableEq

namespace Scanner

variable {S R A : Type*} (M : Scanner S R A)

def run (s : S) (b : List A) : Verdict S R A :=
  match _h : M.turn s b with
  | .again s' b' => run s' b'
  | .stop r s' b' => .finished r s' b'
  | .starved => .pending s b
termination_by b.length
decreasing_by exact M.shrinks _h

variable {M} {s s' s₀ : S} {b b' p : List A} {r : R}

theorem run_again (h : M.turn s b = .again s' b') : M.run s b = M.run s' b' := by
  rw [run]
  split <;> simp_all

theorem run_stop (h : M.turn s b = .stop r s' b') : M.run s b = .finished r s' b' := by
  rw [run]
  split <;> simp_all

theorem run_starved (h : M.turn s b = .starved) : M.run s b = .pending s b := by
  rw [run]
  split <;> simp_all

theorem run_induction {motive : S → List A → Prop}
    (again : ∀ s b s' b', M.turn s b = .again s' b' → motive s' b' → motive s b)
    (stop : ∀ s b r s' b', M.turn s b = .stop r s' b' → motive s b)
    (starved : ∀ s b, M.turn s b = .starved → motive s b) (s : S) (b : List A) : motive s b := by
  induction hn : b.length using Nat.strongRecOn generalizing s b with
  | ind n ih =>
    subst hn
    cases h : M.turn s b with
    | again s' b' => exact again s b s' b' h (ih b'.length (M.shrinks h) s' b' rfl)
    | stop r s' b' => exact stop s b r s' b' h
    | starved => exact starved s b h

/-- Input that arrives later changes nothing that was decided. -/
theorem finished_append (q : List A) (h : M.run s b = .finished r s' b') :
    M.run s (b ++ q) = .finished r s' (b' ++ q) := by
  induction s, b using run_induction (M := M) with
  | again s b t c ht ih =>
    rw [run_again ht] at h
    rw [run_again (M.again_append q ht)]
    exact ih h
  | stop s b r' t c ht =>
    rw [run_stop ht] at h
    cases h
    exact run_stop (M.stop_append q ht)
  | starved s b ht =>
    rw [run_starved ht] at h
    cases h

/-- A scanner that waits continues as if it had seen everything at once. -/
theorem pending_append (q : List A) (h : M.run s b = .pending s' b') :
    M.run s (b ++ q) = M.run s' (b' ++ q) := by
  induction s, b using run_induction (M := M) with
  | again s b t c ht ih =>
    rw [run_again ht] at h
    rw [run_again (M.again_append q ht)]
    exact ih h
  | stop s b r' t c ht =>
    rw [run_stop ht] at h
    cases h
  | starved s b ht =>
    rw [run_starved ht] at h
    cases h
    rfl

/-- Input that comes in chunks: what a finished run has not used stays in front of the chunks
that were not looked at. -/
def runChunks (M : Scanner S R A) (s : S) (b : List A) : List (List A) → Verdict S R A
  | [] => .pending s b
  | chunk :: chunks =>
    match M.run s (b ++ chunk) with
    | .pending s' b' => M.runChunks s' b' chunks
    | .finished r s' b' => .finished r s' (b' ++ chunks.flatten)

/-- It does not matter how the input was cut. -/
theorem runChunks_cons (s : S) (b chunk : List A) (chunks : List (List A)) :
    M.runChunks s b (chunk :: chunks) = M.run s (b ++ (chunk :: chunks).flatten) := by
  have hwhole : b ++ (chunk :: chunks).flatten = b ++ chunk ++ chunks.flatten := by simp
  rw [hwhole, runChunks]
  induction chunks generalizing s b chunk with
  | nil =>
    rw [List.flatten_nil, List.append_nil]
    cases M.run s (b ++ chunk) with
    | pending s' b' => rfl
    | finished r s' b' => simp only [List.append_nil]
  | cons next chunks ih =>
    cases hrun : M.run s (b ++ chunk) with
    | pending s' b' =>
      have hmore : b' ++ (next :: chunks).flatten = b' ++ next ++ chunks.flatten := by simp
      rw [pending_append (next :: chunks).flatten hrun, hmore]
      exact ih s' b' next hmore
    | finished r s' b' => exact (finished_append (next :: chunks).flatten hrun).symm

/-- The state s with unread input b stands where s₀ stands after the input p. -/
def Resumes (M : Scanner S R A) (s₀ : S) (p : List A) (s : S) (b : List A) : Prop :=
  ∀ q, M.run s (b ++ q) = M.run s₀ (p ++ q)

theorem Resumes.start (s : S) (b : List A) : M.Resumes s b s b := fun _ => rfl

theorem Resumes.feed {c : List A} (h : M.Resumes s₀ p s b)
    (hc : M.run s (b ++ c) = .pending s' b') : M.Resumes s₀ (p ++ c) s' b' := by
  intro q
  rw [← pending_append q hc, List.append_assoc, h, List.append_assoc]

theorem Resumes.run_eq (h : M.Resumes s₀ p s b) (c : List A) :
    M.run s (b ++ c) = M.run s₀ (p ++ c) := h c

/-- A run that uses up its input waits at every proper prefix of it. -/
theorem pending_of_prefix {q : List A} (h : M.run s (p ++ q) = .finished r s' [])
    (hq : q ≠ []) : ∃ t c, M.run s p = .pending t c := by
  cases hp : M.run s p with
  | pending t c => exact ⟨t, c, rfl⟩
  | finished r' t c =>
    rw [finished_append q hp] at h
    simp only [Verdict.finished.injEq, List.append_eq_nil_iff] at h
    exact absurd h.2.2.2 hq

end Scanner

end Resumable
