import HaoShortLink.CallTraces
import Mathlib.Algebra.Ring.Int.Defs
import Mathlib.Data.List.Basic

/-! Loops that try something and sleep between the tries, seen in the calls of one run. -/
namespace RetryLoops

open Program CallTraces

universe u v

variable {Op : Type u} {Ans : Op → Type v} {ρ β : Type}

structure Loop (Ans : Op → Type v) (ρ β : Type) where
  tries : Trace Ans → ρ → Prop
  /-- The outcomes after which the loop tries again. -/
  again : ρ → Prop
  /-- A sleep of this length with what else is done before the next try. -/
  pause : ℤ → Trace Ans → Prop
  /-- A pause that ends the loop with a result. -/
  left : ℤ → Trace Ans → β → Prop
  /-- What the loop makes of its last outcome. -/
  ends : ρ → β → Prop

/-- A run with the outcomes of its tries and the lengths of its sleeps. -/
inductive Loop.Runs (L : Loop Ans ρ β) : Trace Ans → List ρ → List ℤ → β → Prop where
  | last {l o r} : L.tries l o → L.ends o r → Runs L l [o] [] r
  | left {l o d p r} : L.tries l o → L.again o → L.left d p r → Runs L (l ++ p) [o] [d] r
  | next {l o d p l' os ds r} : L.tries l o → L.again o → L.pause d p → Runs L l' os ds r →
      Runs L (l ++ (p ++ l')) (o :: os) (d :: ds) r

namespace Loop.Runs

variable {L : Loop Ans ρ β} {l : Trace Ans} {os : List ρ} {ds : List ℤ} {r : β}

theorem outcomes_ne_nil (h : L.Runs l os ds r) : os ≠ [] := by
  cases h <;> simp

theorem again_before_last (h : L.Runs l os ds r) : ∀ o ∈ os.dropLast, L.again o := by
  induction h with
  | last | left => simp
  | @next _ o _ _ _ os _ _ _ hagain _ hrest ih =>
    rw [List.dropLast_cons_of_ne_nil hrest.outcomes_ne_nil]
    exact List.forall_mem_cons.mpr ⟨hagain, ih⟩

/-- There is one try after each sleep, unless the last pause ends the loop. -/
theorem sleeps_between (h : L.Runs l os ds r) :
    ds.length + 1 = os.length ∨ ds.length = os.length ∧ ∃ d p, p <:+ l ∧ L.left d p r := by
  induction h with
  | last => exact .inl rfl
  | @left l _ d p _ _ _ hleft => exact .inr ⟨rfl, d, p, List.suffix_append l p, hleft⟩
  | @next l _ _ p l' _ _ _ _ _ _ _ ih =>
    rcases ih with hlength | ⟨hlength, d, q, hq, hleft⟩
    · exact .inl (congrArg (· + 1) hlength)
    · refine .inr ⟨congrArg (· + 1) hlength, d, q, ?_, hleft⟩
      exact hq.trans ((List.suffix_append p l').trans (List.suffix_append l _))

/-- The sleeps are the sleeping calls, where tries make none and a pause makes one. -/
theorem filterMap_eq {sleepOf : (op : Op) × Ans op → Option ℤ} (h : L.Runs l os ds r)
    (htries : ∀ l o, L.tries l o → l.filterMap sleepOf = [])
    (hpause : ∀ d p, L.pause d p → p.filterMap sleepOf = [d])
    (hleft : ∀ d p r, L.left d p r → p.filterMap sleepOf = [d]) : l.filterMap sleepOf = ds := by
  induction h with
  | last htry => exact htries _ _ htry
  | left htry _ hl => rw [List.filterMap_append, htries _ _ htry, hleft _ _ _ hl, List.nil_append]
  | next htry _ hp _ ih =>
    rw [List.filterMap_append, List.filterMap_append, htries _ _ htry, hpause _ _ hp, ih]
    rfl

end Loop.Runs

def delaysFrom (next : ℤ → ℤ) : ℕ → ℤ → List ℤ
  | 0, _ => []
  | n + 1, delay => delay :: delaysFrom next n (next delay)

theorem delaysFrom_eq (next : ℤ → ℤ) {delay : ℕ → ℤ} (h : ∀ k, next (delay k) = delay (k + 1))
    (n k : ℕ) : delaysFrom next n (delay k) = (List.range n).map fun i => delay (k + i) := by
  induction n generalizing k with
  | zero => rfl
  | succ n ih =>
    rw [delaysFrom, h, ih, List.range_succ_eq_map, List.map_cons, List.map_map]
    refine congrArg₂ List.cons rfl (List.map_congr_left ?_)
    intro i _
    rw [Function.comp_apply, Nat.add_assoc, Nat.add_comm 1 i]

end RetryLoops
