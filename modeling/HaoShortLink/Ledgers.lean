import Mathlib.Algebra.BigOperators.Group.List.Basic
import Mathlib.Algebra.BigOperators.Group.Multiset.Basic
import Mathlib.Logic.Function.Basic

/-! Counters to which calls post amounts one after the other: a counter and what the calls under
way still post to it come to what was booked for them. -/
namespace Ledgers

variable {C X A : Type} [DecidableEq X] [AddCommMonoid A]

def amount (posts : List (X × A)) (x : X) : A := (posts.map fun p => if p.1 = x then p.2 else 0).sum

@[simp] theorem amount_nil (x : X) : amount ([] : List (X × A)) x = 0 := rfl

@[simp] theorem amount_cons (p : X × A) (posts : List (X × A)) (x : X) :
    amount (p :: posts) x = (if p.1 = x then p.2 else 0) + amount posts x := by
  simp [amount]

@[simp] theorem amount_append (posts posts' : List (X × A)) (x : X) :
    amount (posts ++ posts') x = amount posts x + amount posts' x := by
  simp [amount]

/-- Where each event books one or nothing, what was booked is how many booked one. -/
theorem amount_countP {E : Type} {entry : E → List (X × ℕ)} {x : X} {p : E → Bool}
    (h : ∀ e, amount (entry e) x = if p e then 1 else 0) (events : List E) :
    amount (events.flatMap entry) x = events.countP p := by
  induction events with
  | nil => rfl
  | cons e events ih => rw [List.flatMap_cons, amount_append, ih, h, List.countP_cons, add_comm]

/-- What the calls under way still post. -/
def owing (todo : C → List (X × A)) (calls : Multiset C) (x : X) : A :=
  (calls.map fun c => amount (todo c) x).sum

variable {todo : C → List (X × A)}

@[simp] theorem owing_zero (x : X) : owing todo 0 x = 0 := rfl

@[simp] theorem owing_cons (c : C) (calls : Multiset C) (x : X) :
    owing todo (c ::ₘ calls) x = amount (todo c) x + owing todo calls x := by
  simp [owing]

theorem owing_add (calls calls' : Multiset C) (x : X) :
    owing todo (calls + calls') x = owing todo calls x + owing todo calls' x := by
  simp [owing]

theorem owing_eq_zero {calls : Multiset C} {x : X} (h : ∀ c ∈ calls, amount (todo c) x = 0) :
    owing todo calls x = 0 := by
  refine Multiset.sum_eq_zero ?_
  intro a ha
  obtain ⟨c, hc, rfl⟩ := Multiset.mem_map.mp ha
  exact h c hc

def raise {T : Type} [Add T] [One T] (x : Option X) (counters : X → T) : X → T :=
  x.elim counters fun x => Function.update counters x (counters x + 1)

theorem raise_apply [One A] (x : Option X) (counters : X → A) (y : X) :
    raise x counters y = counters y + if x = some y then 1 else 0 := by
  cases x with
  | none => simp [raise]
  | some x =>
    by_cases hxy : y = x
    · subst hxy
      simp [raise]
    · simp [raise, hxy, Ne.symm hxy]

variable (todo) in
def Balanced (counters : X → A) (calls : Multiset C) (posts : List (X × A)) : Prop :=
  ∀ x, counters x + owing todo calls x = amount posts x

namespace Balanced

variable {counters : X → A} {calls rest next : Multiset C} {c c' : C} {posts : List (X × A)}

theorem initial : Balanced todo (fun _ => 0) 0 ([] : List (X × A)) := by
  intro x
  simp

theorem begin (h : Balanced todo counters calls posts) :
    Balanced todo counters (c ::ₘ calls) (posts ++ todo c) := by
  intro x
  rw [owing_cons, amount_append, ← h x, add_comm (amount (todo c) x), add_assoc]

/-- The call has gone on to others that together have to do what it had. -/
theorem move (h : Balanced todo counters (c ::ₘ rest) posts)
    (hnext : ∀ x, owing todo next x = amount (todo c) x) :
    Balanced todo counters (next + rest) posts := by
  intro x
  have hx := h x
  rw [owing_cons] at hx
  rw [owing_add, hnext, hx]

theorem move_cons (h : Balanced todo counters (c ::ₘ rest) posts) (hnext : todo c' = todo c) :
    Balanced todo counters (c' ::ₘ rest) posts := by
  intro x
  have hx := h x
  rw [owing_cons] at hx ⊢
  rw [hnext, hx]

/-- The call has made the first of its posts, and gone on to others that have the rest to do. -/
theorem post_move {x : X} {a : A} (h : Balanced todo counters (c ::ₘ rest) posts)
    (hnext : ∀ y, amount (todo c) y = (if x = y then a else 0) + owing todo next y) :
    Balanced todo (Function.update counters x (counters x + a)) (next + rest) posts := by
  intro y
  have hy := h y
  rw [owing_cons, hnext] at hy
  rw [owing_add, ← hy]
  by_cases hxy : y = x
  · subst hxy
    rw [Function.update_self, if_pos rfl, add_assoc, add_assoc]
  · rw [Function.update_of_ne hxy, if_neg (Ne.symm hxy), zero_add]

theorem post {x : X} {a : A} (h : Balanced todo counters (c ::ₘ rest) posts)
    (hnext : todo c = (x, a) :: todo c') :
    Balanced todo (Function.update counters x (counters x + a)) (c' ::ₘ rest) posts := by
  rw [← Multiset.singleton_add]
  apply h.post_move
  intro y
  rw [hnext, amount_cons, ← Multiset.cons_zero, owing_cons, owing_zero, add_zero]

/-- The call has made the one post it still had to make, and is gone. -/
theorem last {x : X} {a : A} (h : Balanced todo counters (c ::ₘ rest) posts)
    (hlast : todo c = [(x, a)]) :
    Balanced todo (Function.update counters x (counters x + a)) rest posts := by
  have hmove : Balanced todo (Function.update counters x (counters x + a)) (0 + rest) posts :=
    h.post_move (by simp [hlast])
  rwa [zero_add] at hmove

/-- A step that raises one counter or none, while new posts are booked for the call. -/
theorem step {x : Option X} {booked : List (X × A)} [One A]
    (h : Balanced todo counters (c ::ₘ rest) posts)
    (hnext : ∀ y, amount (todo c) y + amount booked y =
      (if x = some y then 1 else 0) + owing todo next y) :
    Balanced todo (raise x counters) (next + rest) (posts ++ booked) := by
  intro y
  have hy := h y
  rw [owing_cons] at hy
  rw [owing_add, amount_append, ← hy, raise_apply, add_assoc, ← add_assoc (ite _ _ _), ← hnext,
    add_right_comm (amount (todo c) y), add_assoc (counters y)]

theorem drop (h : Balanced todo counters (c ::ₘ rest) posts) (hnone : todo c = []) :
    Balanced todo counters rest posts := by
  intro x
  have hx := h x
  rwa [owing_cons, hnone, amount_nil, zero_add] at hx

/-- Once no call has to post to it any more, the counter is what was booked. -/
theorem settled {x : X} (h : Balanced todo counters calls posts)
    (hcalls : ∀ c ∈ calls, amount (todo c) x = 0) : counters x = amount posts x := by
  rw [← h x, owing_eq_zero hcalls, add_zero]

end Balanced

end Ledgers
