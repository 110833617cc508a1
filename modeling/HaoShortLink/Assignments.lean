import Mathlib.Logic.Function.Basic

/-! A map built by assignments that come one after the other: the last one for a key wins. -/
namespace Assignments

variable {L K V : Type*} (assigns : L → K → V → Prop)

/-- A line of the list assigns the value to the key, and no later line assigns to it. -/
def LastAssigned (lines : List L) (key : K) (value : V) : Prop :=
  ∃ front line back, lines = front ++ line :: back ∧ assigns line key value ∧
    ∀ later ∈ back, ∀ other, ¬assigns later key other

def Updated (m : K → Option V) (lines : List L) (m' : K → Option V) : Prop :=
  ∀ key value, m' key = some value ↔ LastAssigned assigns lines key value ∨
    (∀ line ∈ lines, ∀ other, ¬assigns line key other) ∧ m key = some value

variable {assigns} {m m' : K → Option V} {line : L} {lines : List L} {key : K} {value : V}

theorem lastAssigned_cons : LastAssigned assigns (line :: lines) key value ↔
    LastAssigned assigns lines key value ∨
      (∀ later ∈ lines, ∀ other, ¬assigns later key other) ∧ assigns line key value := by
  constructor
  · rintro ⟨front, last, back, hlines, hlast, hback⟩
    cases front with
    | nil =>
      obtain ⟨rfl, rfl⟩ := List.cons.inj hlines
      exact .inr ⟨hback, hlast⟩
    | cons first front =>
      obtain ⟨rfl, rfl⟩ := List.cons.inj hlines
      exact .inl ⟨front, last, back, rfl, hlast, hback⟩
  · rintro (⟨front, last, back, rfl, hlast, hback⟩ | ⟨hlines, hline⟩)
    · exact ⟨line :: front, last, back, rfl, hlast, hback⟩
    · exact ⟨[], line, lines, rfl, hline, hlines⟩

theorem updated_nil (m : K → Option V) : Updated assigns m [] m := by
  intro key value
  constructor
  · intro h
    exact .inr ⟨fun _ hline => absurd hline List.not_mem_nil, h⟩
  · rintro (⟨front, _, _, hlines, -, -⟩ | ⟨-, h⟩)
    · exact absurd hlines (by simp)
    · exact h

theorem Updated.skip (hline : ∀ key value, ¬assigns line key value)
    (h : Updated assigns m lines m') : Updated assigns m (line :: lines) m' := by
  intro key value
  rw [h key value, lastAssigned_cons, List.forall_mem_cons]
  constructor
  · rintro (hlast | ⟨hnone, hm⟩)
    · exact .inl (.inl hlast)
    · exact .inr ⟨⟨hline key, hnone⟩, hm⟩
  · rintro ((hlast | ⟨-, hassigns⟩) | ⟨⟨-, hnone⟩, hm⟩)
    · exact .inl hlast
    · exact absurd hassigns (hline key value)
    · exact .inr ⟨hnone, hm⟩

variable [DecidableEq K]

theorem Updated.assign (hline : ∀ k v, assigns line k v ↔ k = key ∧ v = value)
    (h : Updated assigns (Function.update m key (some value)) lines m') :
    Updated assigns m (line :: lines) m' := by
  intro k v
  rw [h k v, lastAssigned_cons, List.forall_mem_cons, hline k v]
  by_cases hk : k = key
  · subst hk
    rw [Function.update_self, Option.some.injEq]
    constructor
    · rintro (hlast | ⟨hnone, rfl⟩)
      · exact .inl (.inl hlast)
      · exact .inl (.inr ⟨hnone, rfl, rfl⟩)
    · rintro ((hlast | ⟨hnone, -, rfl⟩) | ⟨⟨hother, -⟩, -⟩)
      · exact .inl hlast
      · exact .inr ⟨hnone, rfl⟩
      · exact absurd ((hline k value).mpr ⟨rfl, rfl⟩) (hother value)
  · rw [Function.update_of_ne hk]
    constructor
    · rintro (hlast | ⟨hnone, hm⟩)
      · exact .inl (.inl hlast)
      · exact .inr ⟨⟨fun other hother => hk ((hline k other).mp hother).1, hnone⟩, hm⟩
    · rintro ((hlast | ⟨-, heq, -⟩) | ⟨⟨-, hnone⟩, hm⟩)
      · exact .inl hlast
      · exact absurd heq hk
      · exact .inr ⟨hnone, hm⟩

end Assignments
