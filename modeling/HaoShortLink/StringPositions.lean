import Mathlib.Data.List.Basic

/-! Positions in a string: the search for a character from a position on, and the text between two
positions. -/
namespace StringPositions

variable {α : Type*} [DecidableEq α]

/-- The first place of the character from the position on. -/
def find (s : List α) (c : α) (pos : ℕ) : Option ℕ := ((s.drop pos).idxOf? c).map (pos + ·)

/-- The text from the position to another one or to the end. -/
def slice (s : List α) (pos : ℕ) (stop : Option ℕ) : List α :=
  match stop with
  | none => s.drop pos
  | some stop => (s.drop pos).take (stop - pos)

variable {s : List α} {c : α} {pos stop : ℕ}

theorem not_mem_of_find_none (h : find s c pos = none) : c ∉ s.drop pos :=
  List.idxOf?_eq_none_iff.mp (Option.map_eq_none_iff.mp h)

theorem find_some (h : find s c pos = some stop) :
    pos ≤ stop ∧ stop < s.length ∧ c ∉ slice s pos (some stop) ∧
      s.drop pos = slice s pos (some stop) ++ c :: s.drop (stop + 1) := by
  obtain ⟨i, hi, hstop⟩ := Option.map_eq_some_iff.mp h
  obtain ⟨hlt, hc, hbefore⟩ := List.idxOf?_eq_some_iff.mp hi
  subst hstop
  have hslice : slice s pos (some (pos + i)) = (s.drop pos).take i := by
    rw [slice, Nat.add_sub_cancel_left]
  have hrest : s.drop (pos + i + 1) = (s.drop pos).drop (i + 1) := by
    rw [List.drop_drop, Nat.add_assoc]
  have hlength := hlt
  rw [List.length_drop] at hlength
  refine ⟨Nat.le_add_right pos i, by omega, ?_, ?_⟩
  · rw [hslice]
    intro hmem
    obtain ⟨j, hj, hjc⟩ := List.mem_iff_getElem.mp hmem
    rw [List.length_take] at hj
    exact hbefore j (by omega) (by rw [← hjc, List.getElem_take])
  · rw [hslice, hrest, ← hc, List.getElem_cons_drop, List.take_append_drop]

theorem idxOf?_append (h : c ∉ s) (rest : List α) : (s ++ c :: rest).idxOf? c = some s.length := by
  induction s with
  | nil => simp [List.idxOf?_cons]
  | cons d s ih =>
    obtain ⟨hne, hrest⟩ := not_or.mp (mt List.mem_cons.mpr h)
    rw [List.cons_append, List.idxOf?_cons, if_neg (by simpa using Ne.symm hne), ih hrest]
    rfl

theorem splitOn_drop (s : List α) (c : α) (pos : ℕ) : (s.drop pos).splitOn c =
    slice s pos (find s c pos) ::
      match find s c pos with
      | none => []
      | some stop => (s.drop (stop + 1)).splitOn c := by
  cases hfind : find s c pos with
  | none =>
    simp only [slice]
    exact List.splitOn_eq_singleton (not_mem_of_find_none hfind)
  | some stop =>
    obtain ⟨_, _, hslice, hdrop⟩ := find_some hfind
    rw [hdrop]
    exact List.splitOn_append_cons_self_of_not_mem hslice _

end StringPositions
