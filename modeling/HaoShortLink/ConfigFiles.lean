import HaoShortLink.Assignments
import HaoShortLink.Configs
import HaoShortLink.StringPositions

/-! Config::loadFromFile as a whole: the files it accepts and what it stores of them. -/
namespace ConfigFiles

open Cpp Configs Assignments

def Skipped (line : Bytes) : Prop := trim line = [] ∨ (trim line).head? = some 35

/-- The line has a key before its first equals sign. -/
def Assigns (line key value : Bytes) : Prop :=
  ¬Skipped line ∧ ∃ front back, trim line = front ++ 61 :: back ∧ 61 ∉ front ∧
    trim front ≠ [] ∧ key = trim front ∧ value = trim back

theorem dropWhile_spec (value : Bytes) : ∃ blanks, value = blanks ++ value.dropWhile isSpace ∧
    (∀ c ∈ blanks, isSpace c) ∧ ∀ c ∈ (value.dropWhile isSpace).head?, isSpace c = false := by
  refine ⟨value.takeWhile isSpace, List.takeWhile_append_dropWhile.symm, ?_, ?_⟩
  · intro c hc
    exact List.mem_takeWhile_imp hc
  · intro c hc
    have hhead := List.head?_dropWhile_not isSpace value
    rw [Option.mem_def.mp hc] at hhead
    exact hhead

theorem trim_spec (value : Bytes) : ∃ front back, value = front ++ trim value ++ back ∧
    (∀ c ∈ front, isSpace c) ∧ (∀ c ∈ back, isSpace c) ∧
    (∀ c ∈ (trim value).head?, isSpace c = false) ∧
    ∀ c ∈ (trim value).getLast?, isSpace c = false := by
  obtain ⟨front, hfront, hfrontSpace, hhead⟩ := dropWhile_spec value
  obtain ⟨back, hback, hbackSpace, hlast⟩ := dropWhile_spec (value.dropWhile isSpace).reverse
  have hrest : value.dropWhile isSpace = trim value ++ back.reverse := by
    rw [trim, ← List.reverse_append, ← hback, List.reverse_reverse]
  refine ⟨front, back.reverse, ?_, hfrontSpace, ?_, ?_, ?_⟩
  · rw [List.append_assoc, ← hrest]
    exact hfront
  · intro c hc
    exact hbackSpace c (List.mem_reverse.mp hc)
  · intro c hc
    rw [hrest] at hhead
    refine hhead c ?_
    obtain ⟨rest, htrim⟩ := List.head?_eq_some_iff.mp hc
    rw [htrim, List.cons_append]
    exact rfl
  · intro c hc
    rw [trim, List.getLast?_reverse] at hc
    exact hlast c hc

theorem splitOn_spec (content : Bytes) : (∀ line ∈ content.splitOn 10, 10 ∉ line) ∧
    ((content.splitOn 10).map (· ++ [10])).flatten = content ++ [10] := by
  rcases cut_cases 10 content with hno | ⟨line, rest, hline, hcontent⟩
  · rw [List.splitOn_eq_singleton hno]
    simp [hno]
  · obtain ⟨hlines, hflatten⟩ := splitOn_spec rest
    rw [hcontent, List.splitOn_append_cons_self_of_not_mem hline]
    refine ⟨List.forall_mem_cons.mpr ⟨hline, hlines⟩, ?_⟩
    rw [List.map_cons, List.flatten_cons, hflatten]
    simp
termination_by content.length
decreasing_by
  rw [hcontent, List.length_append, List.length_cons]
  omega

/-- A file is its lines, each ended by a newline, which the last one may lack. -/
theorem getlines_spec (content : Bytes) : (∀ line ∈ getlines content, 10 ∉ line) ∧
    (((getlines content).map (· ++ [10])).flatten = content ∨
      ((getlines content).map (· ++ [10])).flatten = content ++ [10]) := by
  obtain ⟨hlines, hflatten⟩ := splitOn_spec content
  simp only [getlines]
  by_cases hlast : (content.splitOn 10).getLast? = some []
  · rw [if_pos hlast]
    obtain ⟨init, hinit⟩ := List.getLast?_eq_some_iff.mp hlast
    rw [hinit] at hlines hflatten ⊢
    rw [List.dropLast_concat]
    refine ⟨fun line hline => hlines line (List.mem_append_left _ hline), .inl ?_⟩
    rw [List.map_append, List.flatten_append] at hflatten
    exact List.append_cancel_right hflatten
  · rw [if_neg hlast]
    exact ⟨hlines, .inr hflatten⟩

theorem loadLines_skipped {line : Bytes} (h : Skipped line) (values : Values)
    (lines : List Bytes) : loadLines values (line :: lines) = loadLines values lines := by
  rw [loadLines]
  exact if_pos h

theorem assigns_iff {line front back : Bytes} (hline : ¬Skipped line)
    (hcut : trim line = front ++ 61 :: back) (hfront : 61 ∉ front) (key value : Bytes) :
    Assigns line key value ↔ trim front ≠ [] ∧ key = trim front ∧ value = trim back := by
  constructor
  · rintro ⟨-, front', back', hcut', hfront', hkey, rfl, rfl⟩
    obtain ⟨rfl, hback⟩ : front' = front ∧ back' = back := by
      have h := StringPositions.idxOf?_append hfront back
      rw [← hcut, hcut', StringPositions.idxOf?_append hfront', Option.some.injEq] at h
      rw [hcut'] at hcut
      obtain ⟨hfronts, hbacks⟩ := List.append_inj hcut h
      exact ⟨hfronts, (List.cons.inj hbacks).2⟩
    rw [hback]
    exact ⟨hkey, rfl, rfl⟩
  · rintro ⟨hkey, rfl, rfl⟩
    exact ⟨hline, front, back, hcut, hfront, hkey, rfl, rfl⟩

/-- A line that is not skipped is cut at its first equals sign, or it has none. -/
theorem loadLines_cut {line front back : Bytes} (hline : ¬Skipped line)
    (hcut : trim line = front ++ 61 :: back) (hfront : 61 ∉ front) (values : Values)
    (lines : List Bytes) : loadLines values (line :: lines) =
      if trim front = [] then none
      else loadLines (Function.update values (trim front) (some (trim back))) lines := by
  have htake : (trim line).take front.length = front := by rw [hcut, List.take_left]
  have hdrop : (trim line).drop (front.length + 1) = back := by
    rw [hcut, List.append_cons]
    exact List.drop_left' (by simp)
  have hfind : (trim line).idxOf? 61 = some front.length := by
    rw [hcut, StringPositions.idxOf?_append hfront]
  rw [loadLines]
  simp only [hfind, htake, hdrop]
  exact if_neg hline

theorem loadLines_none {line : Bytes} (hline : ¬Skipped line) (hnone : 61 ∉ trim line)
    (values : Values) (lines : List Bytes) : loadLines values (line :: lines) = none := by
  have hfind : (trim line).idxOf? 61 = none := List.idxOf?_eq_none_iff.mpr hnone
  rw [loadLines]
  simp only [hfind]
  exact if_neg hline

/-- What a line is to the loop: it is passed over, it assigns one value to one key, or the file is
refused. -/
theorem line_cases (line : Bytes) :
    ((∀ key value, ¬Assigns line key value) ∧ Skipped line ∧
      ∀ values lines, loadLines values (line :: lines) = loadLines values lines) ∨
    (∃ key value, (∀ k v, Assigns line k v ↔ k = key ∧ v = value) ∧
      ∀ values lines, loadLines values (line :: lines) =
        loadLines (Function.update values key (some value)) lines) ∨
    ((∀ key value, ¬Assigns line key value) ∧ ¬Skipped line ∧
      ∀ values lines, loadLines values (line :: lines) = none) := by
  by_cases hline : Skipped line
  · refine .inl ⟨?_, hline, loadLines_skipped hline⟩
    intro key value h
    exact h.1 hline
  · rcases cut_cases 61 (trim line) with hnone | ⟨front, back, hfront, hcut⟩
    · refine .inr (.inr ⟨?_, hline, loadLines_none hline hnone⟩)
      rintro key value ⟨-, front, back, hcut, -⟩
      exact hnone (by simp [hcut])
    · by_cases hkey : trim front = []
      · refine .inr (.inr ⟨?_, hline, ?_⟩)
        · intro key value h
          exact ((assigns_iff hline hcut hfront key value).mp h).1 hkey
        · intro values lines
          rw [loadLines_cut hline hcut hfront, if_pos hkey]
      · refine .inr (.inl ⟨trim front, trim back, ?_, ?_⟩)
        · intro key value
          rw [assigns_iff hline hcut hfront, and_iff_right hkey]
        · intro values lines
          rw [loadLines_cut hline hcut hfront, if_neg hkey]

theorem loadLines_spec (values : Values) (lines : List Bytes) :
    match loadLines values lines with
    | some loaded => (∀ line ∈ lines, Skipped line ∨ ∃ key value, Assigns line key value) ∧
        Updated Assigns values lines loaded
    | none => ∃ line ∈ lines, ¬Skipped line ∧ ∀ key value, ¬Assigns line key value := by
  induction lines generalizing values with
  | nil => exact ⟨fun _ hline => absurd hline List.not_mem_nil, updated_nil values⟩
  | cons line lines ih =>
    rcases line_cases line with
      ⟨hnot, hskip, hload⟩ | ⟨key, value, hassigns, hload⟩ | ⟨hnot, hline, hload⟩
    · rw [hload values lines]
      specialize ih values
      cases hlines : loadLines values lines with
      | none =>
        rw [hlines] at ih
        obtain ⟨bad, hbad, hbadLine⟩ := ih
        exact ⟨bad, List.mem_cons_of_mem line hbad, hbadLine⟩
      | some loaded =>
        rw [hlines] at ih
        exact ⟨List.forall_mem_cons.mpr ⟨.inl hskip, ih.1⟩, ih.2.skip hnot⟩
    · rw [hload values lines]
      specialize ih (Function.update values key (some value))
      cases hlines : loadLines (Function.update values key (some value)) lines with
      | none =>
        rw [hlines] at ih
        obtain ⟨bad, hbad, hbadLine⟩ := ih
        exact ⟨bad, List.mem_cons_of_mem line hbad, hbadLine⟩
      | some loaded =>
        rw [hlines] at ih
        have hline : Assigns line key value := (hassigns key value).mpr ⟨rfl, rfl⟩
        exact ⟨List.forall_mem_cons.mpr ⟨.inr ⟨key, value, hline⟩, ih.1⟩, ih.2.assign hassigns⟩
    · rw [hload values lines]
      exact ⟨line, List.mem_cons_self, hline, hnot⟩

/-- A file is taken exactly when each of its lines is blank, a comment or an assignment; what is
stored then is for each key its last assignment, and otherwise nothing changes. -/
theorem loadFromFile_exact (values : Values) (content : Bytes) :
    ((loadFromFile values (some content)).1 = true ↔
      ∀ line ∈ getlines content, Skipped line ∨ ∃ key value, Assigns line key value) ∧
    ((loadFromFile values (some content)).1 = true → ∀ key value,
      (loadFromFile values (some content)).2 key = some value ↔
        LastAssigned Assigns (getlines content) key value) ∧
    ((loadFromFile values (some content)).1 = false →
      (loadFromFile values (some content)).2 = values) := by
  have hspec := loadLines_spec (fun _ => none) (getlines content)
  cases hload : loadLines (fun _ => none) (getlines content) with
  | none =>
    have hfile : loadFromFile values (some content) = (false, values) := by
      simp only [loadFromFile, hload]
    rw [hload] at hspec
    obtain ⟨line, hline, hskip, hassigns⟩ := hspec
    rw [hfile]
    refine ⟨⟨Bool.noConfusion, ?_⟩, Bool.noConfusion, fun _ => rfl⟩
    intro hall
    rcases hall line hline with h | ⟨key, value, h⟩
    · exact absurd h hskip
    · exact absurd h (hassigns key value)
  | some loaded =>
    have hfile : loadFromFile values (some content) = (true, loaded) := by
      simp only [loadFromFile, hload]
    rw [hload] at hspec
    rw [hfile]
    refine ⟨⟨fun _ => hspec.1, fun _ => rfl⟩, ?_, Bool.noConfusion⟩
    intro _ key value
    rw [hspec.2 key value]
    constructor
    · rintro (hlast | ⟨-, hnone⟩)
      · exact hlast
      · cases hnone
    · intro hlast
      exact .inl hlast

/-- The value keeps a later equals sign and hash; the second line for the key wins. -/
example : let loaded := loadFromFile (fun _ => none) (some (ascii " a = 1\n#x\n\na=b=c #d\ne="))
    loaded.1 = true ∧ loaded.2 (ascii "a") = some (ascii "b=c #d") ∧
      loaded.2 (ascii "e") = some [] := by decide

end ConfigFiles
