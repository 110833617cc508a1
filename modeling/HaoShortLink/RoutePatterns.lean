import HaoShortLink.Regexes
import HaoShortLink.Routers

/-! Patterns of routes as regular expressions: which paths match, and what the parameters are. -/
namespace RoutePatterns

open Cpp Regexes Routers

/-- The parameters of a pattern become groups, the rest of it is taken as it is. Nothing for a
pattern that std::regex refuses, and for one that uses what Regexes does not read, as /[a-z],
/a{2}, /a] and /\d do: these std::regex accepts. -/
def convertToRegex (pathPattern : Bytes) : Option Expression := do
  let parameter ← compile (ascii "/:([^/]+)")
  compile (ascii "^" ++ parameter.replace (ascii "/([^/]+)") pathPattern ++ ascii "$")

/-- No character of a literal has a meaning in regular expressions. -/
def Ordinary : Segment → Prop
  | .literal text => ∀ c ∈ text, c ∉ special
  | .parameter => True

instance : DecidablePred Ordinary := fun segment =>
  match segment with
  | .literal text => List.decidableBAll _ text
  | .parameter => inferInstanceAs (Decidable True)

def Plain (pathPattern : Bytes) : Prop :=
  ∀ segment ∈ Routers.convertToRegex pathPattern, Ordinary segment

instance (pathPattern : Bytes) : Decidable (Plain pathPattern) :=
  inferInstanceAs (Decidable (∀ segment ∈ Routers.convertToRegex pathPattern, Ordinary segment))

def notSlash : Regex := .set true [47]

def slashless : Regex := .seqAll [.plus notSlash]

theorem allows_notSlash (c : UInt8) : allows true [47] c = (c != 47) := by
  by_cases hc : c = 47 <;> simp [allows, hc]

def parameter : Expression :=
  ⟨.seqAll [.char 47, .char 58, .group 1 slashless], 1⟩

theorem compile_parameter : compile (ascii "/:([^/]+)") = some parameter := by decide

def groupText : Bytes := ascii "([^/]+)"

def segmentText : Segment → Bytes
  | .literal text => text
  | .parameter => groupText

def segmentOf : Bytes → Segment
  | 58 :: _ :: _ => .parameter
  | text => .literal text

theorem segmentOf_colon {name : Bytes} (h : name ≠ []) : segmentOf (58 :: name) = .parameter := by
  obtain ⟨c, name, rfl⟩ := List.exists_cons_of_ne_nil h
  simp only [segmentOf]

theorem segmentOf_other {c : UInt8} (h : c ≠ 58) (text : Bytes) :
    segmentOf (c :: text) = .literal (c :: text) := by
  unfold segmentOf
  split
  · next heq => exact absurd (List.cons.inj heq).1 h
  · rfl

theorem convertToRegex_cons {pattern first : Bytes} {parts : List Bytes}
    (h : pattern.splitOn 47 = first :: parts) :
    Routers.convertToRegex pattern = .literal first :: parts.map segmentOf := by
  simp only [Routers.convertToRegex, h]
  congr

theorem ways_seqAll_singleton (r : Regex) (s : State) : ways (.seqAll [r]) s = ways r s := by
  simp [Regex.seqAll, ways]

theorem ways_seqAll_cons (r : Regex) (atoms : List Regex) (s : State) :
    ways (.seqAll (r :: atoms)) s = (ways r s).flatMap (ways (.seqAll atoms)) := by
  simp [Regex.seqAll, ways]

theorem head?_slashless (s : State) : (ways slashless s).head?.map State.rest =
    if s.rest.takeWhile (· != 47) = [] then none else some (s.rest.dropWhile (· != 47)) := by
  have hallows : allows true [47] = (· != 47) := funext allows_notSlash
  rw [slashless, ways_seqAll_singleton, Regex.plus, ways, notSlash]
  rcases hrest : s.rest with _ | ⟨c, rest⟩
  · simp [ways, hrest]
  · by_cases hc : c = 47
    · simp [ways, hrest, hc, allows]
    · have hset : ways (.set true [47]) s = [s.take [c] rest] := by
        simp [ways, hrest, hc, allows, State.take]
      rw [hset, List.flatMap_singleton, head?_ways_star_set, hallows]
      simp [hc, State.take]

/-- A parameter is found at a slash with a colon and a name, which goes up to the next slash. -/
theorem head?_parameter (position : ℕ) (c : UInt8) (rest : Bytes) :
    ((ways parameter.regex ⟨position, c :: rest, []⟩).head?).map State.rest =
      match segmentOf (rest.takeWhile (· != 47)) with
      | .parameter => if c = 47 then some (rest.dropWhile (· != 47)) else none
      | .literal _ => none := by
  rw [parameter, ways_seqAll_cons, ways_char]
  by_cases hc : c = 47
  · rw [if_pos hc, List.flatMap_singleton, ways_seqAll_cons]
    rcases rest with _ | ⟨d, rest⟩
    · simp [ways, Regex.char, segmentOf]
    · rw [ways_char]
      by_cases hd : d = 58
      · rw [if_pos hd, List.flatMap_singleton, ways_seqAll_singleton, ways, List.head?_map,
          Option.map_map]
        have hrest : State.rest ∘ State.capture 1 ⟨position + 1 + 1, rest, []⟩ = State.rest := by
          funext t
          simp [State.capture]
        rw [hrest, head?_slashless, hd, List.takeWhile_cons_of_pos (by decide),
          List.dropWhile_cons_of_pos (by decide)]
        dsimp only
        split
        · next hname => simp [hname, segmentOf]
        · next hname => simp [segmentOf_colon hname]
      · rw [if_neg hd, List.flatMap_nil, List.head?_nil, Option.map_none]
        by_cases hslash : d = 47
        · simp [hslash, segmentOf]
        · rw [List.takeWhile_cons_of_pos (by simpa using hslash), segmentOf_other hd]
  · rw [if_neg hc]
    split <;> simp [hc]

theorem replaceFrom_literal {text : Bytes} (h : 47 ∉ text) (format : Bytes) (position : ℕ)
    (rest : Bytes) : ∃ position', parameter.replaceFrom format position (text ++ rest) =
      text ++ parameter.replaceFrom format position' rest := by
  induction text generalizing position with
  | nil => exact ⟨position, rfl⟩
  | cons c text ih =>
    obtain ⟨hc, htext⟩ := not_or.mp (List.mem_cons.not.mp h)
    obtain ⟨position', hih⟩ := ih htext (position + 1)
    have hhead := head?_parameter position c (text ++ rest)
    simp only [if_neg (Ne.symm hc)] at hhead
    have hnone : (ways parameter.regex ⟨position, c :: (text ++ rest), []⟩).head? = none := by
      rw [← Option.map_eq_none_iff (f := State.rest), hhead]
      split <;> simp
    refine ⟨position', ?_⟩
    rw [List.cons_append, Expression.replaceFrom, hnone]
    simp only [hih, List.cons_append]

theorem segmentOf_eq_literal {part text : Bytes} (h : segmentOf part = .literal text) :
    text = part := by
  unfold segmentOf at h
  split at h
  · cases h
  · exact (Segment.literal.inj h).symm

theorem cut_part {part : Bytes} (h : 47 ∉ part) (parts : List Bytes) :
    (part ++ parts.flatMap (47 :: ·)).takeWhile (· != 47) = part ∧
      (part ++ parts.flatMap (47 :: ·)).dropWhile (· != 47) = parts.flatMap (47 :: ·) := by
  have hpart := List.takeWhile_eq_self_iff.mp (takeWhile_ne h)
  rw [List.takeWhile_append_of_pos hpart, List.dropWhile_append_of_pos hpart]
  cases parts with
  | nil => simp
  | cons next parts => simp

theorem replaceFrom_parts {parts : List Bytes} (h : ∀ part ∈ parts, 47 ∉ part) (position : ℕ) :
    parameter.replaceFrom (ascii "/([^/]+)") position (parts.flatMap (47 :: ·)) =
      (parts.map segmentOf).flatMap fun segment => 47 :: segmentText segment := by
  induction parts generalizing position with
  | nil => simp [Expression.replaceFrom]
  | cons part parts ih =>
    have hpart := h part List.mem_cons_self
    have hparts : ∀ part ∈ parts, 47 ∉ part := fun p hp => h p (List.mem_cons_of_mem part hp)
    obtain ⟨htake, hdrop⟩ := cut_part hpart parts
    have hhead := head?_parameter position 47 (part ++ parts.flatMap (47 :: ·))
    rw [htake, hdrop] at hhead
    rw [List.flatMap_cons, List.cons_append, Expression.replaceFrom, List.map_cons,
      List.flatMap_cons]
    cases hsegment : segmentOf part with
    | parameter =>
      rw [hsegment] at hhead
      obtain ⟨t, ht, hrest⟩ := Option.map_eq_some_iff.mp hhead
      have hformat : ascii "/([^/]+)" = 47 :: groupText := by decide
      rw [ht]
      simp only [hrest, List.length_append, Nat.le_add_left, if_true, ih hparts]
      rw [hformat]
      simp only [segmentText]
    | literal text =>
      rw [hsegment, Option.map_eq_none_iff] at hhead
      obtain ⟨position', hpass⟩ := replaceFrom_literal hpart (ascii "/([^/]+)") (position + 1)
        (parts.flatMap (47 :: ·))
      rw [hhead]
      simp only [hpass, ih hparts, segmentText, segmentOf_eq_literal hsegment, List.cons_append]

theorem exists_parts (path : Bytes) : ∃ (first : Bytes) (parts : List Bytes),
    path = first ++ parts.flatMap (47 :: ·) ∧ 47 ∉ first ∧ ∀ part ∈ parts, 47 ∉ part := by
  induction path with
  | nil => exact ⟨[], [], by simp⟩
  | cons c path ih =>
    obtain ⟨first, parts, hpath, hfirst, hparts⟩ := ih
    by_cases hc : c = 47
    · exact ⟨[], first :: parts, by simp [hc, hpath], by simp, by simpa using ⟨hfirst, hparts⟩⟩
    · exact ⟨c :: first, parts, by simp [hpath], by simpa [Ne.symm hc] using hfirst, hparts⟩

theorem splitOn_parts {first : Bytes} {parts : List Bytes} (hfirst : 47 ∉ first)
    (hparts : ∀ part ∈ parts, 47 ∉ part) :
    (first ++ parts.flatMap (47 :: ·)).splitOn 47 = first :: parts := by
  induction parts generalizing first with
  | nil => simp [List.splitOn_eq_singleton hfirst]
  | cons part parts ih =>
    rw [List.flatMap_cons, List.cons_append, List.splitOn_append_cons_self_of_not_mem hfirst,
      ih (hparts part List.mem_cons_self) fun p hp => hparts p (List.mem_cons_of_mem part hp)]

theorem splitOn_eq_cons_iff {path first : Bytes} {parts : List Bytes} :
    path.splitOn 47 = first :: parts ↔
      path = first ++ parts.flatMap (47 :: ·) ∧ 47 ∉ first ∧ ∀ part ∈ parts, 47 ∉ part := by
  constructor
  · intro h
    obtain ⟨first', parts', hpath, hfirst, hparts⟩ := exists_parts path
    rw [hpath, splitOn_parts hfirst hparts] at h
    obtain ⟨hf, hp⟩ := List.cons.inj h
    rw [← hf, ← hp]
    exact ⟨hpath, hfirst, hparts⟩
  · intro h
    obtain ⟨hpath, hfirst, hparts⟩ := h
    rw [hpath, splitOn_parts hfirst hparts]

theorem replace_pattern {pattern first : Bytes} {parts : List Bytes}
    (h : pattern.splitOn 47 = first :: parts) :
    parameter.replace (ascii "/([^/]+)") pattern =
      first ++ (parts.map segmentOf).flatMap fun segment => 47 :: segmentText segment := by
  obtain ⟨hpattern, hfirst, hparts⟩ := splitOn_eq_cons_iff.mp h
  obtain ⟨position, hpass⟩ := replaceFrom_literal hfirst (ascii "/([^/]+)") 0
    (parts.flatMap (47 :: ·))
  rw [Expression.replace, hpattern, hpass, replaceFrom_parts hparts]

/-- The groups when another segment has been read. -/
def groupsWith (n : ℕ) : Segment → ℕ
  | .literal _ => n
  | .parameter => n + 1

def segmentAtoms (n : ℕ) : Segment → List Regex
  | .literal text => .char 47 :: text.map .char
  | .parameter => [.char 47, .group (n + 1) slashless]

/-- The atoms behind the first literal, when n groups have been opened. -/
def atomsOf : ℕ → List Segment → List Regex
  | _, [] => []
  | n, segment :: segments => segmentAtoms n segment ++ atomsOf (groupsWith n segment) segments

def expressionOf (first : Bytes) (segments : List Segment) : Expression :=
  ⟨.seqAll (.bol :: first.map .char ++ atomsOf 0 segments ++ [.eol]),
    segments.count .parameter⟩

theorem fold_group {p : Parser} {atoms : List Regex} {n : ℕ} (h : p.At atoms n) :
    ∃ p', groupText.foldlM Parser.step p = some p' ∧
      p'.At (atoms ++ [.group (n + 1) slashless]) (n + 1) := by
  obtain ⟨frame, outer, groups, mode, repeatable⟩ := p
  obtain ⟨hframe, houter, hgroups, hmode⟩ := h
  simp only at hframe houter hgroups hmode
  subst hframe houter hgroups hmode
  exact ⟨_, rfl, rfl, rfl, rfl, rfl⟩

theorem slash_ordinary : 47 ∉ special := by decide

theorem fold_segments {p : Parser} {atoms : List Regex} {n : ℕ} (h : p.At atoms n)
    {segments : List Segment}
    (hplain : ∀ segment ∈ segments, Ordinary segment) :
    ∃ p', (segments.flatMap fun segment => 47 :: segmentText segment).foldlM Parser.step p =
        some p' ∧ p'.At (atoms ++ atomsOf n segments) (n + segments.count .parameter) := by
  induction segments generalizing p atoms n with
  | nil => exact ⟨p, rfl, by simpa [atomsOf] using h⟩
  | cons segment segments ih =>
    have hslash := h.add (.char 47) true
    have hrest : ∀ segment ∈ segments, Ordinary segment :=
      fun segment hmem => hplain segment (List.mem_cons_of_mem _ hmem)
    rw [List.flatMap_cons, List.cons_append, List.foldlM_cons, h.ordinary slash_ordinary,
      Option.bind_eq_bind, Option.bind_some]
    simp only [List.foldlM_append]
    cases segment with
    | literal text =>
      obtain ⟨p₁, hfold₁, hat₁⟩ := hslash.text (hplain (.literal text) List.mem_cons_self)
      obtain ⟨p₂, hfold₂, hat₂⟩ := ih hat₁ hrest
      refine ⟨p₂, ?_, ?_⟩
      · rw [segmentText, hfold₁]
        exact hfold₂
      · simpa [atomsOf, segmentAtoms, groupsWith] using hat₂
    | parameter =>
      obtain ⟨p₁, hfold₁, hat₁⟩ := fold_group hslash
      obtain ⟨p₂, hfold₂, hat₂⟩ := ih hat₁ hrest
      refine ⟨p₂, ?_, ?_⟩
      · rw [segmentText, hfold₁]
        exact hfold₂
      · simpa [atomsOf, segmentAtoms, groupsWith, Nat.add_assoc, Nat.add_comm 1] using hat₂

theorem convertToRegex_plain {pattern first : Bytes} {parts : List Bytes}
    (h : pattern.splitOn 47 = first :: parts) (hplain : Plain pattern) :
    convertToRegex pattern = some (expressionOf first (parts.map segmentOf)) := by
  have hsegments := convertToRegex_cons h
  have hbol : ascii "^" = [94] := by decide
  have heol : ascii "$" = [36] := by decide
  have hstart : (Parser.start.add .bol false).At [.bol] 0 := Parser.at_start.add .bol false
  have hplainFirst := hplain (.literal first) (hsegments ▸ List.mem_cons_self)
  have hplainRest : ∀ segment ∈ parts.map segmentOf, Ordinary segment :=
    fun segment hmem => hplain segment (hsegments ▸ List.mem_cons_of_mem _ hmem)
  obtain ⟨p₁, hfold₁, hat₁⟩ := hstart.text hplainFirst
  obtain ⟨p₂, hfold₂, hat₂⟩ := fold_segments hat₁ hplainRest
  have hend := (hat₂.add .eol false).finish
  have hfirst : Parser.start.step 94 = some (Parser.start.add .bol false) := by decide
  have hlast : p₂.step 36 = some (p₂.add .eol false) := by
    simp [Parser.step, hat₂.mode]
  rw [convertToRegex, compile_parameter, Option.bind_eq_bind, Option.bind_some, replace_pattern h,
    hbol, heol, compile]
  simp only [List.foldlM_append, List.foldlM_cons, List.foldlM_nil, Option.bind_eq_bind,
    Option.bind_some, Option.pure_def, hfirst, hfold₁, hfold₂, hlast, hend]
  simp [expressionOf]

def Fits : Segment → Bytes → Prop
  | .literal text, part => part = text
  | .parameter, part => part ≠ [] ∧ 47 ∉ part

def valuesOf (segments : List Segment) (parts : List Bytes) : List Bytes :=
  ((segments.zip parts).filter (·.1 == .parameter)).map Prod.snd

/-- The captures of the groups from n + 1 on. -/
def captured (n : ℕ) (values : List Bytes) : List (ℕ × Bytes) :=
  ((values.zipIdx (n + 1)).map fun v => (v.2, v.1)).reverse

theorem mem_ways_slashless {s t : State} : t ∈ ways slashless s ↔
    ∃ taken rest, (taken ≠ [] ∧ 47 ∉ taken) ∧ s.rest = taken ++ rest ∧ t = s.take taken rest := by
  rw [slashless, ways_seqAll_singleton, notSlash, mem_ways_plus_set]
  have hall : ∀ taken : Bytes, (∀ c ∈ taken, allows true [47] c) ↔ 47 ∉ taken := by
    intro taken
    simp only [allows_notSlash, bne_iff_ne]
    constructor
    · intro h hmem
      exact h 47 hmem rfl
    · intro h c hc heq
      exact h (heq ▸ hc)
  simp only [hall, and_assoc]

def captures (n : ℕ) (part : Bytes) : Segment → List (ℕ × Bytes)
  | .literal _ => []
  | .parameter => [(n + 1, part)]

theorem captured_cons (n : ℕ) (segment : Segment) (segments : List Segment) (part : Bytes)
    (parts : List Bytes) : captured n (valuesOf (segment :: segments) (part :: parts)) =
      captured (groupsWith n segment) (valuesOf segments parts) ++ captures n part segment := by
  cases segment with
  | literal text => simp [valuesOf, groupsWith, captures]
  | parameter => simp [valuesOf, groupsWith, captures, captured]

theorem mem_ways_segment {segment : Segment} {n : ℕ} {s t : State} :
    t ∈ ways (.seqAll (segmentAtoms n segment)) s ↔ ∃ part : Bytes, Fits segment part ∧
      s.rest = 47 :: part ++ t.rest ∧ t.captures = captures n part segment ++ s.captures ∧
        t.position = s.position + (47 :: part).length := by
  cases segment with
  | literal text =>
    rw [segmentAtoms, ← List.map_cons, mem_ways_chars]
    constructor
    · intro h
      obtain ⟨rest, hrest, ht⟩ := h
      rw [ht]
      exact ⟨text, rfl, hrest, rfl, rfl⟩
    · intro h
      obtain ⟨part, hpart, hrest, hcaptures, hposition⟩ := h
      obtain rfl : part = text := hpart
      refine ⟨t.rest, hrest, ?_⟩
      rw [State.take, ← hposition, ← List.nil_append s.captures, ← captures, ← hcaptures]
  | parameter =>
    simp only [segmentAtoms, mem_ways_seqAll_cons, mem_ways_char, mem_ways_group,
      mem_ways_slashless, ways_seqAll_singleton]
    constructor
    · intro h
      obtain ⟨u, ⟨rest, hs, hu⟩, v, ⟨taken, rest', htaken, hrest, hv⟩, ht⟩ := h
      rw [hv, State.capture_take hrest] at ht
      rw [hu] at hrest ht
      rw [ht]
      refine ⟨taken, htaken, ?_, by simp [captures, State.take], ?_⟩
      · rw [hs]
        exact congrArg (47 :: ·) hrest
      · simp [State.take, Nat.add_comm, Nat.add_left_comm]
    · intro h
      obtain ⟨taken, htaken, hs, hcaptures, hposition⟩ := h
      refine ⟨s.take [47] (taken ++ t.rest), ⟨taken ++ t.rest, hs, rfl⟩, _,
        ⟨taken, t.rest, htaken, rfl, rfl⟩, ?_⟩
      rw [State.capture_take rfl]
      obtain ⟨position, rest, captured⟩ := t
      simp only at hcaptures hposition
      simp [hcaptures, hposition, captures, State.take, Nat.add_comm, Nat.add_left_comm]

theorem mem_ways_atomsOf {segments : List Segment} {n : ℕ} {s t : State} :
    t ∈ ways (.seqAll (atomsOf n segments)) s ↔ ∃ parts : List Bytes,
      List.Forall₂ Fits segments parts ∧ s.rest = parts.flatMap (47 :: ·) ++ t.rest ∧
        t.captures = captured n (valuesOf segments parts) ++ s.captures ∧
        t.position = s.position + (parts.flatMap (47 :: ·)).length := by
  induction segments generalizing n s with
  | nil =>
    simp only [atomsOf, Regex.seqAll, List.foldr_nil, ways, List.mem_singleton]
    constructor
    · intro h
      rw [h]
      exact ⟨[], .nil, by simp, by simp [captured, valuesOf], by simp⟩
    · intro h
      obtain ⟨parts, hfits, hrest, hcaptures, hposition⟩ := h
      cases hfits
      obtain ⟨position, rest, captures⟩ := t
      obtain ⟨position', rest', captures'⟩ := s
      simp only [List.flatMap_nil, List.nil_append, List.length_nil] at hrest hposition
      simpa [hrest, hposition, captured, valuesOf] using hcaptures
  | cons segment segments ih =>
    rw [atomsOf, mem_ways_seqAll_append]
    simp only [mem_ways_segment, ih]
    constructor
    · intro h
      obtain ⟨u, ⟨part, hpart, hs, hu, hup⟩, parts, hparts, hrest, ht, htp⟩ := h
      refine ⟨part :: parts, .cons hpart hparts, ?_, ?_, ?_⟩
      · rw [hs, hrest, List.flatMap_cons, List.append_assoc]
      · rw [ht, hu, captured_cons, List.append_assoc]
      · rw [htp, hup, List.flatMap_cons, List.length_append, Nat.add_assoc]
    · intro h
      obtain ⟨parts', hfits, hrest, hcaptures, hposition⟩ := h
      cases hfits with
      | @cons _ part _ parts hpart hparts =>
        refine ⟨⟨s.position + (47 :: part).length, parts.flatMap (47 :: ·) ++ t.rest,
          captures n part segment ++ s.captures⟩, ⟨part, hpart, ?_, rfl, rfl⟩, parts, hparts, rfl,
          ?_, ?_⟩
        · rw [hrest, List.flatMap_cons, List.append_assoc]
        · rw [hcaptures, captured_cons, List.append_assoc]
        · rw [hposition, List.flatMap_cons, List.length_append, Nat.add_assoc]

theorem mem_ways_bol {s t : State} (h : s.position = 0) : t ∈ ways .bol s ↔ t = s := by
  simp [ways, h]

theorem mem_ways_eol {s t : State} : t ∈ ways .eol s ↔ t = s ∧ s.rest = [] := by
  by_cases h : s.rest = [] <;> simp [ways, h]

theorem mem_ways_expressionOf {first path : Bytes} {segments : List Segment} {t : State} :
    t ∈ ways (expressionOf first segments).regex (.start path) ↔
      ∃ parts : List Bytes, List.Forall₂ Fits segments parts ∧
        path = first ++ parts.flatMap (47 :: ·) ∧
        t = ⟨path.length, [], captured 0 (valuesOf segments parts)⟩ := by
  have hstart : (State.start path).position = 0 := rfl
  simp only [expressionOf, List.cons_append, mem_ways_seqAll_cons, mem_ways_seqAll_append,
    ways_seqAll_singleton, mem_ways_bol hstart, mem_ways_chars, mem_ways_atomsOf, mem_ways_eol]
  constructor
  · intro h
    obtain ⟨_, rfl, v, ⟨u, ⟨rest, hpath, hu⟩, parts, hparts, hrest, hcaptures, hposition⟩, ht,
      hend⟩ := h
    simp only [hu, State.take, State.start, hend,
      List.append_nil] at hpath hrest hcaptures hposition
    rw [hrest] at hpath
    refine ⟨parts, hparts, hpath, ?_⟩
    obtain ⟨position, rest', captures'⟩ := v
    simp only at hend hcaptures hposition
    simp [ht, hend, hcaptures, hposition, hpath]
  · intro h
    obtain ⟨parts, hparts, hpath, ht⟩ := h
    refine ⟨_, rfl, t, ⟨_, ⟨parts.flatMap (47 :: ·), hpath, rfl⟩, parts, hparts, ?_, ?_, ?_⟩,
      rfl, ?_⟩
    · simp [ht, State.take]
    · simp [ht, State.take, State.start]
    · simp [ht, State.take, State.start, hpath]
    · rw [ht]

theorem captured_snoc (values : List Bytes) (value : Bytes) :
    captured 0 (values ++ [value]) = (values.length + 1, value) :: captured 0 values := by
  simp [captured, List.zipIdx_append, Nat.add_comm]

theorem group_captured (values : List Bytes) {i : ℕ} (h : i < values.length) (position : ℕ)
    (rest : Bytes) : State.group (i + 1) ⟨position, rest, captured 0 values⟩ = values[i] := by
  induction values using List.reverseRecOn with
  | nil => cases h
  | append_singleton values value ih =>
    rw [State.group, captured_snoc]
    by_cases hi : i = values.length
    · simp [hi]
    · rw [List.length_append, List.length_singleton] at h
      have hlt : i < values.length := by omega
      rw [List.getElem_append_left hlt, ← ih hlt, State.group]
      simp [Ne.symm hi]

theorem length_valuesOf {segments : List Segment} {parts : List Bytes}
    (h : List.Forall₂ Fits segments parts) :
    (valuesOf segments parts).length = segments.count .parameter := by
  induction h with
  | nil => rfl
  | @cons segment part segments parts _ _ ih =>
    cases segment with
    | literal text => simpa [valuesOf] using ih
    | parameter => simpa [valuesOf] using ih

theorem groups_captured (values : List Bytes) (position : ℕ) (rest : Bytes) :
    (List.range values.length).map
      (fun i => State.group (i + 1) ⟨position, rest, captured 0 values⟩) = values := by
  apply List.ext_getElem
  · simp
  · intro i _ hi
    rw [List.getElem_map, List.getElem_range, group_captured values hi]

theorem slashless_parts {segments : List Segment} {parts : List Bytes}
    (h : List.Forall₂ Fits segments parts)
    (hliterals : ∀ text, .literal text ∈ segments → 47 ∉ text) : ∀ part ∈ parts, 47 ∉ part := by
  induction h with
  | nil => simp
  | @cons segment part segments parts hpart _ ih =>
    intro p hp
    rcases List.mem_cons.mp hp with heq | hp
    · rw [heq]
      cases segment with
      | literal text =>
        obtain rfl : part = text := hpart
        exact hliterals part List.mem_cons_self
      | parameter => exact hpart.2
    · exact ih (fun text hmem => hliterals text (List.mem_cons_of_mem _ hmem)) p hp

/-- A path matches when its parts fit, and the groups are the parts for the parameters. -/
theorem matchAll_expressionOf {first : Bytes} {segments : List Segment} (hfirst : 47 ∉ first)
    (hliterals : ∀ text, .literal text ∈ segments → 47 ∉ text) (path : Bytes)
    (values : List Bytes) : (expressionOf first segments).matchAll path = some values ↔
      ∃ parts, path.splitOn 47 = first :: parts ∧ List.Forall₂ Fits segments parts ∧
        values = valuesOf segments parts := by
  have hgroups : (expressionOf first segments).groups = segments.count .parameter := rfl
  rw [Expression.matchAll, Option.map_eq_some_iff, hgroups]
  constructor
  · intro h
    obtain ⟨t, hfind, hvalues⟩ := h
    obtain ⟨parts, hparts, hpath, ht⟩ :=
      mem_ways_expressionOf.mp (List.mem_of_find?_eq_some hfind)
    refine ⟨parts, splitOn_eq_cons_iff.mpr ⟨hpath, hfirst, slashless_parts hparts hliterals⟩,
      hparts, ?_⟩
    rw [← hvalues, ht, ← length_valuesOf hparts, groups_captured]
  · intro h
    obtain ⟨parts, hsplit, hparts, hvalues⟩ := h
    have hpath := (splitOn_eq_cons_iff.mp hsplit).1
    have hway : (⟨path.length, [], captured 0 (valuesOf segments parts)⟩ : State) ∈
        ways (expressionOf first segments).regex (.start path) :=
      mem_ways_expressionOf.mpr ⟨parts, hparts, hpath, rfl⟩
    obtain ⟨t, hfind⟩ : ∃ t, (ways (expressionOf first segments).regex (.start path)).find?
        (fun t => decide (t.rest = [])) = some t := by
      rw [← Option.isSome_iff_exists, List.find?_isSome]
      exact ⟨_, hway, by simp⟩
    -- another way to match would cut the path elsewhere
    obtain ⟨parts', hparts', hpath', ht⟩ :=
      mem_ways_expressionOf.mp (List.mem_of_find?_eq_some hfind)
    have hsplit' := splitOn_eq_cons_iff.mpr
      ⟨hpath', hfirst, slashless_parts hparts' hliterals⟩
    obtain rfl : parts = parts' := (List.cons.inj (hsplit.symm.trans hsplit')).2
    refine ⟨t, hfind, ?_⟩
    rw [hvalues, ht, ← length_valuesOf hparts, groups_captured]

theorem matchSegments_eq_some_iff {segments : List Segment} {parts : List Bytes}
    (hparts : ∀ part ∈ parts, 47 ∉ part) (values : List Bytes) :
    matchSegments segments parts = some values ↔
      List.Forall₂ Fits segments parts ∧ values = valuesOf segments parts := by
  induction segments generalizing parts values with
  | nil =>
    cases parts with
    | nil => simp [matchSegments, valuesOf, eq_comm]
    | cons part parts =>
      have hlonger : ¬List.Forall₂ Fits [] (part :: parts) := by
        intro h
        cases h
      simp [matchSegments, hlonger]
  | cons segment segments ih =>
    cases parts with
    | nil =>
      have hshorter : ¬List.Forall₂ Fits (segment :: segments) [] := by
        intro h
        cases h
      cases segment <;> simp [matchSegments, hshorter]
    | cons part parts =>
      have hslashless : ∀ p ∈ parts, 47 ∉ p :=
        fun p hp => hparts p (List.mem_cons_of_mem part hp)
      have hrest := ih hslashless
      cases segment with
      | literal text =>
        simp only [matchSegments, List.forall₂_cons, Fits]
        by_cases heq : text = part
        · simp [heq, hrest, valuesOf]
        · simp [heq, Ne.symm heq]
      | parameter =>
        have hpart := hparts part List.mem_cons_self
        simp only [matchSegments, List.forall₂_cons, Fits]
        by_cases hempty : part = []
        · simp [hempty]
        · rw [if_neg hempty, Option.map_eq_some_iff]
          simp only [hrest]
          simp [valuesOf, hempty, hpart, eq_comm]

theorem slashless_splitOn (path : Bytes) : ∀ part ∈ path.splitOn 47, 47 ∉ part := by
  obtain ⟨first, parts, hsplit⟩ := List.exists_cons_of_ne_nil (List.splitOn_ne_nil 47 path)
  obtain ⟨_, hfirst, hparts⟩ := splitOn_eq_cons_iff.mp hsplit
  rw [hsplit]
  simpa using ⟨hfirst, hparts⟩

/-- The path has as many parts as the pattern, and each fits its segment. -/
theorem regexMatch_eq_some_iff {pattern path : Bytes} {values : List Bytes} :
    regexMatch pattern path = some values ↔
      List.Forall₂ Fits (Routers.convertToRegex pattern) (path.splitOn 47) ∧
        values = valuesOf (Routers.convertToRegex pattern) (path.splitOn 47) :=
  matchSegments_eq_some_iff (slashless_splitOn path) values

/-- For a plain pattern the regular expression matches part by part. -/
theorem matchAll_plain {pattern : Bytes} (h : Plain pattern) :
    ∃ e, convertToRegex pattern = some e ∧ ∀ path, e.matchAll path = regexMatch pattern path := by
  obtain ⟨first, parts, hsplit⟩ := List.exists_cons_of_ne_nil (List.splitOn_ne_nil 47 pattern)
  obtain ⟨_, hfirst, hparts⟩ := splitOn_eq_cons_iff.mp hsplit
  refine ⟨_, convertToRegex_plain hsplit h, ?_⟩
  intro path
  have hliterals : ∀ text, .literal text ∈ parts.map segmentOf → 47 ∉ text := by
    intro text hmem
    obtain ⟨part, hpart, hsegment⟩ := List.mem_map.mp hmem
    rw [segmentOf_eq_literal hsegment]
    exact hparts part hpart
  apply Option.ext
  intro values
  rw [regexMatch_eq_some_iff, convertToRegex_cons hsplit,
    matchAll_expressionOf hfirst hliterals path values]
  obtain ⟨pathFirst, pathParts, hpath⟩ :=
    List.exists_cons_of_ne_nil (List.splitOn_ne_nil 47 path)
  rw [hpath, List.forall₂_cons]
  constructor
  · intro hmatch
    obtain ⟨parts', heq, hfits, hvalues⟩ := hmatch
    obtain ⟨hf, hp⟩ := List.cons.inj heq
    rw [← hp] at hfits hvalues
    exact ⟨⟨hf, hfits⟩, by simpa [valuesOf] using hvalues⟩
  · intro hmatch
    obtain ⟨⟨hf, hfits⟩, hvalues⟩ := hmatch
    obtain rfl : pathFirst = first := hf
    exact ⟨pathParts, rfl, hfits, by simpa [valuesOf] using hvalues⟩

/-- A dot in a literal stands for any character. -/
theorem matchAll_dot : ¬ ∀ (pattern : Bytes) (e : Expression), convertToRegex pattern = some e →
    ∀ path, e.matchAll path = regexMatch pattern path := by
  intro h
  have hsplit : (ascii "/a.b").splitOn 47 = [[], ascii "a.b"] := by decide
  have hconvert : convertToRegex (ascii "/a.b") = some
      ⟨.seqAll [.bol, .char 47, .char 97, .any, .char 98, .eol], 0⟩ := by
    rw [convertToRegex, compile_parameter, Option.bind_eq_bind, Option.bind_some,
      replace_pattern hsplit]
    decide
  have hmatch := h _ _ hconvert (ascii "/axb")
  exact absurd hmatch (by decide)

end RoutePatterns
