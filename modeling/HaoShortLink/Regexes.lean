import Mathlib.Data.List.Basic
import Mathlib.Data.List.TakeWhile

/-! Regular expressions in the ECMAScript grammar, without named classes, ranges, escaped letters
and digits, counted or lazy repetition, look-ahead, references to groups and closing brackets that
close nothing: a text that uses these is not read. A match is searched by backtracking: all ways
to match are listed in the order in which they are tried. -/
namespace Regexes

inductive Regex where
  | empty
  /-- One byte that is a member, or one that is not. -/
  | set (negated : Bool) (members : List UInt8)
  | seq (r q : Regex)
  | alt (r q : Regex)
  | star (r : Regex)
  | group (index : ℕ) (r : Regex)
  | bol
  | eol
  deriving DecidableEq, Repr

structure State where
  position : ℕ
  rest : List UInt8
  /-- The latest first. -/
  captures : List (ℕ × List UInt8)
  deriving DecidableEq, Repr

namespace State

def start (text : List UInt8) : State := ⟨0, text, []⟩

def capture (index : ℕ) (before s : State) : State :=
  { s with
    captures := (index, before.rest.take (before.rest.length - s.rest.length)) :: s.captures }

def group (index : ℕ) (s : State) : List UInt8 :=
  ((s.captures.find? (·.1 == index)).map Prod.snd).getD []

end State

/-- Greedy. A repetition that takes nothing is not tried. -/
def repeated (step : State → List State) : ℕ → State → List State
  | 0, s => [s]
  | n + 1, s =>
    ((step s).filter fun t => t.rest.length < s.rest.length).flatMap (repeated step n) ++ [s]

def allows (negated : Bool) (members : List UInt8) (c : UInt8) : Bool :=
  members.contains c != negated

def ways : Regex → State → List State
  | .empty, s => [s]
  | .set negated members, s =>
    match s.rest with
    | [] => []
    | c :: rest =>
      if allows negated members c then [⟨s.position + 1, rest, s.captures⟩] else []
  | .seq r q, s => (ways r s).flatMap (ways q)
  | .alt r q, s => ways r s ++ ways q s
  | .star r, s => repeated (ways r) s.rest.length s
  | .group index r, s => (ways r s).map (State.capture index s)
  | .bol, s => if s.position = 0 then [s] else []
  | .eol, s => if s.rest = [] then [s] else []

namespace Regex

def char (c : UInt8) : Regex := .set false [c]

/-- All but line terminators. -/
def any : Regex := .set true [10, 13]

def plus (r : Regex) : Regex := .seq r (.star r)

def optional (r : Regex) : Regex := .alt r .empty

def seqAll (atoms : List Regex) : Regex := atoms.foldr .seq .empty

end Regex

/-- What has been read of one group: its alternatives before the last bar, and the atoms after. -/
structure Frame where
  alternatives : Option Regex
  atoms : List Regex
  deriving DecidableEq, Repr

def Frame.regex (f : Frame) : Regex :=
  match f.alternatives with
  | none => .seqAll f.atoms
  | some r => .alt r (.seqAll f.atoms)

inductive Mode where
  | plain
  | escaped
  /-- After the bracket that opens a class. -/
  | opening
  | inside (negated : Bool) (members : List UInt8)
  deriving DecidableEq, Repr

structure Parser where
  frame : Frame
  /-- The groups around, from the inside, with their numbers. -/
  outer : List (ℕ × Frame)
  groups : ℕ
  mode : Mode
  /-- The last atom may be repeated. -/
  repeatable : Bool
  deriving DecidableEq, Repr

/-- An expression and the number of its groups. -/
structure Expression where
  regex : Regex
  groups : ℕ
  deriving DecidableEq, Repr

namespace Parser

def start : Parser := ⟨⟨none, []⟩, [], 0, .plain, false⟩

def add (p : Parser) (atom : Regex) (repeatable : Bool) : Parser :=
  { p with
    frame := { p.frame with atoms := p.frame.atoms ++ [atom] }
    mode := .plain
    repeatable := repeatable }

def repeatLast (p : Parser) (f : Regex → Regex) : Option Parser :=
  match p.repeatable, p.frame.atoms.getLast? with
  | true, some atom =>
    some { p with
      frame := { p.frame with atoms := p.frame.atoms.dropLast ++ [f atom] }
      repeatable := false }
  | _, _ => none

def openGroup (p : Parser) : Parser :=
  { p with
    frame := ⟨none, []⟩
    outer := (p.groups + 1, p.frame) :: p.outer
    groups := p.groups + 1
    repeatable := false }

def closeGroup (p : Parser) : Option Parser :=
  match p.outer with
  | [] => none
  | (index, frame) :: outer =>
    some (add { p with frame := frame, outer := outer } (.group index p.frame.regex) true)

def bar (p : Parser) : Parser :=
  { p with frame := ⟨some p.frame.regex, []⟩, repeatable := false }

def classMember (p : Parser) (negated : Bool) (members : List UInt8) (c : UInt8) : Option Parser :=
  if c = 93 then some (p.add (.set negated members) true)
  else if c = 91 ∨ c = 92 ∨ c = 45 then none
  else some { p with mode := .inside negated (members ++ [c]) }

def isAlnum (c : UInt8) : Bool :=
  (48 ≤ c && c ≤ 57) || (65 ≤ c && c ≤ 90) || (97 ≤ c && c ≤ 122)

/-- The characters are ( ) [ ] { } | * + ? ^ $ . and the backslash. -/
def step (p : Parser) (c : UInt8) : Option Parser :=
  match p.mode with
  | .plain =>
    if c = 40 then some p.openGroup
    else if c = 41 then p.closeGroup
    else if c = 91 then some { p with mode := .opening }
    else if c = 92 then some { p with mode := .escaped }
    else if c = 42 then p.repeatLast .star
    else if c = 43 then p.repeatLast .plus
    else if c = 63 then p.repeatLast .optional
    else if c = 124 then some p.bar
    else if c = 94 then some (p.add .bol false)
    else if c = 36 then some (p.add .eol false)
    else if c = 46 then some (p.add .any true)
    else if c = 93 ∨ c = 123 ∨ c = 125 then none
    else some (p.add (.char c) true)
  | .escaped => if isAlnum c then none else some (p.add (.char c) true)
  | .opening =>
    if c = 94 then some { p with mode := .inside true [] } else p.classMember false [] c
  | .inside negated members => p.classMember negated members c

def finish (p : Parser) : Option Expression :=
  if p.mode = .plain ∧ p.outer = [] then some ⟨p.frame.regex, p.groups⟩ else none

end Parser

/-- Nothing for a text that is no expression, or none of those read here. -/
def compile (text : List UInt8) : Option Expression :=
  (text.foldlM Parser.step .start).bind Parser.finish

/-- The whole text matches; the texts of the groups. -/
def Expression.matchAll (e : Expression) (text : List UInt8) : Option (List (List UInt8)) :=
  ((ways e.regex (.start text)).find? (·.rest = [])).map fun t =>
    (List.range e.groups).map fun i => t.group (i + 1)

/-- Every match from the left is replaced. Matches of nothing do not count. -/
def Expression.replaceFrom (e : Expression) (format : List UInt8) (position : ℕ) :
    List UInt8 → List UInt8
  | [] => []
  | c :: text =>
    match (ways e.regex ⟨position, c :: text, []⟩).head? with
    | some t =>
      if t.rest.length ≤ text.length then format ++ e.replaceFrom format t.position t.rest
      else c :: e.replaceFrom format (position + 1) text
    | none => c :: e.replaceFrom format (position + 1) text
termination_by text => text.length

def Expression.replace (e : Expression) (format text : List UInt8) : List UInt8 :=
  e.replaceFrom format 0 text

def State.take (s : State) (taken rest : List UInt8) : State :=
  ⟨s.position + taken.length, rest, s.captures⟩

section Steps

attribute [local simp] ways

theorem mem_ways_set {negated : Bool} {members : List UInt8} {s t : State} :
    t ∈ ways (.set negated members) s ↔
      ∃ c rest, s.rest = c :: rest ∧ allows negated members c ∧ t = s.take [c] rest := by
  rcases hrest : s.rest with _ | ⟨c, rest⟩
  · simp [ways, hrest]
  · by_cases hc : allows negated members c <;> simp [ways, hrest, hc, State.take]

theorem mem_ways_seq {r q : Regex} {s t : State} :
    t ∈ ways (.seq r q) s ↔ ∃ u ∈ ways r s, t ∈ ways q u := by
  rw [ways, List.mem_flatMap]

theorem mem_ways_group {index : ℕ} {r : Regex} {s t : State} :
    t ∈ ways (.group index r) s ↔ ∃ u ∈ ways r s, t = State.capture index s u := by
  rw [ways, List.mem_map]
  constructor
  · intro h
    obtain ⟨u, hu, ht⟩ := h
    exact ⟨u, hu, ht.symm⟩
  · intro h
    obtain ⟨u, hu, ht⟩ := h
    exact ⟨u, hu, ht.symm⟩

end Steps

theorem mem_ways_seqAll_cons {r : Regex} {atoms : List Regex} {s t : State} :
    t ∈ ways (.seqAll (r :: atoms)) s ↔ ∃ u ∈ ways r s, t ∈ ways (.seqAll atoms) u := mem_ways_seq

theorem mem_ways_seqAll_append {a b : List Regex} {s t : State} :
    t ∈ ways (.seqAll (a ++ b)) s ↔ ∃ u ∈ ways (.seqAll a) s, t ∈ ways (.seqAll b) u := by
  induction a generalizing s with
  | nil => simp [Regex.seqAll, ways]
  | cons r a ih =>
    simp only [Regex.seqAll, List.cons_append, List.foldr_cons, mem_ways_seq] at ih ⊢
    simp only [ih]
    constructor
    · intro h
      obtain ⟨u, hu, v, hv, ht⟩ := h
      exact ⟨v, ⟨u, hu, hv⟩, ht⟩
    · intro h
      obtain ⟨v, ⟨u, hu, hv⟩, ht⟩ := h
      exact ⟨u, hu, v, hv, ht⟩

@[simp] theorem State.take_nil (s : State) : s.take [] s.rest = s := by
  simp [State.take]

theorem State.take_take (s : State) (a b rest rest' : List UInt8) :
    (s.take a rest).take b rest' = s.take (a ++ b) rest' := by
  simp [State.take, Nat.add_assoc]

theorem State.capture_take {s : State} {taken rest : List UInt8} (h : s.rest = taken ++ rest)
    (index : ℕ) : State.capture index s (s.take taken rest) =
      ⟨s.position + taken.length, rest, (index, taken) :: s.captures⟩ := by
  simp [State.capture, State.take, h]

theorem mem_repeated_set {negated : Bool} {members : List UInt8} {n : ℕ} {s t : State} :
    t ∈ repeated (ways (.set negated members)) n s ↔
      ∃ taken rest, taken.length ≤ n ∧ (∀ c ∈ taken, allows negated members c) ∧
        s.rest = taken ++ rest ∧ t = s.take taken rest := by
  induction n generalizing s with
  | zero =>
    constructor
    · intro h
      exact ⟨[], s.rest, by simp, by simp, by simp, by simpa [repeated] using h⟩
    · intro h
      obtain ⟨taken, rest, hlength, _, hrest, ht⟩ := h
      obtain rfl := List.eq_nil_of_length_eq_zero (Nat.le_zero.mp hlength)
      rw [List.nil_append] at hrest
      simp [repeated, ht, ← hrest]
  | succ n ih =>
    simp only [repeated, List.mem_append, List.mem_flatMap, List.mem_filter, List.mem_singleton,
      decide_eq_true_eq, mem_ways_set, ih]
    constructor
    · intro h
      rcases h with ⟨u, ⟨⟨c, rest, hs, hc, hu⟩, _⟩, taken, rest', hlength, hall, hrest, ht⟩ | h
      · rw [hu] at hrest ht
        refine ⟨c :: taken, rest', by simpa using hlength, ?_, ?_, ?_⟩
        · simpa [hc] using hall
        · rw [hs, List.cons_append]
          exact congrArg (c :: ·) hrest
        · rw [ht, State.take_take, List.singleton_append]
      · exact ⟨[], s.rest, by simp, by simp, by simp, by simpa using h⟩
    · intro h
      obtain ⟨taken, rest, hlength, hall, hrest, ht⟩ := h
      cases taken with
      | nil =>
        right
        rw [List.nil_append] at hrest
        rw [ht, ← hrest, State.take_nil]
      | cons c taken =>
        left
        refine ⟨s.take [c] (taken ++ rest), ⟨⟨c, taken ++ rest, hrest,
          hall c List.mem_cons_self, rfl⟩, ?_⟩, taken, rest, by simpa using hlength,
          fun d hd => hall d (List.mem_cons_of_mem c hd), rfl, ?_⟩
        · simp [State.take, hrest]
        · rw [ht, State.take_take, List.singleton_append]

/-- A repeated set may take any part from the left of which it allows every byte. -/
theorem mem_ways_star_set {negated : Bool} {members : List UInt8} {s t : State} :
    t ∈ ways (.star (.set negated members)) s ↔
      ∃ taken rest, (∀ c ∈ taken, allows negated members c) ∧ s.rest = taken ++ rest ∧
        t = s.take taken rest := by
  rw [ways, mem_repeated_set]
  constructor
  · intro h
    obtain ⟨taken, rest, _, h⟩ := h
    exact ⟨taken, rest, h⟩
  · intro h
    obtain ⟨taken, rest, hall, hrest, ht⟩ := h
    exact ⟨taken, rest, by simp [hrest], hall, hrest, ht⟩

theorem mem_ways_plus_set {negated : Bool} {members : List UInt8} {s t : State} :
    t ∈ ways (.plus (.set negated members)) s ↔
      ∃ taken rest, taken ≠ [] ∧ (∀ c ∈ taken, allows negated members c) ∧
        s.rest = taken ++ rest ∧ t = s.take taken rest := by
  simp only [Regex.plus, mem_ways_seq, mem_ways_set, mem_ways_star_set]
  constructor
  · intro h
    obtain ⟨u, ⟨c, rest, hs, hc, hu⟩, taken, rest', hall, hrest, ht⟩ := h
    rw [hu] at hrest ht
    refine ⟨c :: taken, rest', List.cons_ne_nil _ _, ?_, ?_, ?_⟩
    · simpa [hc] using hall
    · rw [hs, List.cons_append]
      exact congrArg (c :: ·) hrest
    · rw [ht, State.take_take, List.singleton_append]
  · intro h
    obtain ⟨taken, rest, hne, hall, hrest, ht⟩ := h
    obtain ⟨c, taken, rfl⟩ := List.exists_cons_of_ne_nil hne
    refine ⟨s.take [c] (taken ++ rest), ⟨c, taken ++ rest, hrest, hall c List.mem_cons_self, rfl⟩,
      taken, rest, fun d hd => hall d (List.mem_cons_of_mem c hd), rfl, ?_⟩
    rw [ht, State.take_take, List.singleton_append]

theorem head?_repeated_set (negated : Bool) (members : List UInt8) {n : ℕ} (s : State)
    (hn : s.rest.length ≤ n) :
    (repeated (ways (.set negated members)) n s).head? =
      some (s.take (s.rest.takeWhile (allows negated members))
        (s.rest.dropWhile (allows negated members))) := by
  induction n generalizing s with
  | zero =>
    have hrest : s.rest = [] := List.eq_nil_of_length_eq_zero (Nat.le_zero.mp hn)
    have hs := State.take_nil s
    rw [hrest] at hs
    simp [repeated, hrest, hs]
  | succ n ih =>
    rcases hrest : s.rest with _ | ⟨c, rest⟩
    · have hs := State.take_nil s
      rw [hrest] at hs
      simp [repeated, ways, hrest, hs]
    · by_cases hc : allows negated members c
      · have hstep : (ways (.set negated members) s).filter
            (fun t => t.rest.length < s.rest.length) = [s.take [c] rest] := by
          simp [ways, hrest, hc, State.take]
        have hlength : (s.take [c] rest).rest.length ≤ n := by
          rw [hrest] at hn
          simpa [State.take] using hn
        rw [repeated, hstep, List.flatMap_singleton, List.head?_append, ih _ hlength,
          Option.some_or, State.take_take, List.takeWhile_cons_of_pos hc,
          List.dropWhile_cons_of_pos hc]
        rfl
      · have hstep : ways (.set negated members) s = [] := by
          simp [ways, hrest, hc]
        have hs := State.take_nil s
        rw [hrest] at hs
        rw [repeated, hstep, List.takeWhile_cons_of_neg hc, List.dropWhile_cons_of_neg hc, hs]
        simp

theorem head?_ways_star_set (negated : Bool) (members : List UInt8) (s : State) :
    (ways (.star (.set negated members)) s).head? =
      some (s.take (s.rest.takeWhile (allows negated members))
        (s.rest.dropWhile (allows negated members))) := by
  rw [ways]
  exact head?_repeated_set negated members s (Nat.le_refl _)

theorem ways_char (c d : UInt8) (position : ℕ) (rest : List UInt8)
    (captures : List (ℕ × List UInt8)) :
    ways (.char c) ⟨position, d :: rest, captures⟩ =
      if d = c then [⟨position + 1, rest, captures⟩] else [] := by
  by_cases hd : d = c <;> simp [Regex.char, ways, allows, hd]

theorem mem_ways_char {c : UInt8} {s t : State} :
    t ∈ ways (.char c) s ↔ ∃ rest, s.rest = c :: rest ∧ t = s.take [c] rest := by
  rw [Regex.char, mem_ways_set]
  constructor
  · intro h
    obtain ⟨d, rest, hs, hd, ht⟩ := h
    obtain rfl : d = c := by simpa [allows] using hd
    exact ⟨rest, hs, ht⟩
  · intro h
    obtain ⟨rest, hs, ht⟩ := h
    exact ⟨c, rest, hs, by simp [allows], ht⟩

theorem mem_ways_chars {text : List UInt8} {s t : State} :
    t ∈ ways (.seqAll (text.map .char)) s ↔
      ∃ rest, s.rest = text ++ rest ∧ t = s.take text rest := by
  induction text generalizing s with
  | nil =>
    simp only [List.map_nil, Regex.seqAll, List.foldr_nil, ways, List.mem_singleton,
      List.nil_append]
    constructor
    · intro h
      exact ⟨s.rest, by simp, by simp [h]⟩
    · intro h
      obtain ⟨rest, hrest, ht⟩ := h
      rw [ht, ← hrest, State.take_nil]
  | cons c text ih =>
    simp only [List.map_cons, mem_ways_seqAll_cons, mem_ways_char, ih]
    constructor
    · intro h
      obtain ⟨u, ⟨rest', hs, hu⟩, rest, hrest, ht⟩ := h
      rw [hu] at hrest ht
      refine ⟨rest, ?_, ?_⟩
      · rw [hs, List.cons_append]
        exact congrArg (c :: ·) hrest
      · rw [ht, State.take_take, List.singleton_append]
    · intro h
      obtain ⟨rest, hrest, ht⟩ := h
      refine ⟨s.take [c] (text ++ rest), ⟨text ++ rest, hrest, rfl⟩, rest, rfl, ?_⟩
      rw [ht, State.take_take, List.singleton_append]

def special : List UInt8 := [40, 41, 91, 92, 42, 43, 63, 124, 94, 36, 46, 93, 123, 125]

namespace Parser

/-- Between two atoms, outside of groups. -/
structure At (p : Parser) (atoms : List Regex) (groups : ℕ) : Prop where
  frame : p.frame = ⟨none, atoms⟩
  outer : p.outer = []
  groups : p.groups = groups
  mode : p.mode = .plain

theorem at_start : At start [] 0 := ⟨rfl, rfl, rfl, rfl⟩

variable {p : Parser} {atoms : List Regex} {groups : ℕ}

theorem At.add (h : At p atoms groups) (atom : Regex) (repeatable : Bool) :
    At (p.add atom repeatable) (atoms ++ [atom]) groups :=
  ⟨by simp [Parser.add, h.frame], h.outer, h.groups, rfl⟩

theorem At.ordinary (h : At p atoms groups) {c : UInt8} (hc : c ∉ special) :
    p.step c = some (p.add (.char c) true) := by
  simp only [special, List.mem_cons, List.not_mem_nil, or_false, not_or] at hc
  simp [step, h.mode, hc]

theorem At.text (h : At p atoms groups) {text : List UInt8} (htext : ∀ c ∈ text, c ∉ special) :
    ∃ p', text.foldlM step p = some p' ∧ At p' (atoms ++ text.map .char) groups := by
  induction text generalizing p atoms with
  | nil => exact ⟨p, rfl, by simpa using h⟩
  | cons c text ih =>
    obtain ⟨p', hfold, hat⟩ := ih (h.add (.char c) true)
      fun d hd => htext d (List.mem_cons_of_mem c hd)
    refine ⟨p', ?_, by simpa using hat⟩
    rw [List.foldlM_cons, h.ordinary (htext c List.mem_cons_self)]
    exact hfold

theorem At.finish (h : At p atoms groups) : p.finish = some ⟨.seqAll atoms, groups⟩ := by
  simp [Parser.finish, h.mode, h.outer, h.frame, h.groups, Frame.regex]

end Parser

end Regexes
