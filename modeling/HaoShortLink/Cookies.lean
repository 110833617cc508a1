import HaoShortLink.Cpp

/-! Cookie headers: items between semicolons, each a name and a value with an equals sign between
them. Blanks in front of an item do not count. -/
namespace Cookies

open Cpp

def pair (part : Bytes) : Option (Bytes × Bytes) :=
  let item := part.dropWhile isSpace
  let name := item.takeWhile (· != 61)
  match item.drop name.length with
  | [] => none
  | _ :: value => some (name, value)

def pairs (header : Bytes) : List (Bytes × Bytes) := (header.splitOn 59).filterMap pair

/-- The value of the first one with the name. -/
def firstNamed (name : Bytes) (cookies : List (Bytes × Bytes)) : Option Bytes :=
  (cookies.find? (·.1 == name)).map Prod.snd

def lookup (name header : Bytes) : Option Bytes := firstNamed name (pairs header)

theorem pair_blank {c : UInt8} (h : isSpace c) (part : Bytes) : pair (c :: part) = pair part := by
  rw [pair, List.dropWhile_cons_of_pos h, pair]

theorem pair_nil : pair [] = none := by decide

theorem pair_of_not_mem {part : Bytes} (h : 61 ∉ part) : pair part = none := by
  have hitem : 61 ∉ part.dropWhile isSpace := fun hmem =>
    h ((List.dropWhile_sublist _).mem hmem)
  simp only [pair, takeWhile_ne hitem, List.drop_length]

theorem pair_cut {part name : Bytes} (value : Bytes) (h : 61 ∉ name)
    (hitem : part.dropWhile isSpace = name ++ 61 :: value) : pair part = some (name, value) := by
  simp only [pair, hitem, takeWhile_until h, List.drop_left]

theorem pair_eq_some {part name value : Bytes} (h : pair part = some (name, value)) :
    61 ∉ name ∧ part.dropWhile isSpace = name ++ 61 :: value := by
  rcases cut_cases 61 (part.dropWhile isSpace) with hno | ⟨name', value', hname, hitem⟩
  · simp only [pair, takeWhile_ne hno, List.drop_length] at h
    cases h
  · rw [pair_cut value' hname hitem] at h
    obtain ⟨hn, hv⟩ := Prod.mk.inj (Option.some.inj h)
    rw [← hn, ← hv]
    exact ⟨hname, hitem⟩

theorem pairs_of_not_mem {part : Bytes} (h : 59 ∉ part) : pairs part = (pair part).toList := by
  rw [pairs, List.splitOn_eq_singleton h]
  cases hpair : pair part <;> simp [hpair]

theorem pairs_append {part : Bytes} (h : 59 ∉ part) (rest : Bytes) :
    pairs (part ++ 59 :: rest) = (pair part).toList ++ pairs rest := by
  rw [pairs, List.splitOn_append_cons_self_of_not_mem h]
  cases hpair : pair part <;> simp [hpair, pairs]

theorem pairs_skip (header : Bytes) :
    pairs (header.dropWhile fun c => c == 59 || isSpace c) = pairs header := by
  induction header with
  | nil => simp
  | cons c header ih =>
    by_cases hsemicolon : c = 59
    · have hempty := pairs_append (show (59 : UInt8) ∉ [] by simp) header
      rw [List.nil_append, pair_nil, Option.toList_none, List.nil_append] at hempty
      rw [List.dropWhile_cons_of_pos (by simp [hsemicolon]), ih, hsemicolon, hempty]
    · by_cases hblank : isSpace c
      · rw [List.dropWhile_cons_of_pos (by simp [hblank]), ih]
        rcases cut_cases 59 header with hno | ⟨part, rest, hpart, hheader⟩
        · have hno' : 59 ∉ c :: header := by simp [hno, Ne.symm hsemicolon]
          rw [pairs_of_not_mem hno, pairs_of_not_mem hno', pair_blank hblank]
        · have hpart' : 59 ∉ c :: part := by simp [hpart, Ne.symm hsemicolon]
          rw [hheader, pairs_append hpart, ← List.cons_append, pairs_append hpart',
            pair_blank hblank]
      · rw [List.dropWhile_cons_of_neg (by simp [hsemicolon, hblank])]

theorem lookup_of_pairs {name header value : Bytes} {before after : List (Bytes × Bytes)}
    (h : pairs header = before ++ (name, value) :: after) (hbefore : ∀ c ∈ before, c.1 ≠ name) :
    lookup name header = some value := by
  have hskip : before.find? (·.1 == name) = none := by
    rw [List.find?_eq_none]
    simpa using fun a b hmem => hbefore (a, b) hmem
  simp [lookup, firstNamed, h, List.find?_append, hskip]

theorem mem_pairs_of_lookup {name header value : Bytes} (h : lookup name header = some value) :
    (name, value) ∈ pairs header := by
  obtain ⟨c, hfind, hvalue⟩ := Option.map_eq_some_iff.mp h
  have hname : c.1 = name := by simpa using List.find?_some hfind
  rw [← hname, ← hvalue]
  exact List.mem_of_find?_eq_some hfind

theorem lookup_nil (name : Bytes) : lookup name [] = none := by
  have hpairs : pairs [] = [] := by decide
  simp [lookup, firstNamed, hpairs]

theorem lookup_of_not_mem {part : Bytes} (h : 59 ∉ part) (name : Bytes) :
    lookup name part = ((pair part).filter (·.1 == name)).map Prod.snd := by
  rw [lookup, pairs_of_not_mem h, firstNamed]
  rcases pair part with _ | ⟨n, value⟩
  · simp
  · by_cases hname : n = name <;> simp [Option.filter, hname]

theorem lookup_append {part : Bytes} (h : 59 ∉ part) (name rest : Bytes) :
    lookup name (part ++ 59 :: rest) = (lookup name part).or (lookup name rest) := by
  rw [lookup, pairs_append h, firstNamed, List.find?_append, lookup, pairs_of_not_mem h, firstNamed,
    lookup, firstNamed]
  cases (pair part).toList.find? (·.1 == name) <;> simp

theorem firstNamed_parts (name : Bytes) (parts : List Bytes) :
    firstNamed name (parts.filterMap pair) =
      parts.findSome? fun part => ((pair part).filter (·.1 == name)).map Prod.snd := by
  rw [firstNamed]
  induction parts with
  | nil => simp
  | cons part parts ih =>
    rw [List.findSome?_cons, ← ih]
    rcases hpair : pair part with _ | ⟨n, value⟩
    · simp [hpair]
    · by_cases hname : n = name <;> simp [Option.filter, hpair, hname]

end Cookies
