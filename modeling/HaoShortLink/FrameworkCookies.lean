import HaoShortLink.Cookies
import HaoShortLink.FrameworkSessions

/-! The text search of SessionManager for its cookie, against the items of the header. -/
namespace FrameworkCookies

open Cpp HttpRequests
open FrameworkSessions (getSessionIdFromCookie)

def name : Bytes := ascii "sessionId"

/-- What the header is searched for. -/
def key : Bytes := ascii "sessionId="

/-- The text after the first occurrence of the key. -/
def textAfter (part : Bytes) : Option Bytes :=
  (part.tails.find? key.isPrefixOf).map fun found => found.drop key.length

/-- The first item that has the key in it begins with it. -/
def Undisguised : List Bytes → Prop
  | [] => True
  | part :: rest => if key <:+: part then key <+: part.dropWhile isSpace else Undisguised rest

theorem key_eq : key = name ++ [61] := by decide

theorem textAfter_cons (c : UInt8) (part : Bytes) : textAfter (c :: part) =
    if key <+: c :: part then some ((c :: part).drop key.length) else textAfter part := by
  rw [textAfter, List.tails_cons, List.find?_cons]
  split
  · next h => rw [if_pos (List.isPrefixOf_iff_prefix.mp h), Option.map_some]
  · next h =>
    rw [if_neg, textAfter]
    intro hprefix
    rw [List.isPrefixOf_iff_prefix.mpr hprefix] at h
    cases h

theorem textAfter_nil : textAfter [] = none := by decide

theorem textAfter_inFront {part : Bytes} (h : key <+: part.dropWhile isSpace) :
    textAfter part = some ((part.dropWhile isSpace).drop key.length) := by
  induction part with
  | nil => exact absurd h (by decide)
  | cons c part ih =>
    rw [textAfter_cons]
    by_cases hblank : isSpace c
    · rw [List.dropWhile_cons_of_pos hblank] at h ⊢
      rw [if_neg, ih h]
      intro hprefix
      have hc : c = 115 := (List.cons_prefix_cons.mp hprefix).1.symm
      rw [hc] at hblank
      cases hblank
    · rw [List.dropWhile_cons_of_neg hblank] at h ⊢
      rw [if_pos h]

theorem pair_inFront {part : Bytes} (h : key <+: part.dropWhile isSpace) :
    Cookies.pair part = some (name, (part.dropWhile isSpace).drop key.length) := by
  obtain ⟨value, hvalue⟩ := h
  have hcut : part.dropWhile isSpace = name ++ 61 :: value := by
    rw [← hvalue, key_eq, List.append_assoc, List.singleton_append]
  rw [Cookies.pair_cut value (by decide) hcut, ← hvalue, List.drop_left]

theorem inFront_of_pair {part value : Bytes} (h : Cookies.pair part = some (name, value)) :
    key <+: part.dropWhile isSpace := by
  obtain ⟨_, hitem⟩ := Cookies.pair_eq_some h
  exact ⟨value, by rw [hitem, key_eq, List.append_assoc, List.singleton_append]⟩

theorem prefix_append_cons {c : UInt8} {k l : Bytes} (h : c ∉ k) (rest : Bytes) :
    k <+: l ++ c :: rest ↔ k <+: l := by
  induction k generalizing l with
  | nil => simp
  | cons a k ih =>
    obtain ⟨hne, hk⟩ := not_or.mp (List.mem_cons.not.mp h)
    cases l with
    | nil => simp [Ne.symm hne]
    | cons b l => rw [List.cons_append, List.cons_prefix_cons, List.cons_prefix_cons, ih hk]

theorem textAfter_subset {part text : Bytes} (h : textAfter part = some text) :
    ∀ c ∈ text, c ∈ part := by
  obtain ⟨found, hfound, htext⟩ := Option.map_eq_some_iff.mp h
  intro c hc
  rw [← htext] at hc
  exact ((List.mem_tails _ _).mp (List.mem_of_find?_eq_some hfound)).mem (List.mem_of_mem_drop hc)

theorem textAfter_one {part : Bytes} (h : 59 ∉ part) :
    (textAfter part).map (·.takeWhile (· != 59)) = textAfter part := by
  cases htext : textAfter part with
  | none => rw [Option.map_none]
  | some text =>
    rw [Option.map_some, takeWhile_ne fun hmem => h (textAfter_subset htext 59 hmem)]

theorem textAfter_append {part : Bytes} (h : 59 ∉ part) (rest : Bytes) :
    (textAfter (part ++ 59 :: rest)).map (·.takeWhile (· != 59)) =
      (textAfter part).or ((textAfter rest).map (·.takeWhile (· != 59))) := by
  have hkey : 59 ∉ key := by decide
  induction part with
  | nil =>
    have hnot : ¬key <+: 59 :: rest := by
      intro hprefix
      exact absurd ((prefix_append_cons (l := []) hkey rest).mp hprefix) (by decide)
    rw [List.nil_append, textAfter_cons, if_neg hnot, textAfter_nil, Option.none_or]
  | cons c part ih =>
    rw [List.cons_append, textAfter_cons, textAfter_cons, ← List.cons_append]
    simp only [prefix_append_cons hkey]
    split
    · next hprefix =>
      have hrest : 59 ∉ (c :: part).drop key.length := fun hmem => h (List.mem_of_mem_drop hmem)
      rw [List.drop_append_of_le_length hprefix.length_le, Option.map_some, takeWhile_until hrest,
        Option.some_or]
    · exact ih fun hmem => h (List.mem_cons_of_mem c hmem)

theorem textAfter_splitOn (header : Bytes) :
    (textAfter header).map (·.takeWhile (· != 59)) = (header.splitOn 59).findSome? textAfter := by
  rcases cut_cases 59 header with hno | ⟨part, rest, hpart, hheader⟩
  · rw [List.splitOn_eq_singleton hno, List.findSome?_singleton, textAfter_one hno]
  · rw [hheader, textAfter_append hpart, List.splitOn_append_cons_self_of_not_mem hpart,
      List.findSome?_cons, textAfter_splitOn rest]
    cases textAfter part <;> simp
termination_by header.length
decreasing_by
  rw [hheader, List.length_append, List.length_cons]
  omega

theorem getSessionIdFromCookie_eq (request : HttpRequest) :
    getSessionIdFromCookie request =
      (((request.getHeader (ascii "Cookie")).splitOn 59).findSome? textAfter).getD [] := by
  rw [← textAfter_splitOn, textAfter, Option.map_map, getSessionIdFromCookie]
  split
  · next found hfound =>
    rw [← key] at hfound
    rw [hfound, Option.map_some, Option.getD_some]
    rfl
  · next hfound =>
    rw [← key] at hfound
    rw [hfound, Option.map_none, Option.getD_none]

theorem textAfter_eq_none {part : Bytes} : textAfter part = none ↔ ¬ key <:+: part := by
  rw [textAfter, Option.map_eq_none_iff, List.find?_eq_none, List.infix_iff_prefix_suffix,
    not_exists]
  apply forall_congr'
  intro found
  rw [List.mem_tails, List.isPrefixOf_iff_prefix, not_and, imp_not_comm]

theorem exists_textAfter {part : Bytes} (h : key <:+: part) : ∃ text, textAfter part = some text :=
  Option.ne_none_iff_exists'.mp fun hnone => textAfter_eq_none.mp hnone h

theorem key_of_named {part value : Bytes} (h : Cookies.pair part = some (name, value)) :
    key <:+: part :=
  (inFront_of_pair h).isInfix.trans (List.dropWhile_suffix _).isInfix

theorem firstNamed_skip {part : Bytes} (h : ∀ value, Cookies.pair part ≠ some (name, value))
    (rest : List Bytes) : Cookies.firstNamed name ((part :: rest).filterMap Cookies.pair) =
      Cookies.firstNamed name (rest.filterMap Cookies.pair) := by
  have hother : (Cookies.pair part).filter (·.1 == name) = none := by
    rw [Option.filter_eq_none_iff]
    intro c hc hname
    exact h c.2 (by rw [hc, ← beq_iff_eq.mp hname])
  rw [Cookies.firstNamed_parts, List.findSome?_cons, hother, Cookies.firstNamed_parts]
  rfl

/-- Where the search ends in an item that begins with the key, that is the cookie. -/
theorem undisguised_found {parts : List Bytes} (h : Undisguised parts) :
    parts.findSome? textAfter = Cookies.firstNamed name (parts.filterMap Cookies.pair) := by
  induction parts with
  | nil => rfl
  | cons part rest ih =>
    rw [Undisguised] at h
    split at h
    · rw [Cookies.firstNamed_parts, List.findSome?_cons, List.findSome?_cons,
        textAfter_inFront h, pair_inFront h]
      simp [Option.filter]
    · next hkey =>
      rw [firstNamed_skip fun value hpair => hkey (key_of_named hpair), ← ih h,
        List.findSome?_cons, textAfter_eq_none.mpr hkey]

/-- Else it ends in an item that is no cookie with the name. -/
theorem disguised_found {parts : List Bytes} (h : ¬ Undisguised parts) :
    ∃ before part after, parts = before ++ part :: after ∧ (∀ p ∈ before, ¬ key <:+: p) ∧
      textAfter part = parts.findSome? textAfter ∧ key <:+: part ∧
      ∀ value, Cookies.pair part ≠ some (name, value) := by
  induction parts with
  | nil => exact absurd trivial h
  | cons part rest ih =>
    rw [Undisguised] at h
    split at h
    · next hkey =>
      refine ⟨[], part, rest, rfl, by simp, ?_, hkey, ?_⟩
      · obtain ⟨text, htext⟩ := exists_textAfter hkey
        rw [List.findSome?_cons, htext]
      · intro value hpair
        exact h (inFront_of_pair hpair)
    · next hkey =>
      obtain ⟨before, found, after, rfl, hbefore, htext, hrest⟩ := ih h
      refine ⟨part :: before, found, after, rfl, ?_, ?_, hrest⟩
      · exact List.forall_mem_cons.mpr ⟨hkey, hbefore⟩
      · rw [htext, List.findSome?_cons, textAfter_eq_none.mpr hkey]

/-- The search finds the cookie with the name unless another item with the key comes first; the
text is then taken from that item, which is no cookie with the name. -/
theorem getSessionIdFromCookie_undisguised (request : HttpRequest) :
    (Undisguised ((request.getHeader (ascii "Cookie")).splitOn 59) →
      getSessionIdFromCookie request =
        (Cookies.lookup name (request.getHeader (ascii "Cookie"))).getD []) ∧
    (¬ Undisguised ((request.getHeader (ascii "Cookie")).splitOn 59) →
      ∃ before part after,
        (request.getHeader (ascii "Cookie")).splitOn 59 = before ++ part :: after ∧
        (∀ p ∈ before, ¬ key <:+: p) ∧ textAfter part = some (getSessionIdFromCookie request) ∧
        ∀ value, Cookies.pair part ≠ some (name, value)) := by
  rw [getSessionIdFromCookie_eq]
  constructor
  · intro h
    rw [undisguised_found h, Cookies.lookup, Cookies.pairs]
  · intro h
    obtain ⟨before, part, after, hsplit, hbefore, htext, hkey, hnot⟩ := disguised_found h
    obtain ⟨text, hsome⟩ := exists_textAfter hkey
    refine ⟨before, part, after, hsplit, hbefore, ?_, hnot⟩
    rw [← htext, hsome, Option.getD_some]

/-- Another cookie chooses the session. -/
theorem getSessionIdFromCookie_disguised :
    ¬ ∀ request, getSessionIdFromCookie request =
      (Cookies.lookup name (request.getHeader (ascii "Cookie"))).getD [] := by
  intro h
  let request : HttpRequest :=
    { headers := .insert .empty (ascii "Cookie") (ascii "mysessionId=evil; sessionId=good") }
  have hevil : getSessionIdFromCookie request = ascii "evil" := by decide
  have hgood : (Cookies.lookup name (request.getHeader (ascii "Cookie"))).getD [] =
      ascii "good" := by decide
  have heq := (hevil.symm.trans (h request)).trans hgood
  exact absurd heq (by decide)

end FrameworkCookies
