import HaoShortLink.JsonValues
import Mathlib.Data.List.Induction

/-! What the handlers rely on of nlohmann::json. -/
namespace JsonContracts

open Cpp JsonValues

def Ascii (b : Bytes) : Prop := ∀ c ∈ b, c < 128

instance (b : Bytes) : Decidable (Ascii b) := List.decidableBAll _ b

theorem Ascii.append {a b : Bytes} (ha : Ascii a) (hb : Ascii b) : Ascii (a ++ b) := by
  intro c hc
  rcases List.mem_append.mp hc with hc | hc
  · exact ha c hc
  · exact hb c hc

theorem Ascii.utf8 {b : Bytes} (h : Ascii b) : ValidUtf8 b := validUtf8_of_ascii h

/-- All strings in the value are UTF-8, the names of members too. -/
inductive Utf8 : Json → Prop where
  | null : Utf8 .null
  | boolean (b : Bool) : Utf8 (.boolean b)
  | integer (n : ℤ) : Utf8 (.integer n)
  | float (bits : UInt64) : Utf8 (.float bits)
  | string {s : Bytes} : ValidUtf8 s → Utf8 (.string s)
  | array {elements : List Json} : (∀ e ∈ elements, Utf8 e) → Utf8 (.array elements)
  | object {members : List (Bytes × Json)} : (∀ m ∈ members, ValidUtf8 m.1) →
      (∀ m ∈ members, Utf8 m.2) → Utf8 (.object members)

/-- Texts that are not UTF-8 are not parsed, the members of an object are in the order of a
std::map, and dump throws for strings that are not UTF-8 alone. -/
structure Standard (json : JsonLibrary) : Prop where
  parses : ∀ text j, json.parseIgnoringComments text = some j → Utf8 j
  sorted : ∀ text members, json.parseIgnoringComments text = some (.object members) →
    members.Pairwise fun a b => a.1 < b.1
  dumps : ∀ j, Utf8 j → ∃ text, json.dump j = .ok text

theorem mem_ofMembers {members : List (Bytes × Json)} {m : Bytes × Json}
    (h : m ∈ (Json.ofMembers members).items) : m ∈ members := by
  have hfold : ∀ sorted : List (Bytes × Json),
      m ∈ members.foldl (fun sorted m => OrderedMaps.insertEntry m.1 m.2 sorted) sorted →
        m ∈ sorted ∨ m ∈ members := by
    clear h
    induction members with
    | nil => exact fun _ h => .inl h
    | cons a members ih =>
      intro sorted h
      rcases ih _ h with h | h
      · rcases OrderedMaps.mem_insertEntry h with h | h
        · exact .inr (h ▸ List.mem_cons_self)
        · exact .inl h
      · exact .inr (List.mem_cons_of_mem _ h)
  exact (hfold [] h).resolve_left List.not_mem_nil

theorem utf8_ofMembers {members : List (Bytes × Json)} (hnames : ∀ m ∈ members, ValidUtf8 m.1)
    (hvalues : ∀ m ∈ members, Utf8 m.2) : Utf8 (.ofMembers members) :=
  .object (fun m hm => hnames m (mem_ofMembers hm)) fun m hm => hvalues m (mem_ofMembers hm)

theorem utf8_find {j : Json} (h : Utf8 j) {name : Bytes} {value : Json}
    (hfind : j.find name = some value) : Utf8 value := by
  cases h with
  | object hnames hvalues =>
    obtain ⟨m, hm, heq⟩ := Option.map_eq_some_iff.mp hfind
    exact heq ▸ hvalues m (List.mem_of_find?_eq_some hm)
  | _ => cases hfind

theorem validUtf8_stringAt {j : Json} (h : Utf8 j) {name s : Bytes}
    (hstring : j.stringAt name = some s) : ValidUtf8 s := by
  obtain ⟨value, hfind, hvalue⟩ := Option.bind_eq_some_iff.mp hstring
  cases utf8_find h hfind with
  | string hs =>
    cases hvalue
    exact hs
  | _ => cases hvalue

inductive FlatValue : Json → Prop where
  | null : FlatValue .null
  | boolean (b : Bool) : FlatValue (.boolean b)
  | integer {n : ℤ} : -2 ^ 63 ≤ n → n < 2 ^ 64 → FlatValue (.integer n)
  | string {s : Bytes} : ValidUtf8 s → FlatValue (.string s)

structure Flat (members : List (Bytes × Json)) : Prop where
  nodup : (members.map Prod.fst).Nodup
  names : ∀ m ∈ members, ValidUtf8 m.1
  values : ∀ m ∈ members, FlatValue m.2

/-- The object is dumped, and parsing the text gives it back in the order of a std::map. -/
def ReadsBack (json : JsonLibrary) (members : List (Bytes × Json)) : Prop :=
  ∃ text, json.dump (.object members) = .ok text ∧ json.parse text = some (.ofMembers members)

theorem find_object (members : List (Bytes × Json)) (name : Bytes) :
    (Json.object members).find name = OrderedMaps.findEntry name members := by
  have htest : (fun m : Bytes × Json => m.1 == name) = fun m => decide (m.1 = name) := by
    funext m
    rw [Bool.eq_iff_iff]
    simp
  rw [Json.find, OrderedMaps.findEntry, htest]
  rfl

theorem find_ofMembers {members : List (Bytes × Json)} (hnodup : (members.map Prod.fst).Nodup)
    {name : Bytes} {value : Json} (hmem : (name, value) ∈ members) :
    (Json.ofMembers members).find name = some value := by
  induction members using List.reverseRecOn with
  | nil => cases hmem
  | append_singleton members m ih =>
    rw [List.map_append, List.nodup_append] at hnodup
    obtain ⟨hbefore, _, hfresh⟩ := hnodup
    have hfind : (Json.ofMembers (members ++ [m])).find name =
        if name = m.1 then some m.2 else (Json.ofMembers members).find name := by
      rw [Json.ofMembers, List.foldl_append, find_object, Json.ofMembers, find_object]
      exact OrderedMaps.find_insertEntry m.1 name m.2 _
    rw [hfind]
    rcases List.mem_append.mp hmem with hmem | hmem
    · rw [if_neg, ih hbefore hmem]
      intro heq
      exact hfresh name (List.mem_map_of_mem hmem) m.1 (by simp) heq
    · rw [if_pos (congrArg Prod.fst (List.mem_singleton.mp hmem)), ← List.mem_singleton.mp hmem]

end JsonContracts
