import Mathlib.Algebra.Ring.Nat
import Mathlib.Data.List.GetD
import Mathlib.Data.List.Nodup
import Mathlib.Data.Option.Basic

/-! Base 64: three bytes as four characters of an alphabet, with padding at the end. -/
namespace Base64

structure Alphabet where
  chars : List UInt8
  pad : UInt8
  length_chars : chars.length = 64
  nodup : chars.Nodup
  pad_not_mem : pad ∉ chars

namespace Alphabet

variable (α : Alphabet)

def char (n : ℕ) : UInt8 := α.chars.getD n α.pad

def index (c : UInt8) : Option ℕ := α.chars.idxOf? c

variable {α}

theorem index_char {n : ℕ} (h : n < 64) : α.index (α.char n) = some n := by
  have hn : n < α.chars.length := by rw [α.length_chars]; exact h
  rw [index, char, List.getD_eq_getElem _ _ hn, List.idxOf?_eq_some_iff]
  refine ⟨hn, rfl, ?_⟩
  intro j hj heq
  have hsame := (α.nodup.getElem_inj_iff).mp heq
  omega

theorem char_ne_pad {n : ℕ} (h : n < 64) : α.char n ≠ α.pad := by
  have hn : n < α.chars.length := by rw [α.length_chars]; exact h
  rw [char, List.getD_eq_getElem _ _ hn]
  intro heq
  exact α.pad_not_mem (heq ▸ List.getElem_mem hn)

end Alphabet

def word (a b c : UInt8) : ℕ := a.toNat * 2 ^ 16 + b.toNat * 2 ^ 8 + c.toNat

theorem word_lt (a b c : UInt8) : word a b c < 2 ^ 24 := by
  have ha := a.toNat_lt
  have hb := b.toNat_lt
  have hc := c.toNat_lt
  simp only [word]
  omega

variable (α : Alphabet)

/-- The character for six bits of a word, counted from its low end. -/
def sextet (w k : ℕ) : UInt8 := α.char (w / 64 ^ k % 64)

def encode : List UInt8 → List UInt8
  | [] => []
  | [a] => [sextet α (word a 0 0) 3, sextet α (word a 0 0) 2, α.pad, α.pad]
  | [a, b] => [sextet α (word a b 0) 3, sextet α (word a b 0) 2, sextet α (word a b 0) 1, α.pad]
  | a :: b :: c :: rest =>
    sextet α (word a b c) 3 :: sextet α (word a b c) 2 :: sextet α (word a b c) 1 ::
      sextet α (word a b c) 0 :: encode rest

def decodeGroup (p q r s : UInt8) : Option (List UInt8) := do
  let i ← α.index p
  let j ← α.index q
  let k ← α.index r
  let l ← α.index s
  let w := ((i * 64 + j) * 64 + k) * 64 + l
  pure [(w / 2 ^ 16).toUInt8, (w / 2 ^ 8 % 256).toUInt8, (w % 256).toUInt8]

/-- The last four characters. The bits that no byte takes are zero. -/
def decodeLast (p q r s : UInt8) : Option (List UInt8) :=
  if s = α.pad then do
    let i ← α.index p
    let j ← α.index q
    if r = α.pad then do
      guard (j % 16 = 0)
      pure [((i * 64 + j) / 16).toUInt8]
    else do
      let k ← α.index r
      guard (k % 4 = 0)
      let w := (i * 64 + j) * 64 + k
      pure [(w / 2 ^ 10).toUInt8, (w / 4 % 256).toUInt8]
  else decodeGroup α p q r s

def decode : List UInt8 → Option (List UInt8)
  | [] => some []
  | [p, q, r, s] => decodeLast α p q r s
  | p :: q :: r :: s :: rest => do
    let bytes ← decodeGroup α p q r s
    let more ← decode rest
    pure (bytes ++ more)
  | _ => none

variable {α}

theorem encode_cons (a : UInt8) (l : List UInt8) : encode α (a :: l) =
    [sextet α (word a (l.getD 0 0) (l.getD 1 0)) 3, sextet α (word a (l.getD 0 0) (l.getD 1 0)) 2,
      if 0 < l.length then sextet α (word a (l.getD 0 0) (l.getD 1 0)) 1 else α.pad,
      if 1 < l.length then sextet α (word a (l.getD 0 0) (l.getD 1 0)) 0 else α.pad] ++
    encode α (l.drop 2) := by
  match l with
  | [] => simp [encode]
  | [b] => simp [encode]
  | b :: c :: l => simp [encode]

theorem length_encode (b : List UInt8) : (encode α b).length = (b.length + 2) / 3 * 4 := by
  induction b using encode.induct with
  | case1 => simp [encode]
  | case2 a => simp [encode]
  | case3 a b => simp [encode]
  | case4 a b c rest ih =>
    simp only [encode, List.length_cons, ih]
    omega

theorem mem_encode {b : List UInt8} {c : UInt8} (h : c ∈ encode α b) : c ∈ α.chars ∨ c = α.pad := by
  have hchar : ∀ w k, sextet α w k ∈ α.chars := by
    intro w k
    have hlt : w / 64 ^ k % 64 < α.chars.length := by
      rw [α.length_chars]
      exact Nat.mod_lt _ (by decide)
    rw [sextet, Alphabet.char, List.getD_eq_getElem _ _ hlt]
    exact List.getElem_mem hlt
  induction b using encode.induct with
  | case1 => cases h
  | case2 a =>
    simp only [encode, List.mem_cons, List.not_mem_nil, or_false] at h
    rcases h with h | h | h | h
    · exact .inl (h ▸ hchar _ _)
    · exact .inl (h ▸ hchar _ _)
    · exact .inr h
    · exact .inr h
  | case3 a b =>
    simp only [encode, List.mem_cons, List.not_mem_nil, or_false] at h
    rcases h with h | h | h | h
    · exact .inl (h ▸ hchar _ _)
    · exact .inl (h ▸ hchar _ _)
    · exact .inl (h ▸ hchar _ _)
    · exact .inr h
  | case4 a b c rest ih =>
    simp only [encode, List.mem_cons] at h
    rcases h with h | h | h | h | h
    · exact .inl (h ▸ hchar _ _)
    · exact .inl (h ▸ hchar _ _)
    · exact .inl (h ▸ hchar _ _)
    · exact .inl (h ▸ hchar _ _)
    · exact ih h

theorem index_sextet (w k : ℕ) : α.index (sextet α w k) = some (w / 64 ^ k % 64) :=
  Alphabet.index_char (Nat.mod_lt _ (by decide))

theorem sextet_ne_pad (w k : ℕ) : sextet α w k ≠ α.pad :=
  Alphabet.char_ne_pad (Nat.mod_lt _ (by decide))

theorem toUInt8_eq {n : ℕ} {c : UInt8} (h : n = c.toNat) : n.toUInt8 = c := by
  rw [h, Nat.toUInt8, UInt8.ofNat_toNat]

theorem word_of_sextets {w : ℕ} (h : w < 2 ^ 24) :
    ((w / 64 ^ 3 % 64 * 64 + w / 64 ^ 2 % 64) * 64 + w / 64 ^ 1 % 64) * 64 + w / 64 ^ 0 % 64
      = w := by
  omega

theorem decodeGroup_encoded (a b c : UInt8) :
    decodeGroup α (sextet α (word a b c) 3) (sextet α (word a b c) 2) (sextet α (word a b c) 1)
      (sextet α (word a b c) 0) = some [a, b, c] := by
  have ha := a.toNat_lt
  have hb := b.toNat_lt
  have hc := c.toNat_lt
  have hfirst : (word a b c / 2 ^ 16).toUInt8 = a := toUInt8_eq (by simp only [word]; omega)
  have hsecond : (word a b c / 2 ^ 8 % 256).toUInt8 = b := toUInt8_eq (by simp only [word]; omega)
  have hthird : (word a b c % 256).toUInt8 = c := toUInt8_eq (by simp only [word]; omega)
  simp only [decodeGroup, index_sextet, Option.bind_eq_bind, Option.bind_some,
    word_of_sextets (word_lt a b c), hfirst, hsecond, hthird]
  rfl

theorem decodeLast_two (a b : UInt8) :
    decodeLast α (sextet α (word a b 0) 3) (sextet α (word a b 0) 2) (sextet α (word a b 0) 1)
      α.pad = some [a, b] := by
  have ha := a.toNat_lt
  have hb := b.toNat_lt
  have hzero : word a b 0 / 64 ^ 1 % 64 % 4 = 0 := by
    simp only [word, UInt8.toNat_zero]
    omega
  have hfirst : ((((word a b 0 / 64 ^ 3 % 64) * 64 + word a b 0 / 64 ^ 2 % 64) * 64 +
      word a b 0 / 64 ^ 1 % 64) / 2 ^ 10).toUInt8 = a :=
    toUInt8_eq (by simp only [word, UInt8.toNat_zero]; omega)
  have hsecond : ((((word a b 0 / 64 ^ 3 % 64) * 64 + word a b 0 / 64 ^ 2 % 64) * 64 +
      word a b 0 / 64 ^ 1 % 64) / 4 % 256).toUInt8 = b :=
    toUInt8_eq (by simp only [word, UInt8.toNat_zero]; omega)
  simp only [decodeLast, if_true, sextet_ne_pad, if_false, index_sextet, Option.bind_eq_bind,
    Option.bind_some, hzero, guard, hfirst, hsecond]
  rfl

theorem decodeLast_one (a : UInt8) :
    decodeLast α (sextet α (word a 0 0) 3) (sextet α (word a 0 0) 2) α.pad α.pad = some [a] := by
  have ha := a.toNat_lt
  have hzero : word a 0 0 / 64 ^ 2 % 64 % 16 = 0 := by
    simp only [word, UInt8.toNat_zero]
    omega
  have hfirst : ((word a 0 0 / 64 ^ 3 % 64 * 64 + word a 0 0 / 64 ^ 2 % 64) / 16).toUInt8 = a :=
    toUInt8_eq (by simp only [word, UInt8.toNat_zero]; omega)
  simp only [decodeLast, if_true, index_sextet, Option.bind_eq_bind, Option.bind_some, hzero, guard,
    hfirst]
  rfl

theorem encode_ne_nil (a : UInt8) (b : List UInt8) : encode α (a :: b) ≠ [] := by
  intro h
  have hlength := length_encode (α := α) (a :: b)
  simp only [h, List.length_nil, List.length_cons] at hlength
  omega

theorem decode_encode (b : List UInt8) : decode α (encode α b) = some b := by
  induction b using encode.induct with
  | case1 => simp [encode, decode]
  | case2 a => simp only [encode, decode, decodeLast_one]
  | case3 a b => simp only [encode, decode, decodeLast_two]
  | case4 a b c rest ih =>
    cases rest with
    | nil =>
      simp only [encode, decode, decodeLast, sextet_ne_pad, if_false, decodeGroup_encoded]
    | cons d rest =>
      obtain ⟨p, more, hencode⟩ := List.exists_cons_of_ne_nil (encode_ne_nil (α := α) d rest)
      rw [hencode] at ih
      simp only [encode, hencode, decode, decodeGroup_encoded, ih]
      rfl

end Base64
