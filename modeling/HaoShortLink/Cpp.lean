import Mathlib.Algebra.GroupWithZero.Nat
import Mathlib.Algebra.Ring.Int.Defs
import Mathlib.Algebra.Ring.Nat
import Mathlib.Data.List.Basic
import Mathlib.Data.List.TakeWhile

/-! Byte strings, ASCII character classes and exceptions as C++ programs see them. -/
namespace Cpp

abbrev Bytes := List UInt8

instance bytesTrans : Trans (α := Bytes) (· < ·) (· < ·) (· < ·) := inferInstance

instance bytesTrichotomous : Std.Trichotomous (α := Bytes) (· < ·) := inferInstance

def ascii (s : String) : Bytes := s.toList.map fun c => c.toNat.toUInt8

def isDigit (c : UInt8) : Bool := 48 ≤ c && c ≤ 57
def isUpper (c : UInt8) : Bool := 65 ≤ c && c ≤ 90
def isLower (c : UInt8) : Bool := 97 ≤ c && c ≤ 122
def isAlnum (c : UInt8) : Bool := isLower c || isUpper c || isDigit c

def toLower (c : UInt8) : UInt8 := if isUpper c then c + 32 else c

def ValidUtf8 (b : Bytes) : Prop := b.toByteArray.IsValidUTF8

instance (b : Bytes) : Decidable (ValidUtf8 b) :=
  inferInstanceAs (Decidable b.toByteArray.IsValidUTF8)

theorem utf8EncodeChar_ascii {c : UInt8} (h : c < 128) :
    String.utf8EncodeChar (Char.ofNat c.toNat) = [c] := by
  have hall : ∀ n < 128, String.utf8EncodeChar (Char.ofNat n) = [n.toUInt8] := by decide
  simpa using hall c.toNat (by simpa using UInt8.lt_iff_toNat_lt.mp h)

theorem validUtf8_of_ascii {b : Bytes} (h : ∀ c ∈ b, c < 128) : ValidUtf8 b := by
  have hencode : (b.map fun c => Char.ofNat c.toNat).flatMap String.utf8EncodeChar = b := by
    induction b with
    | nil => rfl
    | cons c b ih =>
      rw [List.map_cons, List.flatMap_cons, utf8EncodeChar_ascii (h c List.mem_cons_self),
        ih fun d hd => h d (List.mem_cons_of_mem _ hd)]
      rfl
  rw [ValidUtf8, ← hencode]
  exact ByteArray.isValidUTF8_utf8Encode

theorem isAlnum_ascii {c : UInt8} (h : isAlnum c) : c < 128 := by
  simp only [isAlnum, isLower, isUpper, isDigit, Bool.or_eq_true, Bool.and_eq_true,
    decide_eq_true_eq, UInt8.le_iff_toNat_le, UInt8.lt_iff_toNat_lt] at h ⊢
  simp only [UInt8.toNat_ofNat] at h ⊢
  omega

/-- std::isspace in the "C" locale. -/
def isSpace (c : UInt8) : Bool := c == 32 || (9 ≤ c && c ≤ 13)

def contains (s pattern : Bytes) : Bool := s.tails.any pattern.isPrefixOf

inductive Exception where
  | invalidArgument (what : Bytes)
  | outOfRange (what : Bytes)
  | runtimeError (what : Bytes)
  /-- A thrown object that is not a std::exception. -/
  | foreign
  deriving DecidableEq, Repr

/-- std::to_string on unsigned values. -/
def toDecimal (n : ℕ) : Bytes := ascii (toString n)

/-- std::to_string on signed values. -/
def signedToDecimal (n : ℤ) : Bytes :=
  if n < 0 then 45 :: toDecimal n.natAbs else toDecimal n.toNat

def stoi (s : Bytes) : Except Exception ℤ :=
  let s := s.dropWhile isSpace
  let negative := s.head? == some 45
  let digits := (if negative || s.head? == some 43 then s.tail else s).takeWhile isDigit
  let magnitude : ℤ := digits.foldl (fun n d => n * 10 + (d.toNat - 48)) 0
  let value := if negative then -magnitude else magnitude
  if digits.isEmpty then .error (.invalidArgument (ascii "stoi"))
  else if -2 ^ 31 ≤ value && value < 2 ^ 31 then .ok value
  else .error (.outOfRange (ascii "stoi"))

/-- Nothing when it throws. A minus sign negates modulo 2^64. -/
def stoull (s : Bytes) : Option ℕ :=
  let s := s.dropWhile isSpace
  let negative := s.head? == some 45
  let digits := (if negative || s.head? == some 43 then s.tail else s).takeWhile isDigit
  let magnitude := digits.foldl (fun n d => n * 10 + (d.toNat - 48)) 0
  if digits.isEmpty || 2 ^ 64 ≤ magnitude then none
  else some (if negative then (2 ^ 64 - magnitude) % 2 ^ 64 else magnitude)

/-- Nothing when it throws. -/
def stoll (s : Bytes) : Option ℤ :=
  let s := s.dropWhile isSpace
  let negative := s.head? == some 45
  let digits := (if negative || s.head? == some 43 then s.tail else s).takeWhile isDigit
  let magnitude : ℤ := digits.foldl (fun n d => n * 10 + (d.toNat - 48)) 0
  let value := if negative then -magnitude else magnitude
  if digits.isEmpty || value < -2 ^ 63 || 2 ^ 63 ≤ value then none else some value

theorem takeWhile_ne {separator : UInt8} {key : Bytes} (h : separator ∉ key) :
    key.takeWhile (· != separator) = key := by
  apply List.takeWhile_eq_self_iff.mpr
  intro c hc
  simpa using fun heq : c = separator => h (heq ▸ hc)

theorem takeWhile_until {separator : UInt8} {key : Bytes} (h : separator ∉ key) (value : Bytes) :
    (key ++ separator :: value).takeWhile (· != separator) = key := by
  have hkey := List.takeWhile_eq_self_iff.mp (takeWhile_ne h)
  rw [List.takeWhile_append_of_pos hkey]
  simp

theorem cut_cases (separator : UInt8) (line : Bytes) : separator ∉ line ∨
    ∃ key value, separator ∉ key ∧ line = key ++ separator :: value := by
  by_cases h : separator ∈ line
  · obtain ⟨key, value, hline, hkey⟩ := List.eq_append_cons_of_mem h
    exact .inr ⟨key, value, hkey, hline⟩
  · exact .inl h

/-- The bytes before the first CRLF and those after it. -/
def findCRLF : Bytes → Option (Bytes × Bytes)
  | [] => none
  | [_] => none
  | c :: d :: rest =>
    if c = 13 ∧ d = 10 then some ([], rest)
    else (findCRLF (d :: rest)).map fun (line, rest) => (c :: line, rest)

section Lines

attribute [local simp] findCRLF

theorem findCRLF_eq {b line rest : Bytes} (h : findCRLF b = some (line, rest)) :
    b = line ++ 13 :: 10 :: rest ∧ findCRLF line = none := by
  induction b using findCRLF.induct generalizing line with
  | case1 => cases h
  | case2 => cases h
  | case3 c d tail hcd =>
    rw [findCRLF, if_pos hcd] at h
    cases h
    exact ⟨by simp [hcd], rfl⟩
  | case4 c d tail hcd ih =>
    rw [findCRLF, if_neg hcd] at h
    obtain ⟨⟨line', rest'⟩, hrec, heq⟩ := Option.map_eq_some_iff.mp h
    cases heq
    obtain ⟨htail, hnone⟩ := ih hrec
    refine ⟨by rw [htail, List.cons_append], ?_⟩
    cases line' with
    | nil => rfl
    | cons e line' =>
      obtain rfl : d = e := by simpa using (List.cons.inj htail).1
      rw [findCRLF, if_neg hcd, hnone]
      rfl

theorem findCRLF_line {line : Bytes} (h : findCRLF line = none) (rest : Bytes) :
    findCRLF (line ++ 13 :: 10 :: rest) = some (line, rest) := by
  induction line using findCRLF.induct with
  | case1 => rfl
  | case2 c =>
    rw [List.singleton_append, findCRLF, if_neg (by simp)]
    rfl
  | case3 c d tail hcd =>
    rw [findCRLF, if_pos hcd] at h
    cases h
  | case4 c d tail hcd ih =>
    rw [findCRLF, if_neg hcd, Option.map_eq_none_iff] at h
    rw [List.cons_append, List.cons_append, findCRLF, if_neg hcd, ← List.cons_append, ih h]
    rfl

theorem findCRLF_after {p : Bytes} (hp : (13 : UInt8) ∉ p) (s : Bytes) :
    findCRLF (p ++ s) = (findCRLF s).map fun (line, rest) => (p ++ line, rest) := by
  induction p with
  | nil => simp
  | cons c p ih =>
    have hc : c ≠ 13 := fun h => hp (h ▸ List.mem_cons_self)
    have ih := ih fun h => hp (List.mem_cons_of_mem _ h)
    cases hps : p ++ s with
    | nil =>
      obtain ⟨rfl, rfl⟩ := List.append_eq_nil_iff.mp hps
      rfl
    | cons d tail =>
      rw [List.cons_append, hps, findCRLF, if_neg (fun h => hc h.1), ← hps, ih, Option.map_map]
      rfl

theorem findCRLF_none {p : Bytes} (hp : (13 : UInt8) ∉ p) : findCRLF p = none := by
  simpa [findCRLF] using findCRLF_after hp []

theorem findCRLF_append {b line rest : Bytes} (q : Bytes)
    (h : findCRLF b = some (line, rest)) : findCRLF (b ++ q) = some (line, rest ++ q) := by
  obtain ⟨rfl, hnone⟩ := findCRLF_eq h
  simpa using findCRLF_line hnone (rest ++ q)

end Lines

end Cpp
