import HaoShortLink.Cpp

/-! JSON texts as bytes, read from the front: literals of strings with their escapes, numbers, and
values in any nesting. A text has one value at most. -/
namespace JsonTexts

open Cpp

/-- Numbers are kept as they are written. -/
inductive Value where
  | null
  | boolean (b : Bool)
  | number (text : Bytes)
  | string (s : Bytes)
  | array (elements : List Value)
  | object (members : List (Bytes × Value))

theorem utf8EncodeChar_high {c : Char} (hc : 128 ≤ c.val.toNat) :
    ∀ b ∈ String.utf8EncodeChar c, 128 ≤ b := by
  have hbyte (n base k : ℕ) (hbase : 128 ≤ base) (hk : 0 < k) (hfits : base + k ≤ 256) :
      128 ≤ UInt8.ofNat (n % k + base) := by
    have hlt : n % k + base < 256 := by
      have hn := Nat.mod_lt n hk
      omega
    rw [UInt8.le_iff_toNat_le, UInt8.toNat_ofNat_of_lt' hlt]
    have h128 : (128 : UInt8).toNat = 128 := by rfl
    rw [h128]
    exact hbase.trans (Nat.le_add_left _ _)
  intro b hb
  unfold String.utf8EncodeChar at hb
  dsimp only at hb
  split_ifs at hb
  · omega
  · simp only [List.mem_cons, List.not_mem_nil, or_false] at hb
    rcases hb with rfl | rfl
    · exact hbyte _ 192 32 (by decide) (by decide) (by decide)
    · exact hbyte _ 128 64 (by decide) (by decide) (by decide)
  · simp only [List.mem_cons, List.not_mem_nil, or_false] at hb
    rcases hb with rfl | rfl | rfl
    · exact hbyte _ 224 16 (by decide) (by decide) (by decide)
    · exact hbyte _ 128 64 (by decide) (by decide) (by decide)
    · exact hbyte _ 128 64 (by decide) (by decide) (by decide)
  · simp only [List.mem_cons, List.not_mem_nil, or_false] at hb
    rcases hb with rfl | rfl | rfl | rfl
    · exact hbyte _ 240 8 (by decide) (by decide) (by decide)
    · exact hbyte _ 128 64 (by decide) (by decide) (by decide)
    · exact hbyte _ 128 64 (by decide) (by decide) (by decide)
    · exact hbyte _ 128 64 (by decide) (by decide) (by decide)

theorem utf8EncodeChar_low {c : Char} (hc : c.val.toNat < 128) :
    ∀ b ∈ String.utf8EncodeChar c, b < 128 := by
  intro b hb
  unfold String.utf8EncodeChar at hb
  rw [if_pos (Nat.le_of_lt_succ hc), List.mem_singleton] at hb
  rw [hb, UInt8.lt_iff_toNat_lt, UInt8.toNat_ofNat_of_lt' (hc.trans (by decide))]
  exact hc

theorem validUtf8_chars {b : Bytes} (h : ValidUtf8 b) :
    ∃ chars : List Char, b = chars.flatMap String.utf8EncodeChar := by
  obtain ⟨chars, hchars⟩ := h
  refine ⟨chars, ?_⟩
  have hbytes := congrArg (fun x => x.data.toList) hchars
  simpa [List.utf8Encode] using hbytes

theorem validUtf8_append {a b : Bytes} (ha : ValidUtf8 a) (hb : ValidUtf8 b) :
    ValidUtf8 (a ++ b) := by
  obtain ⟨chars, rfl⟩ := validUtf8_chars ha
  obtain ⟨chars', rfl⟩ := validUtf8_chars hb
  rw [← List.flatMap_append]
  exact ByteArray.isValidUTF8_utf8Encode

theorem validUtf8_flatMap {f : UInt8 → Bytes} (hhigh : ∀ c, 128 ≤ c → f c = [c])
    (hascii : ∀ c < 128, ∀ d ∈ f c, d < 128) {b : Bytes} (h : ValidUtf8 b) :
    ValidUtf8 (b.flatMap f) := by
  obtain ⟨chars, rfl⟩ := validUtf8_chars h
  clear h
  induction chars with
  | nil => exact validUtf8_of_ascii (by simp)
  | cons c chars ih =>
    rw [List.flatMap_cons, List.flatMap_append]
    refine validUtf8_append ?_ ih
    by_cases hc : 128 ≤ c.val.toNat
    · have hsame : (String.utf8EncodeChar c).flatMap f = String.utf8EncodeChar c := by
        rw [List.flatMap_congr fun b hb => hhigh b (utf8EncodeChar_high hc b hb),
          List.flatMap_singleton']
      rw [hsame]
      exact Char.isValidUTF8_toByteArray_utf8EncodeChar
    · apply validUtf8_of_ascii
      intro d hd
      obtain ⟨b, hb, hd⟩ := List.mem_flatMap.mp hd
      exact hascii b (utf8EncodeChar_low (Nat.lt_of_not_le hc) b hb) d hd

/-- rest is what follows bytes that all satisfy P. -/
def Front (P : UInt8 → Prop) (b rest : Bytes) : Prop :=
  ∃ front, b = front ++ rest ∧ ∀ c ∈ front, P c

namespace Front

variable {P Q : UInt8 → Prop} {b c rest : Bytes}

theorem refl (b : Bytes) : Front P b b := ⟨[], rfl, by simp⟩

theorem cons {a : UInt8} (ha : P a) (h : Front P b rest) : Front P (a :: b) rest := by
  obtain ⟨front, rfl, hfront⟩ := h
  refine ⟨a :: front, rfl, ?_⟩
  intro x hx
  rcases List.mem_cons.mp hx with rfl | hx
  · exact ha
  · exact hfront x hx

theorem trans (h₁ : Front P b c) (h₂ : Front P c rest) : Front P b rest := by
  obtain ⟨front₁, rfl, hfront₁⟩ := h₁
  obtain ⟨front₂, rfl, hfront₂⟩ := h₂
  refine ⟨front₁ ++ front₂, (List.append_assoc _ _ _).symm, ?_⟩
  intro x hx
  rcases List.mem_append.mp hx with hx | hx
  · exact hfront₁ x hx
  · exact hfront₂ x hx

theorem mono (h : Front P b rest) (hPQ : ∀ c, P c → Q c) : Front Q b rest := by
  obtain ⟨front, hb, hfront⟩ := h
  exact ⟨front, hb, fun c hc => hPQ c (hfront c hc)⟩

theorem length_le (h : Front P b rest) : rest.length ≤ b.length := by
  obtain ⟨front, rfl, -⟩ := h
  rw [List.length_append]
  exact Nat.le_add_left _ _

theorem all (h : Front P b rest) (hrest : ∀ c ∈ rest, P c) : ∀ c ∈ b, P c := by
  obtain ⟨front, rfl, hfront⟩ := h
  intro x hx
  rcases List.mem_append.mp hx with hx | hx
  · exact hfront x hx
  · exact hrest x hx

end Front

def hexDigit (c : UInt8) : Option ℕ :=
  if isDigit c then some (c.toNat - 48)
  else if 97 ≤ c ∧ c ≤ 102 then some (c.toNat - 87)
  else if 65 ≤ c ∧ c ≤ 70 then some (c.toNat - 55)
  else none

def readUnit : Bytes → Option (ℕ × Bytes)
  | a :: b :: c :: d :: rest => do
    let high := 16 * (← hexDigit a) + (← hexDigit b)
    let low := 16 * (← hexDigit c) + (← hexDigit d)
    return (256 * high + low, rest)
  | _ => none

def utf8 (codePoint : ℕ) : Bytes := String.utf8EncodeChar (Char.ofNat codePoint)

/-- What follows \u: one code unit, or the two of a surrogate pair. -/
def readUnicode (b : Bytes) : Option (Bytes × Bytes) := do
  let (unit, rest) ← readUnit b
  if 0xD800 ≤ unit ∧ unit < 0xDC00 then
    match rest with
    | 92 :: 117 :: rest =>
      let (low, rest) ← readUnit rest
      if 0xDC00 ≤ low ∧ low < 0xE000 then
        return (utf8 (0x10000 + 0x400 * (unit - 0xD800) + (low - 0xDC00)), rest)
      else none
    | _ => none
  else if 0xDC00 ≤ unit ∧ unit < 0xE000 then none
  else return (utf8 unit, rest)

/-- The characters that a backslash may stand before, and what they then mean. -/
def escapes : List (UInt8 × UInt8) :=
  [(34, 34), (92, 92), (47, 47), (98, 8), (102, 12), (110, 10), (114, 13), (116, 9)]

def readEscape : Bytes → Option (Bytes × Bytes)
  | [] => none
  | c :: rest =>
    if c = 117 then readUnicode rest
    else (escapes.lookup c).map fun d => ([d], rest)

def Plain (c : UInt8) : Prop := 32 ≤ c

instance (c : UInt8) : Decidable (Plain c) := inferInstanceAs (Decidable (32 ≤ c))

theorem plain_hexDigit {c : UInt8} {n : ℕ} (h : hexDigit c = some n) : Plain c := by
  unfold hexDigit at h
  simp only [isDigit] at h
  unfold Plain
  grind

theorem readUnit_front {b rest : Bytes} {n : ℕ} (h : readUnit b = some (n, rest)) :
    Front Plain b rest := by
  unfold readUnit at h
  split at h
  · simp only [Option.bind_eq_bind, Option.bind_eq_some_iff, Option.pure_def, Option.some.injEq,
      Prod.mk.injEq] at h
    obtain ⟨_, ha, _, hb, _, hc, _, hd, -, rfl⟩ := h
    exact .cons (plain_hexDigit ha) (.cons (plain_hexDigit hb) (.cons (plain_hexDigit hc)
      (.cons (plain_hexDigit hd) (.refl _))))
  · cases h

theorem readUnicode_front {b s rest : Bytes} (h : readUnicode b = some (s, rest)) :
    Front Plain b rest := by
  obtain ⟨⟨unit, after⟩, hunit, h⟩ := Option.bind_eq_some_iff.mp h
  refine (readUnit_front hunit).trans ?_
  dsimp only at h
  split_ifs at h
  · split at h
    · obtain ⟨⟨low, last⟩, hlow, h⟩ := Option.bind_eq_some_iff.mp h
      dsimp only at h
      split_ifs at h
      obtain rfl := (Prod.mk.inj (Option.some.inj h)).2
      exact .cons (by decide) (.cons (by decide) (readUnit_front hlow))
    · cases h
  · obtain rfl := (Prod.mk.inj (Option.some.inj h)).2
    exact .refl _

theorem readEscape_front {b s rest : Bytes} (h : readEscape b = some (s, rest)) :
    Front Plain b rest := by
  rcases b with _ | ⟨c, after⟩
  · cases h
  · by_cases hunicode : c = 117
    · subst hunicode
      exact .cons (by decide) (readUnicode_front h)
    · rw [readEscape, if_neg hunicode] at h
      obtain ⟨d, hd, h⟩ := Option.map_eq_some_iff.mp h
      obtain rfl := (Prod.mk.inj h).2
      have hplain : ∀ e ∈ escapes, Plain e.1 := List.forall_iff_forall_mem.mp (by decide)
      obtain ⟨before, after, hescapes, -⟩ := List.lookup_eq_some_iff.mp hd
      exact .cons (hplain (c, d) (by simp [hescapes])) (.refl _)

def readLiteral (b : Bytes) : Option (Bytes × Bytes) :=
  match b with
  | [] => none
  | c :: rest =>
    if c = 34 then some ([], rest)
    else if c = 92 then
      match _h : readEscape rest with
      | none => none
      | some (s, rest) => (readLiteral rest).map fun (t, rest) => (s ++ t, rest)
    else if c < 32 then none
    else (readLiteral rest).map fun (t, rest) => (c :: t, rest)
termination_by b.length
decreasing_by
  · have hle := (readEscape_front _h).length_le
    simp only [List.length_cons]
    omega
  · simp

theorem readLiteral_quote (rest : Bytes) : readLiteral (34 :: rest) = some ([], rest) := by
  rw [readLiteral, if_pos rfl]

theorem readLiteral_escape {b : Bytes} : readLiteral (92 :: b) = (readEscape b).bind
    fun (s, rest) => (readLiteral rest).map fun (t, rest) => (s ++ t, rest) := by
  rw [readLiteral, if_neg (by decide), if_pos rfl]
  split
  · next h => rw [h, Option.bind_none]
  · next s rest h => rw [h, Option.bind_some]

theorem readLiteral_simple {e d : UInt8} (he : e ≠ 117) (h : escapes.lookup e = some d)
    (b : Bytes) :
    readLiteral (92 :: e :: b) = (readLiteral b).map fun (t, rest) => (d :: t, rest) := by
  have hread : readEscape (e :: b) = some ([d], b) := by
    rw [readEscape, if_neg he, h, Option.map_some]
  rw [readLiteral_escape, hread, Option.bind_some]
  rfl

theorem readLiteral_plain {c : UInt8} (hquote : c ≠ 34) (hescape : c ≠ 92) (b : Bytes) :
    readLiteral (c :: b) =
      if c < 32 then none else (readLiteral b).map fun (t, rest) => (c :: t, rest) := by
  rw [readLiteral, if_neg hquote, if_neg hescape]

theorem readLiteral_front {b s rest : Bytes} (h : readLiteral b = some (s, rest)) :
    Front Plain b rest := by
  induction hlength : b.length using Nat.strong_induction_on generalizing b s with
  | _ n ih =>
    subst hlength
    rcases b with _ | ⟨c, b⟩
    · simp [readLiteral] at h
    · by_cases hquote : c = 34
      · subst hquote
        rw [readLiteral_quote] at h
        obtain rfl := (Prod.mk.inj (Option.some.inj h)).2
        exact .cons (by decide) (.refl _)
      · by_cases hescape : c = 92
        · subst hescape
          rw [readLiteral_escape] at h
          obtain ⟨⟨t, after⟩, hread, h⟩ := Option.bind_eq_some_iff.mp h
          obtain ⟨⟨u, last⟩, hlast, h⟩ := Option.map_eq_some_iff.mp h
          obtain rfl := (Prod.mk.inj h).2
          have hfront := readEscape_front hread
          have hshort : after.length < (92 :: b).length := by
            have hle := hfront.length_le
            rw [List.length_cons]
            omega
          exact .cons (by decide) (hfront.trans (ih after.length hshort hlast rfl))
        · rw [readLiteral_plain hquote hescape] at h
          split_ifs at h with hcontrol
          obtain ⟨⟨t, last⟩, hlast, h⟩ := Option.map_eq_some_iff.mp h
          obtain rfl := (Prod.mk.inj h).2
          exact .cons (UInt8.not_lt.mp hcontrol)
            (ih b.length (by simp) hlast rfl)

def isExponent : Bytes → Bool
  | [] => true
  | c :: rest =>
    let digits := if rest.head? = some 43 ∨ rest.head? = some 45 then rest.tail else rest
    (c = 101 || c = 69) && !digits.isEmpty && digits.all isDigit

def isFraction : Bytes → Bool
  | 46 :: rest =>
    let digits := rest.takeWhile isDigit
    !digits.isEmpty && isExponent (rest.drop digits.length)
  | text => isExponent text

/-- No digit stands behind a leading 0. -/
def isUnsigned (text : Bytes) : Bool :=
  let digits := text.takeWhile isDigit
  (digits = [48] || !digits.isEmpty && digits.head? ≠ some 48) &&
    isFraction (text.drop digits.length)

def isNumber : Bytes → Bool
  | 45 :: text => isUnsigned text
  | text => isUnsigned text

def isNumberByte (c : UInt8) : Bool :=
  isDigit c || c = 43 || c = 45 || c = 46 || c = 69 || c = 101

/-- A number is as long as it can be. -/
def readNumber (b : Bytes) : Option (Bytes × Bytes) :=
  let text := b.takeWhile isNumberByte
  if isNumber text then some (text, b.drop text.length) else none

def isBlank (c : UInt8) : Bool := c = 32 || c = 9 || c = 10 || c = 13

def skipBlanks (b : Bytes) : Bytes := b.dropWhile isBlank

inductive Word : Bytes → Value → Prop where
  | null : Word (ascii "null") .null
  | true : Word (ascii "true") (.boolean true)
  | false : Word (ascii "false") (.boolean false)

/-- What is being read: a value, or what follows '[' or '{' of an array or object that is not
empty, up to its end. -/
inductive Reading where
  | value (v : Value)
  | elements (vs : List Value)
  | members (ms : List (Bytes × Value))

inductive Reads : Bytes → Reading → Bytes → Prop where
  | word {b rest w : Bytes} {v : Value} (hw : Word w v) (h : skipBlanks b = w ++ rest) :
    Reads b (.value v) rest
  | number {b rest text : Bytes} (h : readNumber (skipBlanks b) = some (text, rest)) :
    Reads b (.value (.number text)) rest
  | string {b inner rest s : Bytes} (h : skipBlanks b = 34 :: inner)
    (hs : readLiteral inner = some (s, rest)) : Reads b (.value (.string s)) rest
  | emptyArray {b inner rest : Bytes} (h : skipBlanks b = 91 :: inner)
    (hend : skipBlanks inner = 93 :: rest) : Reads b (.value (.array [])) rest
  | array {b inner rest : Bytes} {vs : List Value} (h : skipBlanks b = 91 :: inner)
    (hvs : Reads inner (.elements vs) rest) : Reads b (.value (.array vs)) rest
  | lastElement {b after rest : Bytes} {v : Value} (hv : Reads b (.value v) after)
    (hend : skipBlanks after = 93 :: rest) : Reads b (.elements [v]) rest
  | element {b after next rest : Bytes} {v : Value} {vs : List Value}
    (hv : Reads b (.value v) after) (hcomma : skipBlanks after = 44 :: next)
    (hvs : Reads next (.elements vs) rest) : Reads b (.elements (v :: vs)) rest
  | emptyObject {b inner rest : Bytes} (h : skipBlanks b = 123 :: inner)
    (hend : skipBlanks inner = 125 :: rest) : Reads b (.value (.object [])) rest
  | object {b inner rest : Bytes} {ms : List (Bytes × Value)} (h : skipBlanks b = 123 :: inner)
    (hms : Reads inner (.members ms) rest) : Reads b (.value (.object ms)) rest
  | lastMember {b inner colon value after rest name : Bytes} {v : Value}
    (h : skipBlanks b = 34 :: inner) (hname : readLiteral inner = some (name, colon))
    (hcolon : skipBlanks colon = 58 :: value) (hv : Reads value (.value v) after)
    (hend : skipBlanks after = 125 :: rest) : Reads b (.members [(name, v)]) rest
  | member {b inner colon value after next rest name : Bytes} {v : Value}
    {ms : List (Bytes × Value)} (h : skipBlanks b = 34 :: inner)
    (hname : readLiteral inner = some (name, colon)) (hcolon : skipBlanks colon = 58 :: value)
    (hv : Reads value (.value v) after) (hcomma : skipBlanks after = 44 :: next)
    (hms : Reads next (.members ms) rest) : Reads b (.members ((name, v) :: ms)) rest

/-- A JSON text, with what it denotes. -/
def Decodes (b : Bytes) (v : Value) : Prop :=
  ValidUtf8 b ∧ ∃ rest, Reads b (.value v) rest ∧ skipBlanks rest = []

def Allowed (c : UInt8) : Prop := 32 ≤ c ∨ c = 9 ∨ c = 10 ∨ c = 13

instance (c : UInt8) : Decidable (Allowed c) :=
  inferInstanceAs (Decidable (32 ≤ c ∨ c = 9 ∨ c = 10 ∨ c = 13))

theorem skipBlanks_front (b : Bytes) : Front Allowed b (skipBlanks b) := by
  refine ⟨b.takeWhile isBlank, (List.takeWhile_append_dropWhile).symm, ?_⟩
  intro c hc
  have hblank := List.mem_takeWhile_imp hc
  simp only [isBlank, Bool.or_eq_true, decide_eq_true_eq] at hblank
  rcases hblank with ((rfl | rfl) | rfl) | rfl
  · decide
  · decide
  · decide
  · decide

theorem skipBlanks_cons {b rest : Bytes} {c : UInt8} (h : skipBlanks b = c :: rest)
    (hc : Allowed c) : Front Allowed b rest := by
  have hskipped := skipBlanks_front b
  rw [h] at hskipped
  exact hskipped.trans (.cons hc (.refl _))

theorem readLiteral_allowed {b s rest : Bytes} (h : readLiteral b = some (s, rest)) :
    Front Allowed b rest := (readLiteral_front h).mono fun _ hc => .inl hc

theorem readNumber_front {b text rest : Bytes} (h : readNumber b = some (text, rest)) :
    Front Allowed b rest := by
  rw [readNumber] at h
  split_ifs at h
  obtain ⟨rfl, rfl⟩ := Prod.mk.inj (Option.some.inj h)
  refine ⟨b.takeWhile isNumberByte, ?_, ?_⟩
  · exact (List.prefix_iff_eq_append.mp (List.takeWhile_prefix isNumberByte)).symm
  · intro c hc
    have hbyte := List.mem_takeWhile_imp hc
    simp only [isNumberByte, isDigit] at hbyte
    unfold Allowed
    grind

theorem word_front {w : Bytes} {v : Value} (hw : Word w v) (rest : Bytes) :
    Front Allowed (w ++ rest) rest := by
  refine ⟨w, rfl, List.forall_iff_forall_mem.mp ?_⟩
  cases hw with
  | null => decide
  | true => decide
  | false => decide

theorem Reads.front {b rest : Bytes} {x : Reading} (h : Reads b x rest) :
    Front Allowed b rest := by
  induction h with
  | @word b rest w v hw h =>
    have hskipped := skipBlanks_front b
    rw [h] at hskipped
    exact hskipped.trans (word_front hw rest)
  | number h => exact (skipBlanks_front _).trans (readNumber_front h)
  | string h hs => exact (skipBlanks_cons h (by decide)).trans (readLiteral_allowed hs)
  | emptyArray h hend =>
    exact (skipBlanks_cons h (by decide)).trans (skipBlanks_cons hend (by decide))
  | array h _ ih => exact (skipBlanks_cons h (by decide)).trans ih
  | lastElement _ hend ih => exact ih.trans (skipBlanks_cons hend (by decide))
  | element _ hcomma _ ihv ihvs =>
    exact ihv.trans ((skipBlanks_cons hcomma (by decide)).trans ihvs)
  | emptyObject h hend =>
    exact (skipBlanks_cons h (by decide)).trans (skipBlanks_cons hend (by decide))
  | object h _ ih => exact (skipBlanks_cons h (by decide)).trans ih
  | lastMember h hname hcolon _ hend ih =>
    have hbefore := (skipBlanks_cons h (by decide)).trans (readLiteral_allowed hname)
    have hafter := ih.trans (skipBlanks_cons hend (by decide))
    exact hbefore.trans ((skipBlanks_cons hcolon (by decide)).trans hafter)
  | member h hname hcolon _ hcomma _ ihv ihms =>
    have hbefore := (skipBlanks_cons h (by decide)).trans (readLiteral_allowed hname)
    have hafter := ihv.trans ((skipBlanks_cons hcomma (by decide)).trans ihms)
    exact hbefore.trans ((skipBlanks_cons hcolon (by decide)).trans hafter)

theorem Decodes.allowed {b : Bytes} {v : Value} (h : Decodes b v) : ∀ c ∈ b, Allowed c := by
  obtain ⟨-, rest, hreads, hend⟩ := h
  have hblanks := skipBlanks_front rest
  rw [hend] at hblanks
  exact (hreads.front.trans hblanks).all (by simp)

theorem isNumber_nil : isNumber [] = false := by decide

theorem readNumber_head {b text rest : Bytes} (h : readNumber b = some (text, rest)) :
    ∃ c t, b = c :: t ∧ isNumberByte c := by
  rcases b with _ | ⟨c, t⟩
  · simp [readNumber, isNumber_nil] at h
  · refine ⟨c, t, rfl, ?_⟩
    by_contra hc
    simp [readNumber, List.takeWhile_cons_of_neg hc, isNumber_nil] at h

/-- The kinds of values, told by their first byte. -/
inductive Head where
  | word
  | number
  | quote
  | bracket
  | brace
  | other
  deriving DecidableEq

def headOf (c : UInt8) : Head :=
  if c = 34 then .quote
  else if c = 91 then .bracket
  else if c = 123 then .brace
  else if isNumberByte c then .number
  else if c = 110 ∨ c = 116 ∨ c = 102 then .word
  else .other

def Value.head : Value → Head
  | .null => .word
  | .boolean _ => .word
  | .number _ => .number
  | .string _ => .quote
  | .array _ => .bracket
  | .object _ => .brace

theorem headOf_number {c : UInt8} (h : isNumberByte c) : headOf c = .number := by
  unfold headOf
  simp only [isNumberByte, isDigit] at h ⊢
  grind

theorem word_head {w : Bytes} {v : Value} (hw : Word w v) :
    ∃ c t, w = c :: t ∧ headOf c = v.head := by
  cases hw with
  | null => exact ⟨110, _, rfl, by decide⟩
  | true => exact ⟨116, _, rfl, by decide⟩
  | false => exact ⟨102, _, rfl, by decide⟩

theorem Reads.head {b rest : Bytes} {v : Value} (h : Reads b (.value v) rest) :
    ∃ c t, skipBlanks b = c :: t ∧ headOf c = v.head := by
  cases h with
  | word hw h =>
    obtain ⟨c, t, rfl, hhead⟩ := word_head hw
    exact ⟨c, t ++ rest, h, hhead⟩
  | number h =>
    obtain ⟨c, t, hb, hc⟩ := readNumber_head h
    exact ⟨c, t, hb, headOf_number hc⟩
  | string h _ => exact ⟨34, _, h, rfl⟩
  | emptyArray h _ => exact ⟨91, _, h, rfl⟩
  | array h _ => exact ⟨91, _, h, rfl⟩
  | emptyObject h _ => exact ⟨123, _, h, rfl⟩
  | object h _ => exact ⟨123, _, h, rfl⟩

theorem Reads.head_eq {b rest rest' : Bytes} {v v' : Value} (h : Reads b (.value v) rest)
    (h' : Reads b (.value v') rest') : v.head = v'.head := by
  obtain ⟨c, t, hb, hhead⟩ := h.head
  obtain ⟨c', t', hb', hhead'⟩ := h'.head
  obtain ⟨rfl, -⟩ := List.cons.inj (hb.symm.trans hb')
  rw [← hhead, hhead']

theorem Reads.elements_not_end {b rest inner : Bytes} {vs : List Value}
    (h : Reads b (.elements vs) rest) : skipBlanks b ≠ 93 :: inner := by
  intro hend
  have hvalue : ∃ v after, Reads b (.value v) after := by
    cases h with
    | lastElement hv _ => exact ⟨_, _, hv⟩
    | element hv _ _ => exact ⟨_, _, hv⟩
  obtain ⟨v, after, hv⟩ := hvalue
  obtain ⟨c, t, hb, hhead⟩ := hv.head
  obtain ⟨rfl, -⟩ := List.cons.inj (hb.symm.trans hend)
  have hother : headOf 93 = .other := by decide
  rw [hother] at hhead
  cases v <;> cases hhead

theorem Reads.members_not_end {b rest inner : Bytes} {ms : List (Bytes × Value)}
    (h : Reads b (.members ms) rest) : skipBlanks b ≠ 125 :: inner := by
  intro hend
  cases h with
  | lastMember h _ _ _ _ => exact absurd (List.cons.inj (h.symm.trans hend)).1 (by decide)
  | member h _ _ _ _ _ => exact absurd (List.cons.inj (h.symm.trans hend)).1 (by decide)

def Reading.Only (b rest : Bytes) : Reading → Prop
  | .value v => ∀ v' rest', Reads b (.value v') rest' → v = v' ∧ rest = rest'
  | .elements vs => ∀ vs' rest', Reads b (.elements vs') rest' → vs = vs' ∧ rest = rest'
  | .members ms => ∀ ms' rest', Reads b (.members ms') rest' → ms = ms' ∧ rest = rest'

theorem word_unique {w w' rest rest' : Bytes} {v v' : Value} (hw : Word w v) (hw' : Word w' v')
    (h : w ++ rest = w' ++ rest') : v = v' ∧ rest = rest' := by
  cases hw <;> cases hw' <;> simp_all [ascii]

theorem Reads.string_inv {b rest s : Bytes} (h : Reads b (.value (.string s)) rest) :
    ∃ inner, skipBlanks b = 34 :: inner ∧ readLiteral inner = some (s, rest) := by
  cases h with
  | word hw _ => cases hw
  | string h hs => exact ⟨_, h, hs⟩

theorem Reads.number_inv {b rest text : Bytes} (h : Reads b (.value (.number text)) rest) :
    readNumber (skipBlanks b) = some (text, rest) := by
  cases h with
  | word hw _ => cases hw
  | number h => exact h

theorem Reads.array_inv {b rest : Bytes} {vs : List Value}
    (h : Reads b (.value (.array vs)) rest) : ∃ inner, skipBlanks b = 91 :: inner ∧
      (vs = [] ∧ skipBlanks inner = 93 :: rest ∨ Reads inner (.elements vs) rest) := by
  cases h with
  | word hw _ => cases hw
  | emptyArray h hend => exact ⟨_, h, .inl ⟨rfl, hend⟩⟩
  | array h hvs => exact ⟨_, h, .inr hvs⟩

theorem Reads.object_inv {b rest : Bytes} {ms : List (Bytes × Value)}
    (h : Reads b (.value (.object ms)) rest) : ∃ inner, skipBlanks b = 123 :: inner ∧
      (ms = [] ∧ skipBlanks inner = 125 :: rest ∨ Reads inner (.members ms) rest) := by
  cases h with
  | word hw _ => cases hw
  | emptyObject h hend => exact ⟨_, h, .inl ⟨rfl, hend⟩⟩
  | object h hms => exact ⟨_, h, .inr hms⟩

theorem Reads.word_inv {b rest : Bytes} {v : Value} (h : Reads b (.value v) rest)
    (hhead : v.head = .word) : ∃ w, Word w v ∧ skipBlanks b = w ++ rest := by
  cases h with
  | word hw h => exact ⟨_, hw, h⟩
  | number _ => cases hhead
  | string _ _ => cases hhead
  | emptyArray _ _ => cases hhead
  | array _ _ => cases hhead
  | emptyObject _ _ => cases hhead
  | object _ _ => cases hhead

theorem Word.head {w : Bytes} {v : Value} (hw : Word w v) : v.head = .word := by
  cases hw with
  | null => rfl
  | true => rfl
  | false => rfl

theorem Reads.elements_inv {b rest : Bytes} {vs : List Value} (h : Reads b (.elements vs) rest) :
    ∃ v others after, vs = v :: others ∧ Reads b (.value v) after ∧
      (others = [] ∧ skipBlanks after = 93 :: rest ∨
        ∃ next, skipBlanks after = 44 :: next ∧ Reads next (.elements others) rest) := by
  cases h with
  | lastElement hv hend => exact ⟨_, [], _, rfl, hv, .inl ⟨rfl, hend⟩⟩
  | element hv hcomma hvs => exact ⟨_, _, _, rfl, hv, .inr ⟨_, hcomma, hvs⟩⟩

theorem Reads.members_inv {b rest : Bytes} {ms : List (Bytes × Value)}
    (h : Reads b (.members ms) rest) :
    ∃ name v others inner colon value after, ms = (name, v) :: others ∧
      skipBlanks b = 34 :: inner ∧ readLiteral inner = some (name, colon) ∧
      skipBlanks colon = 58 :: value ∧ Reads value (.value v) after ∧
      (others = [] ∧ skipBlanks after = 125 :: rest ∨
        ∃ next, skipBlanks after = 44 :: next ∧ Reads next (.members others) rest) := by
  cases h with
  | lastMember h hname hcolon hv hend =>
    exact ⟨_, _, [], _, _, _, _, rfl, h, hname, hcolon, hv, .inl ⟨rfl, hend⟩⟩
  | member h hname hcolon hv hcomma hms =>
    exact ⟨_, _, _, _, _, _, _, rfl, h, hname, hcolon, hv, .inr ⟨_, hcomma, hms⟩⟩

/-- By induction on the reading: at each place the first byte after blanks decides. -/
theorem Reads.only {b rest : Bytes} {x : Reading} (h : Reads b x rest) : x.Only b rest := by
  induction h with
  | @word b rest w v hw h =>
    intro v' rest' h'
    have hhead := (Reads.word hw h).head_eq h'
    obtain ⟨w', hw', h₁⟩ := h'.word_inv (hhead.symm.trans hw.head)
    exact word_unique hw hw' (h.symm.trans h₁)
  | number h =>
    intro v' rest' h'
    have hhead := (Reads.number h).head_eq h'
    cases v' <;> cases hhead
    obtain ⟨rfl, rfl⟩ := Prod.mk.inj (Option.some.inj (h.symm.trans h'.number_inv))
    exact ⟨rfl, rfl⟩
  | string h hs =>
    intro v' rest' h'
    have hhead := (Reads.string h hs).head_eq h'
    cases v' <;> cases hhead
    obtain ⟨inner, h₁, hs₁⟩ := h'.string_inv
    obtain ⟨-, rfl⟩ := List.cons.inj (h.symm.trans h₁)
    obtain ⟨rfl, rfl⟩ := Prod.mk.inj (Option.some.inj (hs.symm.trans hs₁))
    exact ⟨rfl, rfl⟩
  | emptyArray h hend =>
    intro v' rest' h'
    have hhead := (Reads.emptyArray h hend).head_eq h'
    cases v' <;> cases hhead
    obtain ⟨inner, h₁, ⟨rfl, hend₁⟩ | hvs⟩ := h'.array_inv
    · obtain ⟨-, rfl⟩ := List.cons.inj (h.symm.trans h₁)
      exact ⟨rfl, (List.cons.inj (hend.symm.trans hend₁)).2⟩
    · obtain ⟨-, rfl⟩ := List.cons.inj (h.symm.trans h₁)
      exact absurd hend hvs.elements_not_end
  | array h hvs ih =>
    intro v' rest' h'
    have hhead := (Reads.array h hvs).head_eq h'
    cases v' <;> cases hhead
    obtain ⟨inner, h₁, ⟨rfl, hend₁⟩ | hvs₁⟩ := h'.array_inv
    · obtain ⟨-, rfl⟩ := List.cons.inj (h.symm.trans h₁)
      exact absurd hend₁ hvs.elements_not_end
    · obtain ⟨-, rfl⟩ := List.cons.inj (h.symm.trans h₁)
      obtain ⟨rfl, rfl⟩ := ih _ _ hvs₁
      exact ⟨rfl, rfl⟩
  | lastElement hv hend ih =>
    intro vs' rest' h'
    obtain ⟨v', others, after, rfl, hv₁, hnext⟩ := h'.elements_inv
    obtain ⟨rfl, rfl⟩ := ih _ _ hv₁
    rcases hnext with ⟨rfl, hend₁⟩ | ⟨next, hcomma, _⟩
    · exact ⟨rfl, (List.cons.inj (hend.symm.trans hend₁)).2⟩
    · exact absurd (List.cons.inj (hend.symm.trans hcomma)).1 (by decide)
  | element hv hcomma hvs ihv ihvs =>
    intro vs' rest' h'
    obtain ⟨v', others, after, rfl, hv₁, hnext⟩ := h'.elements_inv
    obtain ⟨rfl, rfl⟩ := ihv _ _ hv₁
    rcases hnext with ⟨rfl, hend⟩ | ⟨next, hcomma₁, hvs₁⟩
    · exact absurd (List.cons.inj (hcomma.symm.trans hend)).1 (by decide)
    · obtain ⟨-, rfl⟩ := List.cons.inj (hcomma.symm.trans hcomma₁)
      obtain ⟨rfl, rfl⟩ := ihvs _ _ hvs₁
      exact ⟨rfl, rfl⟩
  | emptyObject h hend =>
    intro v' rest' h'
    have hhead := (Reads.emptyObject h hend).head_eq h'
    cases v' <;> cases hhead
    obtain ⟨inner, h₁, ⟨rfl, hend₁⟩ | hms⟩ := h'.object_inv
    · obtain ⟨-, rfl⟩ := List.cons.inj (h.symm.trans h₁)
      exact ⟨rfl, (List.cons.inj (hend.symm.trans hend₁)).2⟩
    · obtain ⟨-, rfl⟩ := List.cons.inj (h.symm.trans h₁)
      exact absurd hend hms.members_not_end
  | object h hms ih =>
    intro v' rest' h'
    have hhead := (Reads.object h hms).head_eq h'
    cases v' <;> cases hhead
    obtain ⟨inner, h₁, ⟨rfl, hend₁⟩ | hms₁⟩ := h'.object_inv
    · obtain ⟨-, rfl⟩ := List.cons.inj (h.symm.trans h₁)
      exact absurd hend₁ hms.members_not_end
    · obtain ⟨-, rfl⟩ := List.cons.inj (h.symm.trans h₁)
      obtain ⟨rfl, rfl⟩ := ih _ _ hms₁
      exact ⟨rfl, rfl⟩
  | lastMember h hname hcolon hv hend ih =>
    intro ms' rest' h'
    obtain ⟨name, v', others, inner, colon, value, after, rfl, h₁, hname₁, hcolon₁, hv₁, hnext⟩ :=
      h'.members_inv
    obtain ⟨-, rfl⟩ := List.cons.inj (h.symm.trans h₁)
    obtain ⟨rfl, rfl⟩ := Prod.mk.inj (Option.some.inj (hname.symm.trans hname₁))
    obtain ⟨-, rfl⟩ := List.cons.inj (hcolon.symm.trans hcolon₁)
    obtain ⟨rfl, rfl⟩ := ih _ _ hv₁
    rcases hnext with ⟨rfl, hend₁⟩ | ⟨next, hcomma, _⟩
    · exact ⟨rfl, (List.cons.inj (hend.symm.trans hend₁)).2⟩
    · exact absurd (List.cons.inj (hend.symm.trans hcomma)).1 (by decide)
  | member h hname hcolon hv hcomma hms ihv ihms =>
    intro ms' rest' h'
    obtain ⟨name, v', others, inner, colon, value, after, rfl, h₁, hname₁, hcolon₁, hv₁, hnext⟩ :=
      h'.members_inv
    obtain ⟨-, rfl⟩ := List.cons.inj (h.symm.trans h₁)
    obtain ⟨rfl, rfl⟩ := Prod.mk.inj (Option.some.inj (hname.symm.trans hname₁))
    obtain ⟨-, rfl⟩ := List.cons.inj (hcolon.symm.trans hcolon₁)
    obtain ⟨rfl, rfl⟩ := ihv _ _ hv₁
    rcases hnext with ⟨rfl, hend⟩ | ⟨next, hcomma₁, hms₁⟩
    · exact absurd (List.cons.inj (hcomma.symm.trans hend)).1 (by decide)
    · obtain ⟨-, rfl⟩ := List.cons.inj (hcomma.symm.trans hcomma₁)
      obtain ⟨rfl, rfl⟩ := ihms _ _ hms₁
      exact ⟨rfl, rfl⟩

theorem Decodes.unique {b : Bytes} {v v' : Value} (h : Decodes b v) (h' : Decodes b v') :
    v = v' := by
  obtain ⟨-, rest, hreads, -⟩ := h
  obtain ⟨-, rest', hreads', -⟩ := h'
  exact (hreads.only v' rest' hreads').1

end JsonTexts
