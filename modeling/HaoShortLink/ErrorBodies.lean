import HaoShortLink.HttpResponses
import HaoShortLink.JsonTexts

/-! The body of an error response as a JSON text. -/
namespace ErrorBodies

open Cpp HttpResponses HttpResponse JsonTexts

/-- The characters that escapeJsonString leaves readable: all but the control characters other
than tab, line feed and carriage return. -/
def Escaped (s : Bytes) : Prop := ∀ c ∈ s, Allowed c

instance (s : Bytes) : Decidable (Escaped s) := List.decidableBAll _ s

theorem escapeJsonString_cons (c : UInt8) (s : Bytes) :
    escapeJsonString (c :: s) = escapeJsonString [c] ++ escapeJsonString s := by
  rw [escapeJsonString, List.flatMap_cons]
  simp [escapeJsonString]

theorem escapeJsonString_cases (c : UInt8) :
    (∃ e, e ≠ 117 ∧ escapes.lookup e = some c ∧ escapeJsonString [c] = [92, e]) ∨
      c ≠ 34 ∧ c ≠ 92 ∧ ¬ (c = 9 ∨ c = 10 ∨ c = 13) ∧ escapeJsonString [c] = [c] := by
  by_cases hspecial : c ∈ ([92, 34, 10, 13, 9] : Bytes)
  · left
    simp only [List.mem_cons, List.not_mem_nil, or_false] at hspecial
    rcases hspecial with rfl | rfl | rfl | rfl | rfl
    · exact ⟨92, by decide⟩
    · exact ⟨34, by decide⟩
    · exact ⟨110, by decide⟩
    · exact ⟨114, by decide⟩
    · exact ⟨116, by decide⟩
  · right
    simp only [List.mem_cons, List.not_mem_nil, or_false, not_or] at hspecial
    obtain ⟨hescape, hquote, hline, hreturn, htab⟩ := hspecial
    simp [escapeJsonString, hescape, hquote, hline, hreturn, htab]

theorem readLiteral_escaped {s : Bytes} (h : Escaped s) (rest : Bytes) :
    readLiteral (escapeJsonString s ++ 34 :: rest) = some (s, rest) := by
  induction s with
  | nil => exact readLiteral_quote rest
  | cons c s ih =>
    have hrest := ih fun d hd => h d (List.mem_cons_of_mem _ hd)
    rw [escapeJsonString_cons, List.append_assoc]
    rcases escapeJsonString_cases c with ⟨e, he, hlookup, hc⟩ | ⟨hquote, hescape, hblank, hc⟩
    · rw [hc, List.cons_append, List.cons_append, List.nil_append,
        readLiteral_simple he hlookup, hrest, Option.map_some]
    · have hplain : ¬ c < 32 := by
        rcases h c List.mem_cons_self with hplain | hallowed
        · exact UInt8.not_lt.mpr hplain
        · exact absurd hallowed hblank
      rw [hc, List.cons_append, List.nil_append, readLiteral_plain hquote hescape, if_neg hplain,
        hrest, Option.map_some]

theorem mem_escapeJsonString {s : Bytes} {c : UInt8} (hc : c ∈ s) (hcontrol : ¬ Allowed c) :
    c ∈ escapeJsonString s := by
  refine List.mem_flatMap.mpr ⟨c, hc, ?_⟩
  have hspecial : ∀ d ∈ ([92, 34, 10, 13, 9] : Bytes), c ≠ d := by
    intro d hd heq
    have hallowed : Escaped [92, 34, 10, 13, 9] := by decide
    exact hcontrol (heq ▸ hallowed d hd)
  simp only [List.mem_cons, List.not_mem_nil, or_false, forall_eq_or_imp, forall_eq] at hspecial
  simp [hspecial]

theorem escaped_of_allowed {s b : Bytes} (hallowed : ∀ c ∈ b, Allowed c)
    (hmem : ∀ c ∈ escapeJsonString s, c ∈ b) : Escaped s := by
  intro c hc
  by_contra hcontrol
  exact hcontrol (hallowed c (hmem c (mem_escapeJsonString hc hcontrol)))

theorem escapeJsonString_utf8 {s : Bytes} (h : ValidUtf8 s) : ValidUtf8 (escapeJsonString s) := by
  refine validUtf8_flatMap ?_ ?_ h
  · intro c hc
    have hspecial : ∀ d ∈ ([92, 34, 10, 13, 9] : Bytes), c ≠ d := by
      intro d hd heq
      have hlow : ∀ d ∈ ([92, 34, 10, 13, 9] : Bytes), ¬ 128 ≤ d :=
        List.forall_iff_forall_mem.mp (by decide)
      exact hlow d hd (heq ▸ hc)
    simp only [List.mem_cons, List.not_mem_nil, or_false, forall_eq_or_imp, forall_eq] at hspecial
    simp [hspecial]
  · intro c hc
    split_ifs
    all_goals refine List.forall_iff_forall_mem.mp ?_
    · decide
    · decide
    · decide
    · decide
    · decide
    · exact hc

def quoted (s : Bytes) : Bytes := 34 :: (escapeJsonString s ++ [34])

theorem quoted_reads_iff (s : Bytes) : Reads (quoted s) (.value (.string s)) [] ↔ Escaped s := by
  constructor
  · intro h
    refine escaped_of_allowed (h.front.all (by simp)) ?_
    intro c hc
    simp [quoted, hc]
  · intro h
    exact .string rfl (readLiteral_escaped h [])

def errorValue (errorCode message : Bytes) : Value :=
  .object [(ascii "error", .object [(ascii "code", .string errorCode),
    (ascii "message", .string message)])]

theorem errorBody_utf8 {errorCode message : Bytes} (hcode : ValidUtf8 errorCode)
    (hmessage : ValidUtf8 message) : ValidUtf8 (errorBody errorCode message) := by
  have hopening : ValidUtf8 (ascii "\x7b\"error\":\x7b\"code\":\"") := by decide
  have hmiddle : ValidUtf8 (ascii "\",\"message\":\"") := by decide
  have hclosing : ValidUtf8 (ascii "\"\x7d\x7d") := by decide
  have hfirst := validUtf8_append hopening (escapeJsonString_utf8 hcode)
  have hboth := validUtf8_append (validUtf8_append hfirst hmiddle) (escapeJsonString_utf8 hmessage)
  exact validUtf8_append hboth hclosing

theorem readLiteral_name {name : Bytes} (h : Escaped name) (hsame : escapeJsonString name = name)
    (rest : Bytes) : readLiteral (name ++ 34 :: rest) = some (name, rest) := by
  have hread := readLiteral_escaped h rest
  rwa [hsame] at hread

theorem errorBody_reads {errorCode message : Bytes} (hcode : Escaped errorCode)
    (hmessage : Escaped message) :
    Reads (errorBody errorCode message) (.value (errorValue errorCode message)) [] := by
  have hbody : errorBody errorCode message = 123 :: 34 :: (ascii "error" ++ 34 :: 58 :: 123 :: 34 ::
      (ascii "code" ++ 34 :: 58 :: 34 :: (escapeJsonString errorCode ++ 34 :: 44 :: 34 ::
      (ascii "message" ++ 34 :: 58 :: 34 :: (escapeJsonString message ++ 34 :: [125, 125]))))) := by
    simp [errorBody, ascii]
  rw [hbody]
  refine .object rfl (.lastMember rfl (readLiteral_name (by decide) (by decide) _) rfl
    (.object rfl (.member rfl (readLiteral_name (by decide) (by decide) _) rfl
      (.string rfl (readLiteral_escaped hcode _)) rfl
      (.lastMember rfl (readLiteral_name (by decide) (by decide) _) rfl
        (.string rfl (readLiteral_escaped hmessage _)) rfl))) rfl)

theorem decodes_iff {b : Bytes} {v : Value} : Decodes b v ↔ ∀ v', Decodes b v' ↔ v' = v := by
  constructor
  · intro h v'
    constructor
    · intro h'
      exact h'.unique h
    · intro heq
      exact heq ▸ h
  · intro h
    exact (h v).mpr rfl

/-- The body says the two strings, and nothing else, exactly when escapeJsonString knows all
their control characters. -/
theorem setErrorResponse_decodes (r : HttpResponse) (statusCode : ℕ) {errorCode message : Bytes}
    (hcode : ValidUtf8 errorCode) (hmessage : ValidUtf8 message) :
    ((∀ v, Decodes (r.setErrorResponse statusCode errorCode message).body v ↔
        v = errorValue errorCode message) ↔ Escaped errorCode ∧ Escaped message) ∧
      ∀ s, Reads (quoted s) (.value (.string s)) [] ↔ Escaped s := by
  refine ⟨?_, quoted_reads_iff⟩
  have hbody : (r.setErrorResponse statusCode errorCode message).body =
      errorBody errorCode message := rfl
  rw [hbody, ← decodes_iff]
  constructor
  · intro h
    refine ⟨escaped_of_allowed h.allowed ?_, escaped_of_allowed h.allowed ?_⟩
    · intro c hc
      simp [errorBody, hc]
    · intro c hc
      simp [errorBody, hc]
  · intro ⟨hcode', hmessage'⟩
    exact ⟨errorBody_utf8 hcode hmessage, [], errorBody_reads hcode' hmessage', rfl⟩

/-- A message that quotes a path, with an accent. -/
theorem setErrorResponse_decodes_demo :
    Decodes (({} : HttpResponse).setErrorResponse 404 (ascii "not_found")
        (ascii "no \"C:\\tmp\"\n" ++ [195, 169])).body
      (errorValue (ascii "not_found") (ascii "no \"C:\\tmp\"\n" ++ [195, 169])) :=
  decodes_iff.mpr ((setErrorResponse_decodes {} 404 (by decide) (by decide)).1.mpr (by decide))

/-- A byte that escapeJsonString does not know. -/
theorem setErrorResponse_control :
    (ValidUtf8 (ascii "bad_request") ∧ ValidUtf8 [1]) ∧
      ¬ ∃ v, Decodes
        (({} : HttpResponse).setErrorResponse 400 (ascii "bad_request") [1]).body v := by
  refine ⟨by decide, ?_⟩
  intro ⟨v, h⟩
  exact absurd (h.allowed 1 (by decide)) (by decide)

end ErrorBodies
