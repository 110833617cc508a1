import HaoShortLink.HttpContexts

/-! Which bytes complete a request, said without the parser. -/
namespace RequestGrammars

open Cpp HttpRequests HttpContexts
open Resumable (Scanner Verdict)

def HasBody (request : HttpRequest) : Prop := request.method = .post ∨ request.method = .put

/-- The bytes begin with what is missing of the request that stands in the context. -/
inductive RestOfRequest : HttpContext → Bytes → Prop where
  | requestLine {request request' line rest} : findCRLF line = none →
      processRequestLine request line = (true, request') →
      RestOfRequest ⟨.expectHeaders, request'⟩ rest →
      RestOfRequest ⟨.expectRequestLine, request⟩ (line ++ 13 :: 10 :: rest)
  | header {request key value rest} : (58 : UInt8) ∉ key →
      findCRLF (key ++ 58 :: value) = none →
      RestOfRequest ⟨.expectHeaders, request.addHeader key value⟩ rest →
      RestOfRequest ⟨.expectHeaders, request⟩ (key ++ 58 :: value ++ 13 :: 10 :: rest)
  | noBody {request rest} : ¬ HasBody request →
      RestOfRequest ⟨.expectHeaders, request⟩ (13 :: 10 :: rest)
  | contentLength {request length rest} : HasBody request →
      request.getHeader (ascii "Content-Length") ≠ [] →
      stoi (request.getHeader (ascii "Content-Length")) = .ok length →
      (request.setContentLength length).contentLength ≤ rest.length →
      RestOfRequest ⟨.expectHeaders, request⟩ (13 :: 10 :: rest)
  | body {request rest} : request.contentLength ≤ rest.length →
      RestOfRequest ⟨.expectBody, request⟩ rest

/-- A call of parseRequest ends with a complete request. -/
def Completes (c : HttpContext) (b : Bytes) : Prop :=
  ∃ c' rest, parseRequest c b = .finished .gotAll c' rest

theorem Completes.of_again {c c' : HttpContext} {b b' : Bytes}
    (h : parser.turn c b = .again c' b') : Completes c b ↔ Completes c' b' := by
  simp only [Completes, parseRequest, Scanner.run_again h]

theorem Completes.of_stop {c c' : HttpContext} {b b' : Bytes} {o : Outcome}
    (h : parser.turn c b = .stop o c' b') : Completes c b ↔ o = .gotAll := by
  simp [Completes, parseRequest, Scanner.run_stop h]

theorem not_completes_of_starved {c : HttpContext} {b : Bytes} (h : parser.turn c b = .starved) :
    ¬ Completes c b := by
  simp [Completes, parseRequest, Scanner.run_starved h]

theorem turn_requestLine {request request' : HttpRequest} {line : Bytes} (rest : Bytes)
    (hline : findCRLF line = none) (hok : processRequestLine request line = (true, request')) :
    parser.turn ⟨.expectRequestLine, request⟩ (line ++ 13 :: 10 :: rest) =
      .again ⟨.expectHeaders, request'⟩ rest := by
  simp only [parser, turn, requestLineTurn, findCRLF_line hline, hok]

theorem turn_header {key value : Bytes} (request : HttpRequest) (rest : Bytes)
    (hkey : (58 : UInt8) ∉ key) (hline : findCRLF (key ++ 58 :: value) = none) :
    parser.turn ⟨.expectHeaders, request⟩ (key ++ 58 :: value ++ 13 :: 10 :: rest) =
      .again ⟨.expectHeaders, request.addHeader key value⟩ rest := by
  simp only [parser, turn, headerTurn, findCRLF_line hline, takeWhile_until hkey,
    List.drop_left]

theorem turn_contentLength {request : HttpRequest} {length : ℤ} (rest : Bytes)
    (hbody : HasBody request) (hne : request.getHeader (ascii "Content-Length") ≠ [])
    (hlength : stoi (request.getHeader (ascii "Content-Length")) = .ok length) :
    parser.turn ⟨.expectHeaders, request⟩ (13 :: 10 :: rest) =
      if 0 < (request.setContentLength length).contentLength
      then .again ⟨.expectBody, request.setContentLength length⟩ rest
      else .stop .gotAll ⟨.gotAll, request.setContentLength length⟩ rest := by
  change endOfHeaders ⟨.expectHeaders, request⟩ (13 :: 10 :: rest) rest = _
  simp only [endOfHeaders, if_pos (show request.method = .post ∨ request.method = .put from hbody),
    if_neg hne, hlength]

theorem turn_noBody {request : HttpRequest} (rest : Bytes) (hbody : ¬ HasBody request) :
    parser.turn ⟨.expectHeaders, request⟩ (13 :: 10 :: rest) =
      .stop .gotAll ⟨.gotAll, request⟩ rest := by
  change endOfHeaders ⟨.expectHeaders, request⟩ (13 :: 10 :: rest) rest = _
  simp only [endOfHeaders, if_neg (show ¬ (request.method = .post ∨ request.method = .put)
    from hbody)]

theorem completes_body_iff {request : HttpRequest} {b : Bytes} :
    Completes ⟨.expectBody, request⟩ b ↔ request.contentLength ≤ b.length := by
  by_cases h : b.length < request.contentLength
  · have hstarved : parser.turn ⟨.expectBody, request⟩ b = .starved := by
      simp only [parser, turn, bodyTurn, if_pos h]
    exact iff_of_false (not_completes_of_starved hstarved) (Nat.not_le_of_lt h)
  · have hstop : parser.turn ⟨.expectBody, request⟩ b = .stop .gotAll
        ⟨.gotAll, { request with body := b.take request.contentLength }⟩
        (b.drop request.contentLength) := by
      simp only [parser, turn, bodyTurn, if_neg h]
    exact iff_of_true ((Completes.of_stop hstop).mpr rfl) (Nat.le_of_not_lt h)

theorem RestOfRequest.completes {c : HttpContext} {b : Bytes} (h : RestOfRequest c b) :
    Completes c b := by
  induction h with
  | requestLine hline hok _ ih => exact (Completes.of_again (turn_requestLine _ hline hok)).mpr ih
  | header hkey hline _ ih => exact (Completes.of_again (turn_header _ _ hkey hline)).mpr ih
  | noBody hbody => exact (Completes.of_stop (turn_noBody _ hbody)).mpr rfl
  | @contentLength request length rest hbody hne hlength hle =>
    have hturn := turn_contentLength rest hbody hne hlength
    split at hturn
    · exact (Completes.of_again hturn).mpr (completes_body_iff.mpr hle)
    · exact (Completes.of_stop hturn).mpr rfl
  | body hle => exact completes_body_iff.mpr hle

theorem RestOfRequest.of_blank {request : HttpRequest} {rest : Bytes}
    (h : Completes ⟨.expectHeaders, request⟩ (13 :: 10 :: rest)) :
    RestOfRequest ⟨.expectHeaders, request⟩ (13 :: 10 :: rest) := by
  by_cases hbody : HasBody request
  · by_cases hne : request.getHeader (ascii "Content-Length") = []
    · have hstop : parser.turn ⟨.expectHeaders, request⟩ (13 :: 10 :: rest) =
          .stop .malformed ⟨.expectHeaders, request⟩ rest := by
        change endOfHeaders ⟨.expectHeaders, request⟩ (13 :: 10 :: rest) rest = _
        simp only [endOfHeaders, if_pos (show request.method = .post ∨ request.method = .put
          from hbody), if_pos hne]
      cases (Completes.of_stop hstop).mp h
    · cases hlength : stoi (request.getHeader (ascii "Content-Length")) with
      | error e =>
        have hstop : parser.turn ⟨.expectHeaders, request⟩ (13 :: 10 :: rest) =
            .stop (.threw e) ⟨.expectHeaders, request⟩ (13 :: 10 :: rest) := by
          change endOfHeaders ⟨.expectHeaders, request⟩ (13 :: 10 :: rest) rest = _
          simp only [endOfHeaders, if_pos (show request.method = .post ∨ request.method = .put
            from hbody), if_neg hne, hlength]
        cases (Completes.of_stop hstop).mp h
      | ok length =>
        refine .contentLength hbody hne hlength ?_
        have hturn := turn_contentLength rest hbody hne hlength
        split at hturn
        · exact completes_body_iff.mp ((Completes.of_again hturn).mp h)
        · omega
  · exact .noBody hbody

theorem RestOfRequest.of_turn {c : HttpContext} {b : Bytes} (h : Completes c b)
    (ih : ∀ c' b', parser.turn c b = .again c' b' → RestOfRequest c' b') : RestOfRequest c b := by
  obtain ⟨state, request⟩ := c
  cases state with
  | expectRequestLine =>
    cases hfind : findCRLF b with
    | none =>
      exact absurd h (not_completes_of_starved (by
        simp only [parser, turn, requestLineTurn, hfind]))
    | some p =>
      obtain ⟨line, rest⟩ := p
      obtain ⟨rfl, hline⟩ := findCRLF_eq hfind
      cases hok : processRequestLine request line with
      | mk ok request' =>
        cases ok with
        | true => exact .requestLine hline hok (ih _ _ (turn_requestLine rest hline hok))
        | false =>
          have hstop : parser.turn ⟨.expectRequestLine, request⟩ (line ++ 13 :: 10 :: rest) =
              .stop .malformed ⟨.expectRequestLine, request'⟩ (line ++ 13 :: 10 :: rest) := by
            simp only [parser, turn, requestLineTurn, hfind, hok]
          cases (Completes.of_stop hstop).mp h
  | expectHeaders =>
    cases hfind : findCRLF b with
    | none =>
      exact absurd h (not_completes_of_starved (by simp only [parser, turn, headerTurn, hfind]))
    | some p =>
      obtain ⟨line, rest⟩ := p
      obtain ⟨rfl, hline⟩ := findCRLF_eq hfind
      rcases cut_cases 58 line with hplain | ⟨key, value, hkey, rfl⟩
      · by_cases hblank : line = []
        · subst hblank
          exact .of_blank h
        · have hstop : parser.turn ⟨.expectHeaders, request⟩ (line ++ 13 :: 10 :: rest) =
              .stop .malformed ⟨.expectHeaders, request⟩ rest := by
            simp only [parser, turn, headerTurn, hfind, takeWhile_ne hplain, List.drop_length,
              if_neg hblank]
          cases (Completes.of_stop hstop).mp h
      · exact .header hkey hline (ih _ _ (turn_header request rest hkey hline))
  | expectBody => exact .body (completes_body_iff.mp h)
  | gotAll => cases (Completes.of_stop (o := .spins) rfl).mp h

/-- The parser completes a request exactly when the grammar says the bytes do. -/
theorem restOfRequest_iff {c : HttpContext} {b : Bytes} : RestOfRequest c b ↔ Completes c b := by
  refine ⟨RestOfRequest.completes, ?_⟩
  intro h
  induction c, b using Scanner.run_induction (M := parser) with
  | again c b c' b' ht ih =>
    refine .of_turn h ?_
    intro d d' hd
    rw [ht] at hd
    cases hd
    exact ih ((Completes.of_again ht).mp h)
  | stop c b o c' b' ht => exact .of_turn h fun d d' hd => by rw [ht] at hd; cases hd
  | starved c b ht => exact absurd h (not_completes_of_starved ht)

end RequestGrammars
