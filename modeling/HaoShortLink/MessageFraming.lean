import HaoShortLink.Decimals
import HaoShortLink.HeaderLookups
import HaoShortLink.RequestGrammars
import HaoShortLink.RequestLines

/-! How many bytes one message takes: its header block and the body that Content-Length declares,
and which values Content-Length may have. -/
namespace MessageFraming

open Cpp Decimals HttpRequests HttpContexts RequestLines HeaderLookups RequestGrammars
open OrderedMaps (OrderedMap)
open Resumable (Scanner Verdict)

/-- Everything up to the empty line. -/
structure HeaderBlock where
  line : RequestLine
  lines : List HeaderLine
  line_whole : findCRLF line.text = none
  lines_whole : ∀ l ∈ lines, (58 : UInt8) ∉ l.1 ∧ findCRLF (l.1 ++ 58 :: l.2) = none

def headerText (lines : List HeaderLine) (rest : Bytes) : Bytes :=
  lines.foldr (fun l rest => l.1 ++ 58 :: l.2 ++ 13 :: 10 :: rest) (13 :: 10 :: rest)

namespace HeaderBlock

def bytes (block : HeaderBlock) : Bytes :=
  block.line.text ++ 13 :: 10 :: headerText block.lines []

def request (block : HeaderBlock) : HttpRequest :=
  block.lines.foldl (fun request l => request.addHeader l.1 l.2)
    (processRequestLine {} block.line.text).2

/-- The Content-Length lines, however they are spelled. -/
def lengthLines (block : HeaderBlock) : List HeaderLine :=
  block.lines.filter fun l => sameName (ascii "Content-Length") l.1

def contentLength (block : HeaderBlock) : Bytes :=
  block.request.getHeader (ascii "Content-Length")

def SendsBody (block : HeaderBlock) : Prop :=
  block.line.method = .post ∨ block.line.method = .put

instance (block : HeaderBlock) : Decidable block.SendsBody :=
  inferInstanceAs (Decidable (_ ∨ _))

end HeaderBlock

theorem headerText_append (lines : List HeaderLine) (rest more : Bytes) :
    headerText lines rest ++ more = headerText lines (rest ++ more) := by
  induction lines with
  | nil => rfl
  | cons l lines ih =>
    simp only [headerText, List.foldr_cons, List.append_assoc, List.cons_append] at ih ⊢
    rw [ih]

theorem bytes_append (block : HeaderBlock) (more : Bytes) :
    block.bytes ++ more = block.line.text ++ 13 :: 10 :: headerText block.lines more := by
  rw [HeaderBlock.bytes, List.append_assoc, List.cons_append, List.cons_append,
    headerText_append, List.nil_append]

section Request

variable (block : HeaderBlock)

theorem accepted_line : ∃ path query, processRequestLine {} block.line.text = (true,
    { method := block.line.method, version := block.line.version, path := path,
      queryParameters := query }) := by
  obtain ⟨path, pieces, htarget⟩ := target_exists block.line.target
  exact ⟨path, _, processRequestLine_text block.line htarget {}⟩

theorem addHeaders_from (lines : List HeaderLine) (request : HttpRequest) :
    lines.foldl (fun request l => request.addHeader l.1 l.2) request =
      { request with
        headers := lines.foldl (fun m l => m.insert l.1 (fieldValue l)) request.headers } := by
  induction lines generalizing request with
  | nil => rfl
  | cons l lines ih => rw [List.foldl_cons, List.foldl_cons, ih]; rfl

theorem request_eq : ∃ path query, block.request =
    { method := block.line.method, version := block.line.version, path := path,
      queryParameters := query, headers := (addHeaders block.lines).headers } := by
  obtain ⟨path, query, hline⟩ := accepted_line block
  refine ⟨path, query, ?_⟩
  rw [HeaderBlock.request, hline, addHeaders_from, addHeaders, addHeaders_from]

theorem hasBody_request : HasBody block.request ↔ block.SendsBody := by
  obtain ⟨path, query, heq⟩ := request_eq block
  rw [heq]
  exact Iff.rfl

theorem request_body : block.request.body = [] := by
  obtain ⟨path, query, heq⟩ := request_eq block
  rw [heq]

theorem contentLength_eq :
    block.contentLength = (addHeaders block.lines).getHeader (ascii "Content-Length") := by
  obtain ⟨path, query, heq⟩ := request_eq block
  rw [HeaderBlock.contentLength, heq]
  rfl

theorem dropWhile_fieldValue (l : HeaderLine) :
    (fieldValue l).dropWhile isSpace = fieldValue l := by
  apply List.dropWhile_eq_self_iff.mpr
  intro hpos
  obtain ⟨cut, hcut⟩ := List.rdropWhile_prefix isSpace (l.2.dropWhile isSpace)
  change fieldValue l ++ cut = l.2.dropWhile isSpace at hcut
  have hhead := List.head?_dropWhile_not isSpace l.2
  rw [← hcut, List.head?_append_of_ne_nil _ (List.ne_nil_of_length_pos hpos),
    List.head?_eq_getElem?, List.getElem?_eq_getElem hpos] at hhead
  simpa using hhead

theorem contentLength_trimmed : block.contentLength.dropWhile isSpace = block.contentLength := by
  rw [contentLength_eq]
  rcases getHeader_cases block.lines (ascii "Content-Length") with ⟨k, -, hvalue⟩ | ⟨-, hempty⟩
  · obtain ⟨l, -, hl⟩ := Option.map_eq_some_iff.mp hvalue
    rw [← hl, dropWhile_fieldValue]
  · rw [hempty]
    rfl

theorem contentLength_single {l : HeaderLine} (h : block.lengthLines = [l]) :
    block.contentLength = fieldValue l := by
  rw [contentLength_eq]
  exact getHeader_single h

end Request

theorem run_headerText {lines : List HeaderLine}
    (hlines : ∀ l ∈ lines, (58 : UInt8) ∉ l.1 ∧ findCRLF (l.1 ++ 58 :: l.2) = none)
    (request : HttpRequest) (more : Bytes) :
    parser.run ⟨.expectHeaders, request⟩ (headerText lines more) =
      parser.run ⟨.expectHeaders, lines.foldl (fun r l => r.addHeader l.1 l.2) request⟩
        (13 :: 10 :: more) := by
  induction lines generalizing request with
  | nil => rfl
  | cons l lines ih =>
    obtain ⟨hkey, hwhole⟩ := hlines l (by simp)
    have hturn := turn_header request (headerText lines more) hkey hwhole
    rw [headerText, List.foldr_cons, List.foldl_cons]
    refine (Scanner.run_again hturn).trans ?_
    apply ih
    intro l' hl'
    exact hlines l' (List.mem_cons_of_mem _ hl')

theorem run_block (block : HeaderBlock) (more : Bytes) :
    parser.run {} (block.bytes ++ more) =
      parser.run ⟨.expectHeaders, block.request⟩ (13 :: 10 :: more) := by
  obtain ⟨path, query, hline⟩ := accepted_line block
  have hturn := turn_requestLine (headerText block.lines more) block.line_whole hline
  rw [bytes_append, HeaderBlock.request, hline]
  exact (Scanner.run_again hturn).trans (run_headerText block.lines_whole _ more)

theorem headers_of_rest {c : HttpContext} {b : Bytes} (h : RestOfRequest c b)
    (hstate : c.state = .expectHeaders) : ∃ lines more, b = headerText lines more ∧
      ∀ l ∈ lines, (58 : UInt8) ∉ l.1 ∧ findCRLF (l.1 ++ 58 :: l.2) = none := by
  induction h with
  | requestLine => cases hstate
  | @header request key value rest hkey hwhole _ ih =>
    obtain ⟨lines, more, rfl, hlines⟩ := ih rfl
    refine ⟨(key, value) :: lines, more, rfl, ?_⟩
    intro l hl
    rcases List.mem_cons.mp hl with rfl | hl
    · exact ⟨hkey, hwhole⟩
    · exact hlines l hl
  | @noBody request rest => exact ⟨[], rest, rfl, by simp⟩
  | @contentLength request length rest => exact ⟨[], rest, rfl, by simp⟩
  | body => cases hstate

theorem exists_block {b : Bytes} (h : Completes {} b) :
    ∃ (block : HeaderBlock) (more : Bytes), b = block.bytes ++ more := by
  cases restOfRequest_iff.mpr h with
  | @requestLine request request' line rest hwhole hok hrest =>
    obtain ⟨l, rfl⟩ := exists_text_of_accepted (by rw [hok])
    obtain ⟨lines, more, rfl, hlines⟩ := headers_of_rest hrest rfl
    exact ⟨⟨l, lines, hwhole, hlines⟩, more, (bytes_append ⟨l, lines, hwhole, hlines⟩ more).symm⟩

theorem run_body (request : HttpRequest) (more : Bytes) :
    parser.run ⟨.expectBody, request⟩ more =
      if more.length < request.contentLength then .pending ⟨.expectBody, request⟩ more
      else .finished .gotAll ⟨.gotAll, { request with body := more.take request.contentLength }⟩
        (more.drop request.contentLength) := by
  by_cases h : more.length < request.contentLength
  · have hturn : parser.turn ⟨.expectBody, request⟩ more = .starved := by
      simp only [parser, turn, bodyTurn, if_pos h]
    rw [if_pos h, Scanner.run_starved hturn]
  · have hturn : parser.turn ⟨.expectBody, request⟩ more = .stop .gotAll
        ⟨.gotAll, { request with body := more.take request.contentLength }⟩
        (more.drop request.contentLength) := by
      simp only [parser, turn, bodyTurn, if_neg h]
    rw [if_neg h, Scanner.run_stop hturn]

theorem empty_body {request : HttpRequest} (hbody : request.body = [])
    (hnone : request.contentLength = 0) (more : Bytes) :
    { request with body := more.take request.contentLength } = request := by
  obtain ⟨method, version, path, pathParameters, queryParameters, headers, requestId, body,
    contentLength⟩ := request
  dsimp only at hbody hnone ⊢
  rw [hnone, hbody, List.take_zero]

theorem run_declared {block : HeaderBlock} {length : ℤ} (hsends : block.SendsBody)
    (hne : block.contentLength ≠ []) (hlength : stoi block.contentLength = .ok length)
    (more : Bytes) : parser.run {} (block.bytes ++ more) =
      let request := block.request.setContentLength length
      if more.length < request.contentLength then .pending ⟨.expectBody, request⟩ more
      else .finished .gotAll ⟨.gotAll, { request with body := more.take request.contentLength }⟩
        (more.drop request.contentLength) := by
  have hturn := turn_contentLength more ((hasBody_request block).mpr hsends) hne hlength
  rw [run_block]
  split at hturn
  · rw [Scanner.run_again hturn, run_body]
  · next hzero =>
    have hnone : (block.request.setContentLength length).contentLength = 0 :=
      Nat.eq_zero_of_not_pos hzero
    have hbody : (block.request.setContentLength length).body = [] := request_body block
    rw [Scanner.run_stop hturn]
    dsimp only
    rw [empty_body hbody hnone, hnone, if_neg (Nat.not_lt_zero _), List.drop_zero]

theorem run_noBody {block : HeaderBlock} (hsends : ¬ block.SendsBody) (more : Bytes) :
    parser.run {} (block.bytes ++ more) = .finished .gotAll ⟨.gotAll, block.request⟩ more := by
  rw [run_block]
  exact Scanner.run_stop (turn_noBody more (mt (hasBody_request block).mp hsends))

theorem run_refused {block : HeaderBlock} (hsends : block.SendsBody)
    (h : ∀ length, stoi block.contentLength ≠ .ok length) (more : Bytes) :
    ∃ o c rest, parser.run {} (block.bytes ++ more) = .finished o c rest ∧
      (o = .malformed ∨ ∃ e, o = .threw e) := by
  have hbody := (hasBody_request block).mpr hsends
  by_cases hempty : block.contentLength = []
  · have hturn : parser.turn ⟨.expectHeaders, block.request⟩ (13 :: 10 :: more) =
        .stop .malformed ⟨.expectHeaders, block.request⟩ more := by
      change endOfHeaders ⟨.expectHeaders, block.request⟩ (13 :: 10 :: more) more = _
      rw [HasBody] at hbody
      rw [HeaderBlock.contentLength] at hempty
      simp only [endOfHeaders, if_pos hbody, if_pos hempty]
    exact ⟨_, _, _, (run_block block more).trans (Scanner.run_stop hturn), .inl rfl⟩
  · cases hlength : stoi block.contentLength with
    | ok length => exact absurd hlength (h length)
    | error e =>
      have hturn : parser.turn ⟨.expectHeaders, block.request⟩ (13 :: 10 :: more) =
          .stop (.threw e) ⟨.expectHeaders, block.request⟩ (13 :: 10 :: more) := by
        change endOfHeaders ⟨.expectHeaders, block.request⟩ (13 :: 10 :: more) more = _
        rw [HasBody] at hbody
        rw [HeaderBlock.contentLength] at hempty hlength
        simp only [endOfHeaders, if_pos hbody, if_neg hempty, hlength]
      exact ⟨_, _, _, (run_block block more).trans (Scanner.run_stop hturn), .inr ⟨e, rfl⟩⟩

theorem runChunks_finished {buffered : Bytes} {chunks : List Bytes} {o : Outcome}
    {c : HttpContext} {rest : Bytes}
    (h : parser.runChunks {} buffered chunks = .finished o c rest) :
    parser.run {} (buffered ++ chunks.flatten) = .finished o c rest := by
  cases chunks with
  | nil => cases h
  | cons chunk chunks => rwa [← Scanner.runChunks_cons]

/-- A number below 2 ^ 31 in decimal. -/
structure Declares (v : Bytes) (n : ℕ) : Prop where
  digits_ne : v ≠ []
  digits_only : ∀ c ∈ v, isDigit c = true
  value_eq : value v = n
  small : n < 2 ^ 31

theorem Declares.stoi_eq {v : Bytes} {n : ℕ} (h : Declares v n) : stoi v = .ok (n : ℤ) := by
  have hreads : ReadsAs v [] v [] := by
    refine ⟨by simp, by simp, h.digits_ne, h.digits_only, ?_⟩
    intro c hc
    cases hc
  have hvalue : signedValue [] v = n := by
    rw [signedValue, if_neg (by simp), h.value_eq]
  have hsmall := h.small
  rw [stoi_reads hreads, hvalue, if_pos (by omega)]

theorem setContentLength_nat (request : HttpRequest) {n : ℕ} (hn : n < 2 ^ 31) :
    (request.setContentLength n).contentLength = n := by
  simp only [HttpRequest.setContentLength]
  omega

/-- A request that is complete begins with a header block, and has used exactly the block and the
bytes that its one Content-Length declares after a POST or PUT, which are its body; after the other
methods it has used the block alone. -/
theorem message_framing {buffered : Bytes} {chunks : List Bytes} {c : HttpContext} {rest : Bytes}
    (h : parser.runChunks {} buffered chunks = .finished .gotAll c rest) :
    (∃ (block : HeaderBlock) (more : Bytes), buffered ++ chunks.flatten = block.bytes ++ more) ∧
    ∀ (block : HeaderBlock) (more : Bytes) (l : HeaderLine) (n : ℕ),
      buffered ++ chunks.flatten = block.bytes ++ more → block.lengthLines = [l] →
      Declares (fieldValue l) n →
      more = c.request.body ++ rest ∧
        c.request.body.length = if block.SendsBody then n else 0 := by
  have hrun := runChunks_finished h
  constructor
  · exact exists_block ⟨c, rest, hrun⟩
  · intro block more l n hinput hsingle hdeclares
    rw [hinput] at hrun
    have hvalue := contentLength_single block hsingle
    have hstoi := hdeclares.stoi_eq
    rw [← hvalue] at hstoi
    by_cases hsends : block.SendsBody
    · have hne : block.contentLength ≠ [] := by
        rw [hvalue]
        exact hdeclares.digits_ne
      rw [if_pos hsends]
      rw [run_declared hsends hne hstoi] at hrun
      simp only [setContentLength_nat _ hdeclares.small] at hrun
      split at hrun
      · cases hrun
      · next hlong =>
        cases hrun
        refine ⟨(List.take_append_drop n more).symm, ?_⟩
        rw [List.length_take]
        omega
    · rw [run_noBody hsends] at hrun
      cases hrun
      rw [if_neg hsends, request_body]
      exact ⟨rfl, rfl⟩

theorem demo_target : (32 : UInt8) ∉ ascii "/" := by decide

theorem demo_version : ascii "HTTP/1.1" ∈ [ascii "HTTP/1.0", ascii "HTTP/1.1"] := by decide

theorem get_known : Method.get ∈ [Method.get, .post, .put, .delete, .options] := by decide

theorem post_known : Method.post ∈ [Method.get, .post, .put, .delete, .options] := by decide

def getLine : RequestLine :=
  ⟨.get, ascii "/", ascii "HTTP/1.1", get_known, demo_target, demo_version⟩

def postLine : RequestLine :=
  ⟨.post, ascii "/", ascii "HTTP/1.1", post_known, demo_target, demo_version⟩

def lengthLine (length : Bytes) : List HeaderLine := [(ascii "Content-Length", length)]

theorem getLine_whole : findCRLF getLine.text = none := by decide

theorem postLine_whole : findCRLF postLine.text = none := by decide

theorem lengthLine_two : ∀ l ∈ lengthLine (ascii " 2"),
    (58 : UInt8) ∉ l.1 ∧ findCRLF (l.1 ++ 58 :: l.2) = none := by decide

theorem lengthLine_minus : ∀ l ∈ lengthLine (ascii " -1"),
    (58 : UInt8) ∉ l.1 ∧ findCRLF (l.1 ++ 58 :: l.2) = none := by decide

def getTwo : HeaderBlock := ⟨getLine, lengthLine (ascii " 2"), getLine_whole, lengthLine_two⟩

def postTwo : HeaderBlock := ⟨postLine, lengthLine (ascii " 2"), postLine_whole, lengthLine_two⟩

def postMinus : HeaderBlock :=
  ⟨postLine, lengthLine (ascii " -1"), postLine_whole, lengthLine_minus⟩

theorem declares_two : Declares (fieldValue (ascii "Content-Length", ascii " 2")) 2 := by
  have hvalue : fieldValue (ascii "Content-Length", ascii " 2") = [50] := rfl
  rw [hvalue]
  exact ⟨by decide, List.forall_mem_singleton.mpr (by decide), rfl, by decide⟩

def postTwoContext : HttpContext :=
  ⟨.gotAll, { postTwo.request with contentLength := 2, body := ascii "hi" }⟩

theorem postTwo_parsed : parser.runChunks {} [] [postTwo.bytes ++ ascii "h", ascii "iGET"] =
    .finished .gotAll postTwoContext (ascii "GET") := by
  have hinput : [] ++ [postTwo.bytes ++ ascii "h", ascii "iGET"].flatten =
      postTwo.bytes ++ ascii "hiGET" := rfl
  have hstoi : stoi postTwo.contentLength = .ok 2 := rfl
  have hrun := run_declared (.inl rfl) (by decide) hstoi (ascii "hiGET")
  rw [Scanner.runChunks_cons, hinput, hrun]
  rfl

/-- A body in two pieces with the next request behind it. -/
theorem message_framing_post : ascii "hiGET" = postTwoContext.request.body ++ ascii "GET" ∧
    postTwoContext.request.body.length = if postTwo.SendsBody then 2 else 0 :=
  (message_framing postTwo_parsed).2 postTwo (ascii "hiGET") _ 2 rfl rfl declares_two

/-- The body that a GET declares stays in the buffer, in the place of the next request. -/
theorem declared_body_left_over : ¬ ∀ (block : HeaderBlock) (chunks : List Bytes) (more : Bytes)
    (l : HeaderLine) (n : ℕ) (c : HttpContext) (rest : Bytes),
    parser.runChunks {} [] chunks = .finished .gotAll c rest →
    chunks.flatten = block.bytes ++ more → block.lengthLines = [l] →
    Declares (fieldValue l) n → more = c.request.body ++ rest ∧ c.request.body.length = n := by
  intro h
  have hrun : parser.runChunks {} [] [getTwo.bytes ++ ascii "hi"] =
      .finished .gotAll ⟨.gotAll, getTwo.request⟩ (ascii "hi") := by
    have hsends : ¬ getTwo.SendsBody := by decide
    rw [Scanner.runChunks_cons]
    exact run_noBody hsends (ascii "hi")
  have hempty := (h getTwo [getTwo.bytes ++ ascii "hi"] (ascii "hi")
    (ascii "Content-Length", ascii " 2") 2 _ _ hrun (List.flatten_singleton) rfl
    declares_two).2
  rw [request_body getTwo] at hempty
  cases hempty

/-- The call has gone past the empty line of the headers: it waits for the body or is done. -/
def Taken (v : Verdict HttpContext Outcome UInt8) (c : HttpContext) : Prop :=
  (∃ rest, v = .pending c rest ∧ c.state = .expectBody) ∨ ∃ rest, v = .finished .gotAll c rest

/-- The call returned false or threw. -/
def Rejected (v : Verdict HttpContext Outcome UInt8) : Prop :=
  ∃ o c rest, v = .finished o c rest ∧ (o = .malformed ∨ ∃ e, o = .threw e)

structure DecimalText (v : Bytes) : Prop where
  digits_ne : v ≠ []
  digits_only : ∀ c ∈ v, isDigit c = true

/-- However the request arrives, its length is taken as the number that is written there, and any
other text is rejected. -/
def LengthExact (block : HeaderBlock) : Prop :=
  ∀ (buffered chunk : Bytes) (chunks : List Bytes) (more : Bytes),
    buffered ++ (chunk :: chunks).flatten = block.bytes ++ more →
    (∀ c, Taken (parser.runChunks {} buffered (chunk :: chunks)) c →
      DecimalText block.contentLength ∧ c.request.contentLength = value block.contentLength) ∧
    (¬ DecimalText block.contentLength →
      Rejected (parser.runChunks {} buffered (chunk :: chunks)))

/-- An int in front, with a sign before it or with something behind it. -/
def Lenient (v : Bytes) : Prop :=
  ∃ sign digits tail, ReadsAs v sign digits tail ∧ (sign ≠ [] ∨ tail ≠ []) ∧
    -2 ^ 31 ≤ signedValue sign digits ∧ signedValue sign digits < 2 ^ 31

theorem DecimalText.not_lenient {v : Bytes} (h : DecimalText v) : ¬ Lenient v := by
  rintro ⟨sign, digits, tail, hreads, hextra, -⟩
  have hwhole := hreads.whole
  rcases hextra with hsign | htail
  · have hknown := hreads.sign_known
    simp only [List.mem_cons, List.not_mem_nil, or_false] at hknown
    rcases hknown with rfl | rfl | rfl
    · exact hsign rfl
    · have hdigit := h.digits_only 43 (by simp [hwhole])
      cases hdigit
    · have hdigit := h.digits_only 45 (by simp [hwhole])
      cases hdigit
  · obtain ⟨ch, tail', rfl⟩ := List.exists_cons_of_ne_nil htail
    have hstop := hreads.tail_stops ch rfl
    rw [h.digits_only ch (by simp [hwhole])] at hstop
    cases hstop

theorem Lenient.stoi_ok {v : Bytes} (h : Lenient v) : v ≠ [] ∧ ∃ length, stoi v = .ok length := by
  obtain ⟨sign, digits, tail, hreads, -, hrange⟩ := h
  constructor
  · rintro rfl
    have hwhole := hreads.whole
    simp only [List.nil_eq, List.append_eq_nil_iff] at hwhole
    exact hreads.digits_ne hwhole.1.2
  · exact ⟨_, (stoi_reads hreads).trans (if_pos hrange)⟩

theorem declares_of_stoi {v : Bytes} {length : ℤ} (htrimmed : v.dropWhile isSpace = v)
    (hstrict : ¬ Lenient v) (h : stoi v = .ok length) :
    DecimalText v ∧ length = value v ∧ value v < 2 ^ 31 := by
  obtain ⟨sign, digits, tail, hreads, rfl, hlow, hhigh⟩ := reads_of_stoi htrimmed h
  obtain ⟨rfl, rfl⟩ : sign = [] ∧ tail = [] := by
    by_contra hextra
    refine hstrict ⟨sign, digits, tail, hreads, ?_, hlow, hhigh⟩
    rwa [not_and_or] at hextra
  have hwhole : v = digits := by simpa using hreads.whole
  have hvalue : signedValue [] digits = value digits := if_neg (by simp)
  subst hwhole
  refine ⟨⟨hreads.digits_ne, hreads.digits_only⟩, hvalue, ?_⟩
  omega

theorem taken_declared {block : HeaderBlock} {length : ℤ} (hsends : block.SendsBody)
    (hne : block.contentLength ≠ []) (hlength : stoi block.contentLength = .ok length)
    (more : Bytes) : ∃ c, Taken (parser.run {} (block.bytes ++ more)) c := by
  rw [run_declared hsends hne hlength]
  dsimp only
  split
  · exact ⟨_, .inl ⟨_, rfl, rfl⟩⟩
  · exact ⟨_, .inr ⟨_, rfl⟩⟩

theorem contentLength_taken {block : HeaderBlock} {length : ℤ} {more : Bytes} {c : HttpContext}
    (hsends : block.SendsBody) (hne : block.contentLength ≠ [])
    (hlength : stoi block.contentLength = .ok length)
    (h : Taken (parser.run {} (block.bytes ++ more)) c) :
    c.request.contentLength = (block.request.setContentLength length).contentLength := by
  rw [run_declared hsends hne hlength] at h
  dsimp only at h
  split at h
  · rcases h with ⟨rest, hrest, -⟩ | ⟨rest, hrest⟩
    · cases hrest
      rfl
    · cases hrest
  · rcases h with ⟨rest, hrest, -⟩ | ⟨rest, hrest⟩
    · cases hrest
    · cases hrest
      rfl

theorem not_taken_of_rejected {v : Verdict HttpContext Outcome UInt8} (h : Rejected v)
    (c : HttpContext) : ¬ Taken v c := by
  obtain ⟨o, c', rest, rfl, ho⟩ := h
  rintro (⟨rest', hrest, -⟩ | ⟨rest', hrest⟩)
  · cases hrest
  · cases hrest
    rcases ho with ho | ⟨e, ho⟩ <;> cases ho

/-- The length of a POST or PUT is read exactly when its text is not one that std::stoi reads in
part or with a sign. -/
theorem lengthExact_iff (block : HeaderBlock) (hsends : block.SendsBody) :
    LengthExact block ↔ ¬ Lenient block.contentLength := by
  constructor
  · intro h hlenient
    obtain ⟨hne, length, hlength⟩ := hlenient.stoi_ok
    obtain ⟨c, hc⟩ := taken_declared hsends hne hlength []
    have hexact := (h [] block.bytes [] [] (by simp)).1 c
    rw [Scanner.runChunks_cons] at hexact
    exact (hexact (by simpa using hc)).1.not_lenient hlenient
  · intro hstrict buffered chunk chunks more hinput
    rw [Scanner.runChunks_cons, hinput]
    by_cases hread : ∃ length, stoi block.contentLength = .ok length
    · obtain ⟨length, hlength⟩ := hread
      obtain ⟨hdecimal, rfl, hsmall⟩ :=
        declares_of_stoi (contentLength_trimmed block) hstrict hlength
      refine ⟨?_, fun hnot => absurd hdecimal hnot⟩
      intro c hc
      refine ⟨hdecimal, ?_⟩
      rw [contentLength_taken hsends hdecimal.digits_ne hlength hc, setContentLength_nat _ hsmall]
    · have hrejected : Rejected (parser.run {} (block.bytes ++ more)) := by
        apply run_refused hsends
        intro length hlength
        exact hread ⟨length, hlength⟩
      exact ⟨fun c hc => absurd hc (not_taken_of_rejected hrejected c), fun _ => hrejected⟩

/-- A number in decimal that is no int is rejected, however the request arrives. -/
theorem overflow_rejected {block : HeaderBlock} (hsends : block.SendsBody)
    (hdecimal : DecimalText block.contentLength) (hlarge : 2 ^ 31 ≤ value block.contentLength)
    {buffered chunk more : Bytes} {chunks : List Bytes}
    (hinput : buffered ++ (chunk :: chunks).flatten = block.bytes ++ more) :
    Rejected (parser.runChunks {} buffered (chunk :: chunks)) := by
  rw [Scanner.runChunks_cons, hinput]
  apply run_refused hsends
  intro length hlength
  have hsmall := (declares_of_stoi (contentLength_trimmed block) hdecimal.not_lenient hlength).2.2
  omega

theorem lengthExact_two : LengthExact postTwo ↔ ¬ Lenient postTwo.contentLength :=
  lengthExact_iff postTwo (.inl rfl)

/-- A negative length is taken, as a body of 2 ^ 64 - 1 bytes. -/
theorem negative_length_taken : postMinus.SendsBody ∧
    Taken (parser.runChunks {} [] [postMinus.bytes])
      ⟨.expectBody, postMinus.request.setContentLength (-1)⟩ ∧
    (postMinus.request.setContentLength (-1)).contentLength = 2 ^ 64 - 1 ∧
    ¬ LengthExact postMinus := by
  have htaken : Taken (parser.run {} (postMinus.bytes ++ []))
      ⟨.expectBody, postMinus.request.setContentLength (-1)⟩ := by
    refine .inl ⟨[], ?_, rfl⟩
    have hstoi : stoi postMinus.contentLength = .ok (-1) := rfl
    rw [run_declared (.inl rfl) (by decide) hstoi]
    rfl
  have hchunks : parser.runChunks {} [] [postMinus.bytes] =
      parser.run {} (postMinus.bytes ++ []) := by
    rw [Scanner.runChunks_cons]
    simp
  refine ⟨.inl rfl, ?_, rfl, ?_⟩
  · rwa [hchunks]
  · intro h
    have hexact := (h [] postMinus.bytes [] [] (by simp)).1 _ (by rwa [hchunks])
    have hdigit := hexact.1.digits_only 45 (by decide)
    cases hdigit

end MessageFraming
