import HaoShortLink.OrderedMaps
import HaoShortLink.RequestIds

/-! HttpResponse.cpp: building a response and writing it out. -/
namespace HttpResponses

open Cpp
open OrderedMaps (OrderedMap)

structure HttpResponse where
  httpVersion : Bytes := ascii "HTTP/1.1"
  statusCode : ℕ := 0
  statusMessage : Bytes := []
  closeConnection : Bool := true
  headers : OrderedMap Bytes Bytes := .empty
  routePattern : Bytes := []
  body : Bytes := []
  deriving DecidableEq

def escapeJsonString (value : Bytes) : Bytes :=
  value.flatMap fun c =>
    if c = 92 then [92, 92]
    else if c = 34 then [92, 34]
    else if c = 10 then [92, 110]
    else if c = 13 then [92, 114]
    else if c = 9 then [92, 116]
    else [c]

namespace HttpResponse

def addHeader (r : HttpResponse) (key value : Bytes) : HttpResponse :=
  { r with headers := r.headers.insert key value }

def setContentType (r : HttpResponse) (contentType : Bytes) : HttpResponse :=
  r.addHeader (ascii "Content-Type") contentType

def setContentLength (r : HttpResponse) (length : ℕ) : HttpResponse :=
  r.addHeader (ascii "Content-Length") (toDecimal length)

def setBody (r : HttpResponse) (body : Bytes) : HttpResponse := { r with body := body }

def setStatus (r : HttpResponse) (code : ℕ) (message : Bytes) : HttpResponse :=
  { r with statusCode := code, statusMessage := message }

def setJsonBody (r : HttpResponse) (body : Bytes) : HttpResponse :=
  ((r.setContentType (ascii "application/json; charset=utf-8")).setContentLength
    body.length).setBody body

def errorBody (errorCode message : Bytes) : Bytes :=
  ascii "\x7b\"error\":\x7b\"code\":\"" ++ escapeJsonString errorCode ++
    ascii "\",\"message\":\"" ++ escapeJsonString message ++ ascii "\"\x7d\x7d"

def setErrorResponse (r : HttpResponse) (statusCode : ℕ) (errorCode message : Bytes) :
    HttpResponse :=
  (r.setStatus statusCode message).setJsonBody (errorBody errorCode message)

def setRedirect (r : HttpResponse) (location : Bytes) : HttpResponse :=
  (((r.setStatus 302 (ascii "Found")).addHeader (ascii "Location") location).setContentLength
    0).setBody []

def crlf : Bytes := [13, 10]

def headerLine (name value : Bytes) : Bytes := name ++ ascii ": " ++ value

def connectionValue (r : HttpResponse) : Bytes :=
  if r.closeConnection then ascii "close" else ascii "Keep-Alive"

/-- The first part goes through a buffer of 32 characters. -/
def statusLine (r : HttpResponse) : Bytes :=
  (r.httpVersion ++ ascii " " ++ toDecimal r.statusCode ++ ascii " ").take 31 ++ r.statusMessage

def appendToBuffer (r : HttpResponse) : Bytes :=
  r.statusLine ++ crlf ++
    headerLine (ascii "Connection") r.connectionValue ++ crlf ++
    (r.headers.entries.flatMap fun h => headerLine h.1 h.2 ++ crlf) ++ crlf ++ r.body

end HttpResponse

/-- The lines up to the first empty one, and what follows it. -/
def readLines (b : Bytes) : Option (List Bytes × Bytes) :=
  match _h : findCRLF b with
  | none => none
  | some ([], rest) => some ([], rest)
  | some (c :: line, rest) => (readLines rest).map fun (lines, body) => ((c :: line) :: lines, body)
termination_by b.length
decreasing_by
  rw [(findCRLF_eq _h).1]
  simp only [List.length_append, List.length_cons]
  omega

def readHeader (line : Bytes) : Bytes × Bytes :=
  let name := line.takeWhile (· != 58)
  (name, (line.drop name.length).drop 2)

structure ReadResponse where
  statusLine : Bytes
  headers : List (Bytes × Bytes)
  body : Bytes
  deriving DecidableEq

def readResponse (b : Bytes) : Option ReadResponse :=
  match findCRLF b with
  | none => none
  | some (status, rest) =>
    (readLines rest).map fun (lines, body) => ⟨status, lines.map readHeader, body⟩

/-- Reading the written response gives the headers that were set and nothing else. -/
def ReadsBack (r : HttpResponse) : Prop :=
  readResponse r.appendToBuffer = some ⟨r.statusLine,
    (ascii "Connection", r.connectionValue) :: r.headers.entries, r.body⟩

theorem readLines_empty {b rest : Bytes} (h : findCRLF b = some ([], rest)) :
    readLines b = some ([], rest) := by
  rw [readLines]
  split <;> simp_all

theorem readLines_cons {b line rest : Bytes} (h : findCRLF b = some (line, rest))
    (hne : line ≠ []) :
    readLines b = (readLines rest).map fun (lines, body) => (line :: lines, body) := by
  rw [readLines]
  split <;> simp_all

open HttpResponse

theorem readHeader_headerLine {name value : Bytes} (h : (58 : UInt8) ∉ name) :
    readHeader (headerLine name value) = (name, value) := by
  have htake : (headerLine name value).takeWhile (· != 58) = name := by
    rw [headerLine, List.append_assoc]
    exact takeWhile_until h _
  simp only [readHeader, htake]
  simp [headerLine, ascii]

def headerLines (headers : List (Bytes × Bytes)) : Bytes :=
  headers.flatMap fun e => headerLine e.1 e.2 ++ crlf

theorem readLines_headers {headers : List (Bytes × Bytes)}
    (h : ∀ e ∈ headers, findCRLF (headerLine e.1 e.2) = none) (rest : Bytes) :
    readLines (headerLines headers ++ rest) = (readLines rest).map fun (lines, body) =>
      (headers.map (fun e => headerLine e.1 e.2) ++ lines, body) := by
  induction headers with
  | nil => simp [headerLines]
  | cons e headers ih =>
    have hline := findCRLF_line (h e (by simp)) (headerLines headers ++ rest)
    have hcons := readLines_cons hline (by simp [headerLine, ascii])
    rw [ih fun x hx => h x (List.mem_cons_of_mem _ hx), Option.map_map] at hcons
    simpa [headerLines, crlf, Function.comp_def] using hcons

/-- The header lines that are written, Connection first. -/
def writtenHeaders (r : HttpResponse) : List (Bytes × Bytes) :=
  (ascii "Connection", r.connectionValue) :: r.headers.entries

theorem readResponse_append {r : HttpResponse} (hstatus : findCRLF r.statusLine = none) :
    readResponse r.appendToBuffer = (readLines (headerLines (writtenHeaders r) ++
      13 :: 10 :: r.body)).map fun (lines, body) => ⟨r.statusLine, lines.map readHeader, body⟩ := by
  have hout : r.appendToBuffer =
      r.statusLine ++ 13 :: 10 :: (headerLines (writtenHeaders r) ++ 13 :: 10 :: r.body) := by
    simp [appendToBuffer, headerLines, writtenHeaders, crlf]
  rw [readResponse, hout, findCRLF_line hstatus]

theorem connectionLine_crlf (r : HttpResponse) :
    findCRLF (headerLine (ascii "Connection") r.connectionValue) = none := by
  unfold connectionValue
  split <;> decide

theorem map_readHeader {headers : List (Bytes × Bytes)}
    (h : ∀ e ∈ headers, (58 : UInt8) ∉ e.1) :
    (headers.map fun e => headerLine e.1 e.2).map readHeader = headers := by
  rw [List.map_map, List.map_congr_left (g := id), List.map_id]
  exact fun e he => readHeader_headerLine (h e he)

theorem readsBack_of_lines {r : HttpResponse} (hstatus : findCRLF r.statusLine = none)
    (hnames : ∀ e ∈ r.headers.entries, (58 : UInt8) ∉ e.1)
    (hlines : ∀ e ∈ r.headers.entries, findCRLF (headerLine e.1 e.2) = none) : ReadsBack r := by
  have hwritten : ∀ e ∈ writtenHeaders r, findCRLF (headerLine e.1 e.2) = none := by
    intro e he
    rcases List.mem_cons.mp he with rfl | he
    · exact connectionLine_crlf r
    · exact hlines e he
  have hread := readLines_headers hwritten (13 :: 10 :: r.body)
  have hback : ((writtenHeaders r).map fun e => headerLine e.1 e.2).map readHeader =
      writtenHeaders r := by
    apply map_readHeader
    intro e he
    rcases List.mem_cons.mp he with rfl | he
    · have hcolon : (58 : UInt8) ∉ ascii "Connection" := by decide
      exact hcolon
    · exact hnames e he
  rw [readLines_empty (b := 13 :: 10 :: r.body) rfl] at hread
  rw [ReadsBack, readResponse_append hstatus, hread]
  simp only [Option.map_some, List.append_nil, hback]
  rfl

/-- What handleRedirect and onRequest leave in the response to a resolved short link. -/
def redirectResponse (close : Bool) (originalUrl requestId : Bytes) : HttpResponse :=
  (({ closeConnection := close : HttpResponse }).setRedirect originalUrl).addHeader
    (ascii "X-Request-ID") requestId

theorem redirect_headers (close : Bool) (originalUrl requestId : Bytes) :
    (redirectResponse close originalUrl requestId).headers.entries =
      [(ascii "Content-Length", ascii "0"), (ascii "Location", originalUrl),
        (ascii "X-Request-ID", requestId)] := by
  have h₁ : ascii "Content-Length" < ascii "Location" := by decide
  have h₂ : ¬ ascii "X-Request-ID" < ascii "Content-Length" := by decide
  have h₃ : ¬ ascii "X-Request-ID" < ascii "Location" := by decide
  have h₄ : ascii "X-Request-ID" ≠ ascii "Content-Length" := by decide
  have h₅ : ascii "X-Request-ID" ≠ ascii "Location" := by decide
  simp only [redirectResponse, setRedirect, setStatus, setContentLength, setBody, addHeader,
    OrderedMap.insert, OrderedMap.empty, OrderedMaps.insertEntry, h₁, h₂, h₃, h₄, h₅, if_true,
    if_false]
  rfl

theorem redirect_body (close : Bool) (originalUrl requestId : Bytes) :
    (redirectResponse close originalUrl requestId).body = [] := rfl

theorem redirect_statusLine (close : Bool) (originalUrl requestId : Bytes) :
    (redirectResponse close originalUrl requestId).statusLine = ascii "HTTP/1.1 302 Found" := by
  change (ascii "HTTP/1.1" ++ ascii " " ++ toDecimal 302 ++ ascii " ").take 31 ++ ascii "Found" = _
  decide

theorem requestIdLine_crlf {requestId : Bytes} (h : RequestIds.isValidRequestId requestId) :
    findCRLF (headerLine (ascii "X-Request-ID") requestId) = none :=
  findCRLF_none (by simpa [headerLine, ascii] using RequestIds.not_cr_mem h)

theorem locationLine_crlf (url : Bytes) :
    findCRLF (headerLine (ascii "Location") url) =
      (findCRLF url).map fun (line, rest) => (headerLine (ascii "Location") line, rest) :=
  findCRLF_after (p := ascii "Location" ++ ascii ": ") (by decide) url

/-- A redirect reads back exactly when its URL holds no line end. -/
theorem redirect_readsBack_iff (close : Bool) (originalUrl requestId : Bytes)
    (hid : RequestIds.isValidRequestId requestId) :
    ReadsBack (redirectResponse close originalUrl requestId) ↔ findCRLF originalUrl = none := by
  constructor
  · intro h
    by_contra hne
    obtain ⟨⟨line, rest⟩, hurl⟩ := Option.ne_none_iff_exists'.mp hne
    obtain ⟨rfl, hline⟩ := findCRLF_eq hurl
    -- the Location line that is read ends inside the URL
    have hlocation : findCRLF (headerLine (ascii "Location") line) = none := by
      rw [locationLine_crlf, hline]
      rfl
    let r := redirectResponse close (line ++ 13 :: 10 :: rest) requestId
    let seen : List (Bytes × Bytes) := [(ascii "Connection", r.connectionValue),
      (ascii "Content-Length", ascii "0"), (ascii "Location", line)]
    have hseen : ∀ e ∈ seen, findCRLF (headerLine e.1 e.2) = none := by
      simp only [seen, List.mem_cons, List.not_mem_nil, or_false]
      rintro e (rfl | rfl | rfl)
      · exact connectionLine_crlf r
      · decide
      · exact hlocation
    have hout : headerLines (writtenHeaders r) ++ 13 :: 10 :: r.body = headerLines seen ++
        (rest ++ crlf ++ headerLines [(ascii "X-Request-ID", requestId)] ++ crlf) := by
      simp only [writtenHeaders, seen, r, redirect_headers, redirect_body]
      simp [headerLines, headerLine, crlf]
    rw [ReadsBack, readResponse_append (by rw [redirect_statusLine]; decide), hout,
      readLines_headers hseen] at h
    obtain ⟨⟨lines, body⟩, hlines, heq⟩ := Option.map_eq_some_iff.mp h
    obtain ⟨⟨others, body⟩, -, heq'⟩ := Option.map_eq_some_iff.mp hlines
    obtain ⟨rfl, rfl⟩ := Prod.mk.inj heq'
    have hheaders := congrArg ReadResponse.headers heq
    have hnames : ∀ e ∈ seen, (58 : UInt8) ∉ e.1 := by simp [seen, ascii]
    simp only [List.map_append, map_readHeader hnames, redirect_headers] at hheaders
    simp only [seen, List.cons_append, List.cons.injEq, Prod.mk.injEq, true_and] at hheaders
    have hlength := congrArg List.length hheaders.2.1
    simp only [List.length_append, List.length_cons] at hlength
    omega
  · intro hurl
    refine readsBack_of_lines (by rw [redirect_statusLine]; decide) ?_ ?_
    · rw [redirect_headers]
      simp [ascii]
    · rw [redirect_headers]
      simp only [List.mem_cons, List.not_mem_nil, or_false]
      rintro e (rfl | rfl | rfl)
      · decide
      · rw [locationLine_crlf, hurl]
        rfl
      · exact requestIdLine_crlf hid

end HttpResponses
