import HaoShortLink.HttpRequests
import HaoShortLink.Resumable

/-! HttpContext.cpp: one request parsed out of a buffer that fills in pieces. -/
namespace HttpContexts

open Cpp HttpRequests
open Resumable (Turn Scanner Verdict)

inductive HttpRequestParseState where
  | expectRequestLine
  | expectHeaders
  | expectBody
  | gotAll
  deriving DecidableEq, Repr

structure HttpContext where
  state : HttpRequestParseState := .expectRequestLine
  request : HttpRequest := {}
  deriving DecidableEq

def HttpContext.reset (c : HttpContext) : HttpContext :=
  let dummyData : HttpRequest := {}
  { c with state := .expectRequestLine, request := (c.request.swap dummyData).1 }

@[simp]
theorem reset_eq (c : HttpContext) : c.reset = {} := by
  simp only [HttpContext.reset, HttpRequest.swap_eq]

def setVersion (request : HttpRequest) (version : Bytes) : Bool × HttpRequest :=
  if version = ascii "HTTP/1.1" then (true, { request with version := ascii "HTTP/1.1" })
  else if version = ascii "HTTP/1.0" then (true, { request with version := ascii "HTTP/1.0" })
  else (false, request)

def setTarget (request : HttpRequest) (target : Bytes) : HttpRequest :=
  let path := target.takeWhile (· != 63)
  match target.drop path.length with
  | [] => { request with path := path }
  | _ :: argument => { request with path := path }.setQueryParameters argument

/-- As built for release, where the assertion in setMethod is compiled out. -/
def processRequestLine (request : HttpRequest) (line : Bytes) : Bool × HttpRequest :=
  let method := line.takeWhile (· != 32)
  match line.drop method.length with
  | [] => (false, request)
  | _ :: rest =>
    let request := { request with method := methodOf method }
    if request.method = .invalid then (false, request)
    else
      let target := rest.takeWhile (· != 32)
      match rest.drop target.length with
      | [] => (false, request)
      | _ :: version => setVersion (setTarget request target) version

/-- How a call of parseRequest ends when it is not waiting for input. -/
inductive Outcome where
  | gotAll
  | malformed
  | threw (e : Exception)
  /-- In state kGotAll no branch of the loop applies and it never ends. -/
  | spins
  deriving DecidableEq, Repr

abbrev ParseTurn := Turn HttpContext Outcome UInt8

def requestLineTurn (c : HttpContext) (buf : Bytes) : ParseTurn :=
  match findCRLF buf with
  | none => .starved
  | some (line, rest) =>
    match processRequestLine c.request line with
    | (true, request) => .again ⟨.expectHeaders, request⟩ rest
    -- a bad request line stays in the buffer
    | (false, request) => .stop .malformed ⟨c.state, request⟩ buf

def endOfHeaders (c : HttpContext) (buf rest : Bytes) : ParseTurn :=
  if c.request.method = .post ∨ c.request.method = .put then
    let contentLength := c.request.getHeader (ascii "Content-Length")
    if contentLength = [] then .stop .malformed c rest
    else
      match stoi contentLength with
      -- thrown before the line is retrieved
      | .error e => .stop (.threw e) c buf
      | .ok length =>
        let request := c.request.setContentLength length
        if 0 < request.contentLength then .again ⟨.expectBody, request⟩ rest
        else .stop .gotAll ⟨.gotAll, request⟩ rest
  else .stop .gotAll ⟨.gotAll, c.request⟩ rest

def headerTurn (c : HttpContext) (buf : Bytes) : ParseTurn :=
  match findCRLF buf with
  | none => .starved
  | some (line, rest) =>
    let key := line.takeWhile (· != 58)
    match line.drop key.length with
    | _ :: value => .again { c with request := c.request.addHeader key value } rest
    | [] => if line = [] then endOfHeaders c buf rest else .stop .malformed c rest

def bodyTurn (c : HttpContext) (buf : Bytes) : ParseTurn :=
  let n := c.request.contentLength
  if buf.length < n then .starved
  else .stop .gotAll ⟨.gotAll, { c.request with body := buf.take n }⟩ (buf.drop n)

def turn (c : HttpContext) (buf : Bytes) : ParseTurn :=
  match c.state with
  | .expectRequestLine => requestLineTurn c buf
  | .expectHeaders => headerTurn c buf
  | .expectBody => bodyTurn c buf
  | .gotAll => .stop .spins c buf

theorem findCRLF_shrinks {b line rest : Bytes} (h : findCRLF b = some (line, rest)) :
    rest.length < b.length := by
  rw [(findCRLF_eq h).1]
  simp only [List.length_append, List.length_cons]
  omega

theorem endOfHeaders_append (c : HttpContext) (buf rest q : Bytes) :
    endOfHeaders c (buf ++ q) (rest ++ q) = match endOfHeaders c buf rest with
      | .again c' b' => .again c' (b' ++ q)
      | .stop r c' b' => .stop r c' (b' ++ q)
      | .starved => .starved := by
  unfold endOfHeaders
  split
  · dsimp only
    split
    · rfl
    · split
      · rfl
      · split <;> rfl
  · rfl

theorem endOfHeaders_again {c c' : HttpContext} {buf rest b' : Bytes}
    (h : endOfHeaders c buf rest = .again c' b') : b' = rest := by
  unfold endOfHeaders at h
  split at h
  · dsimp only at h
    split at h
    · cases h
    · split at h
      · cases h
      · split at h
        · cases h
          rfl
        · cases h
  · cases h

/-- Input behind what a turn looks at is carried along unchanged. -/
theorem turn_append (c : HttpContext) (buf q : Bytes) (h : turn c buf ≠ .starved) :
    turn c (buf ++ q) = match turn c buf with
      | .again c' b' => .again c' (b' ++ q)
      | .stop r c' b' => .stop r c' (b' ++ q)
      | .starved => .starved := by
  unfold turn at h ⊢
  cases hs : c.state with
  | expectRequestLine =>
    simp only [hs, requestLineTurn] at h ⊢
    cases hf : findCRLF buf with
    | none => simp [hf] at h
    | some p =>
      simp only [findCRLF_append q hf]
      split <;> rfl
  | expectHeaders =>
    simp only [hs, headerTurn] at h ⊢
    cases hf : findCRLF buf with
    | none => simp [hf] at h
    | some p =>
      simp only [findCRLF_append q hf]
      split
      · rfl
      · split
        · exact endOfHeaders_append c buf p.2 q
        · rfl
  | expectBody =>
    simp only [hs, bodyTurn] at h ⊢
    split at h
    · exact absurd rfl h
    · next hlen =>
      have hle : c.request.contentLength ≤ buf.length := Nat.le_of_not_lt hlen
      rw [if_neg hlen, if_neg (by simp only [List.length_append]; omega),
        List.take_append_of_le_length hle, List.drop_append_of_le_length hle]
  | gotAll => rfl

theorem turn_shrinks {c c' : HttpContext} {buf b' : Bytes} (h : turn c buf = .again c' b') :
    b'.length < buf.length := by
  unfold turn at h
  split at h
  · unfold requestLineTurn at h
    split at h
    · cases h
    · next hf =>
      split at h
      · cases h
        exact findCRLF_shrinks hf
      · cases h
  · unfold headerTurn at h
    split at h
    · cases h
    · next hf =>
      dsimp only at h
      split at h
      · cases h
        exact findCRLF_shrinks hf
      · split at h
        · rw [endOfHeaders_again h]
          exact findCRLF_shrinks hf
        · cases h
  · unfold bodyTurn at h
    dsimp only at h
    split at h <;> cases h
  · cases h

def parser : Scanner HttpContext Outcome UInt8 where
  turn := turn
  shrinks := turn_shrinks
  again_append q h := by rw [turn_append _ _ q (by simp [h]), h]
  stop_append q h := by rw [turn_append _ _ q (by simp [h]), h]

/-- A pending or gotAll call returns true and a malformed one false. -/
def parseRequest (c : HttpContext) (buf : Bytes) : Verdict HttpContext Outcome UInt8 :=
  parser.run c buf

/-- What the caller of parseRequest sees: the value returned, and the request once gotAll. -/
def observe : Verdict HttpContext Outcome UInt8 → Option (Bool × Option HttpRequest)
  | .pending _ _ => some (true, none)
  | .finished .gotAll c _ => some (true, some c.request)
  | .finished .malformed _ _ => some (false, none)
  | .finished (.threw _) _ _ => none
  | .finished .spins _ _ => none

/-- One context and one buffer, fed chunk by chunk with a reset after each gotAll. -/
def feedAll (c : HttpContext) (buf : Bytes) : List Bytes → List (Option (Bool × Option HttpRequest))
  | [] => []
  | chunk :: chunks =>
    let v := parseRequest c (buf ++ chunk)
    observe v :: match v with
      | .pending c' buf' => feedAll c' buf' chunks
      | .finished .gotAll c' buf' => feedAll c'.reset buf' chunks
      | .finished _ c' buf' => feedAll c' buf' chunks

/-- A fresh context given w as one buffer builds r and leaves nothing over. -/
def Accepts (w : Bytes) (r : HttpRequest) : Prop :=
  parseRequest {} w = .finished .gotAll ⟨.gotAll, r⟩ []

theorem accepts_ne_nil {r : HttpRequest} : ¬ Accepts [] r := by
  have hstarved : parser.turn {} [] = .starved := rfl
  intro h
  rw [Accepts, parseRequest, Scanner.run_starved hstarved] at h
  cases h

theorem feedAll_request {c : HttpContext} {buf p : Bytes} {r : HttpRequest}
    {chunks rest : List Bytes} (hres : parser.Resumes {} p c buf)
    (hacc : Accepts (p ++ chunks.flatten) r) (hne : ∀ chunk ∈ chunks, chunk ≠ [])
    (hchunks : chunks ≠ []) :
    feedAll c buf (chunks ++ rest) = List.replicate (chunks.length - 1) (some (true, none)) ++
      some (true, some r) :: feedAll {} [] rest := by
  induction chunks generalizing c buf p with
  | nil => exact absurd rfl hchunks
  | cons chunk chunks ih =>
    cases chunks with
    | nil =>
      have hrun : parseRequest c (buf ++ chunk) = .finished .gotAll ⟨.gotAll, r⟩ [] := by
        rw [parseRequest, hres.run_eq chunk]
        simpa [Accepts, parseRequest] using hacc
      simp [feedAll, hrun, observe]
    | cons next chunks =>
      -- more is to come, so the request cannot be complete yet
      have hmore : (next :: chunks).flatten ≠ [] := by
        simp [hne next (by simp)]
      have hacc' : parser.run {} ((p ++ chunk) ++ (next :: chunks).flatten) =
          .finished .gotAll ⟨.gotAll, r⟩ [] := by
        simpa [Accepts, parseRequest] using hacc
      obtain ⟨c', buf', hpending⟩ := Scanner.pending_of_prefix hacc' hmore
      have hrun : parser.run c (buf ++ chunk) = .pending c' buf' := by
        rw [hres.run_eq chunk, hpending]
      have hrest := ih (hres.feed hrun) hacc' (fun x hx => hne x (List.mem_cons_of_mem _ hx))
        (by simp)
      have hcount : (chunk :: next :: chunks).length - 1 = (next :: chunks).length - 1 + 1 := rfl
      rw [List.cons_append, feedAll, hcount, List.replicate_succ]
      simp only [parseRequest, hrun, observe]
      exact congrArg _ hrest

/-- Fragmentation and keep-alive do not change a request: however each request is cut, every
call returns true, gotAll holds after the last chunk of each and never before, and the request
is the one a fresh context builds from the whole. -/
theorem fragmentation_invisible (requests : List (List Bytes × HttpRequest))
    (hsplit : ∀ w ∈ requests, ∀ chunk ∈ w.1, chunk ≠ [])
    (haccepted : ∀ w ∈ requests, Accepts w.1.flatten w.2) :
    feedAll {} [] (requests.flatMap Prod.fst) = requests.flatMap fun w =>
      List.replicate (w.1.length - 1) (some (true, none)) ++ [some (true, some w.2)] := by
  induction requests with
  | nil => rfl
  | cons w requests ih =>
    have hchunks : w.1 ≠ [] := by
      intro h
      have hacc := haccepted w (by simp)
      rw [h] at hacc
      exact accepts_ne_nil hacc
    have hfirst : feedAll {} [] (w.1 ++ requests.flatMap Prod.fst) =
        List.replicate (w.1.length - 1) (some (true, none)) ++
          some (true, some w.2) :: feedAll {} [] (requests.flatMap Prod.fst) :=
      feedAll_request (p := []) (Scanner.Resumes.start (M := parser) ({} : HttpContext) [])
        (haccepted w (by simp)) (hsplit w (by simp)) hchunks
    rw [List.flatMap_cons, List.flatMap_cons, hfirst,
      ih (fun x hx => hsplit x (List.mem_cons_of_mem _ hx))
        fun x hx => haccepted x (List.mem_cons_of_mem _ hx)]
    simp

def demoPost : HttpRequest where
  method := .post
  version := ascii "HTTP/1.1"
  path := ascii "/a"
  headers := .insert .empty (ascii "Content-Length") (ascii "2")
  body := ascii "hi"
  contentLength := 2

def demoGet : HttpRequest where
  method := .get
  version := ascii "HTTP/1.1"
  path := ascii "/b"

theorem accepts_demoPost :
    Accepts (ascii "POST /a HTTP/1.1\r\nContent-Length: 2\r\n\r\nhi") demoPost :=
  (Scanner.run_again rfl).trans ((Scanner.run_again rfl).trans
    ((Scanner.run_again rfl).trans (Scanner.run_stop rfl)))

theorem accepts_demoGet : Accepts (ascii "GET /b HTTP/1.1\r\n\r\n") demoGet :=
  (Scanner.run_again rfl).trans (Scanner.run_stop rfl)

/-- A body cut in two, then a second request on the same connection. -/
theorem fragmentation_invisible_demo :
    feedAll {} [] [ascii "POST /a HTTP/1.1\r\nContent-Length: 2\r\n\r\nh", ascii "i",
        ascii "GET /b HTTP/1.1\r\n\r\n"] =
      [some (true, none), some (true, some demoPost), some (true, some demoGet)] :=
  fragmentation_invisible [([ascii "POST /a HTTP/1.1\r\nContent-Length: 2\r\n\r\nh", ascii "i"],
      demoPost), ([ascii "GET /b HTTP/1.1\r\n\r\n"], demoGet)] (by decide)
    (by simpa using ⟨accepts_demoPost, accepts_demoGet⟩)

end HttpContexts
