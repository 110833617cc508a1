import HaoShortLink.HttpServers
import HaoShortLink.RequestLines

/-! HttpServer.cpp with a callback of the application's own, which may throw: whether every call of
parseRequest ends, and what setMethod finds when it is called. -/
namespace HttpCallbacks

open Cpp HttpRequests HttpResponses HttpContexts RequestIds RequestLines
open HttpServers (Connection Effect)
open Resumable (Scanner Verdict)

/-- Installed by setHttpCallback; the n-th call on a connection may depend on everything that
happened elsewhere in the meantime. -/
structure HttpServer where
  /-- The response as the callback leaves it, or nothing when it throws a std::exception. -/
  httpCallback : ℕ → HttpRequest → HttpResponse → Option HttpResponse
  processNonce : ℕ
  requestSequence : ℕ → ℕ

namespace HttpServer

def errorResponse (s : HttpServer) (n : ℕ) : HttpResponse :=
  (({} : HttpResponse).setErrorResponse 400 (ascii "bad_request") (ascii "Bad Request")).addHeader
    (ascii "X-Request-ID") (generateRequestId s.processNonce (s.requestSequence n))

def onRequest (s : HttpServer) (n : ℕ) (request : HttpRequest) : Option HttpResponse :=
  let requestId := chooseRequestId (request.getHeader (ascii "X-Request-ID")) s.processNonce
    (s.requestSequence n)
  let observed := { request with requestId := requestId }
  (s.httpCallback n observed
    { closeConnection := HttpServers.HttpServer.closeRequested observed }).map fun response =>
      response.addHeader (ascii "X-Request-ID") requestId

/-- One delivery. It does not return when the parser spins. -/
def onMessage (s : HttpServer) (c : Connection) (chunk : Bytes) : Option Connection :=
  let n := c.effects.length
  match parseRequest c.context (c.buffer ++ chunk) with
  | .pending context buffer => some { c with context := context, buffer := buffer }
  | .finished .gotAll context buffer =>
    match s.onRequest n context.request with
    | some response =>
      some ⟨context.reset, buffer, c.effects ++ [.dispatched context.request, .answered response]⟩
    -- the exception leaves before the context is reset
    | none => some ⟨context, buffer,
        c.effects ++ [.dispatched context.request, .rejected (s.errorResponse (n + 1))]⟩
  | .finished .malformed context buffer =>
    some ⟨context, buffer, c.effects ++ [.rejected (s.errorResponse n)]⟩
  | .finished (.threw _) context buffer =>
    some ⟨context, buffer, c.effects ++ [.rejected (s.errorResponse n)]⟩
  | .finished .spins _ _ => none

def onMessages (s : HttpServer) (c : Connection) : List Bytes → Option Connection
  | [] => some c
  | chunk :: chunks => (s.onMessage c chunk).bind fun c' => onMessages s c' chunks

def EveryDelivery (s : HttpServer) (chunks : List Bytes) (P : Connection → Bytes → Prop) : Prop :=
  ∀ before chunk after c, chunks = before ++ chunk :: after →
    s.onMessages {} before = some c → P c chunk

/-- No delivery comes after one of this kind. -/
def NothingFollows (s : HttpServer) (chunks : List Bytes) (B : Connection → Bytes → Prop) : Prop :=
  ∀ before chunk next after c, chunks = before ++ chunk :: next :: after →
    s.onMessages {} before = some c → ¬ B c chunk

/-- In the delivery onRequest was called, and an error response went out for it. -/
def CallbackThrows (s : HttpServer) (c : Connection) (chunk : Bytes) : Prop :=
  ∃ c' request response, s.onMessage c chunk = some c' ∧
    c'.effects = c.effects ++ [.dispatched request, .rejected response]

end HttpServer

/-- A server whose callback is handleRequest, which lets no exception out. -/
def ofHandler (p : HttpServers.HttpServer) : HttpServer where
  httpCallback := fun n request response => some (p.handleRequest n request response)
  processNonce := p.processNonce
  requestSequence := p.requestSequence

theorem ofHandler_onMessage (p : HttpServers.HttpServer) (c : Connection) (chunk : Bytes) :
    (ofHandler p).onMessage c chunk = p.onMessage c chunk := by
  unfold HttpServer.onMessage HttpServers.HttpServer.onMessage
  cases parseRequest c.context (c.buffer ++ chunk) with
  | pending context rest => rfl
  | finished o context rest => cases o <;> rfl

/-- The body of the while loop once. In state kGotAll no branch applies and hasMore stays true. -/
def loopBody (c : HttpContext) (b : Bytes) : ParseTurn :=
  if c.state = .gotAll then .again c b else turn c b

inductive LoopEnds : HttpContext → Bytes → Prop where
  | starved {c b} : loopBody c b = .starved → LoopEnds c b
  | stop {c b o c' b'} : loopBody c b = .stop o c' b' → LoopEnds c b
  | again {c b c' b'} : loopBody c b = .again c' b' → LoopEnds c' b' → LoopEnds c b

/-- A call of parseRequest calls setMethod, and method_ holds this then. -/
inductive SetMethodCall : HttpContext → Bytes → Method → Prop where
  | here {c b line rest} : c.state = .expectRequestLine → findCRLF b = some (line, rest) →
      (32 : UInt8) ∈ line → SetMethodCall c b c.request.method
  | later {c b c' b' method} : turn c b = .again c' b' → SetMethodCall c' b' method →
      SetMethodCall c b method

/-- The first line has a method in front and is not a request line. -/
def HalfRead (b : Bytes) : Prop :=
  ∃ line rest method more, findCRLF b = some (line, rest) ∧
    method ∈ [Method.get, .post, .put, .delete, .options] ∧
    line = methodName method ++ 32 :: more ∧ ∀ l : RequestLine, line ≠ l.text

/-- A delivery finds such a line where a request is to begin. -/
def HalfReads (c : Connection) (chunk : Bytes) : Prop :=
  c.context.state = .expectRequestLine ∧ HalfRead (c.buffer ++ chunk)

section Runs

variable {s : HttpServer} {c c' : Connection} {chunk : Bytes} {chunks : List Bytes}

theorem onMessages_snoc : s.onMessages c (chunks ++ [chunk]) =
    (s.onMessages c chunks).bind fun c' => s.onMessage c' chunk := by
  induction chunks generalizing c with
  | nil => simp [HttpServer.onMessages]
  | cons first chunks ih =>
    rw [List.cons_append, HttpServer.onMessages, HttpServer.onMessages, Option.bind_assoc]
    congr 1
    funext c'
    exact ih

theorem onMessages_invariant {Inv : Connection → Prop} (hinit : Inv c)
    (hstep : ∀ c chunk c', Inv c → s.onMessage c chunk = some c' → Inv c')
    (h : s.onMessages c chunks = some c') : Inv c' := by
  induction chunks generalizing c with
  | nil =>
    cases h
    exact hinit
  | cons chunk chunks ih =>
    obtain ⟨c₁, hfirst, hrest⟩ := Option.bind_eq_some_iff.mp h
    exact ih (hstep c chunk c₁ hinit hfirst) hrest

/-- A property of deliveries that depends on the state alone, and a kind of delivery that alone
spoils the state: the property holds throughout where nothing follows a delivery of that kind. -/
theorem everyDelivery_iff (Inv Spoilt : Connection → Prop) {P B : Connection → Bytes → Prop}
    (hinit : Inv {} ∧ ¬ Spoilt {})
    (hinv : ∀ c chunk c', Inv c → s.onMessage c chunk = some c' → Inv c')
    (hP : ∀ c chunk, Inv c → (P c chunk ↔ ¬ Spoilt c))
    (hB : ∀ c chunk, B c chunk → ∃ c', s.onMessage c chunk = some c')
    (hstep : ∀ c chunk c', Inv c → s.onMessage c chunk = some c' → (Spoilt c' ↔ B c chunk)) :
    s.EveryDelivery chunks P ↔ s.NothingFollows chunks B := by
  constructor
  · intro h before chunk next after c hchunks hbefore hb
    obtain ⟨c', hc'⟩ := hB c chunk hb
    have hreached : s.onMessages {} (before ++ [chunk]) = some c' := by
      rw [onMessages_snoc, hbefore, Option.bind_some, hc']
    have hgood := h (before ++ [chunk]) next after c' (by simp [hchunks]) hreached
    have hc := onMessages_invariant hinit.1 hinv hbefore
    exact (hP c' next (hinv c chunk c' hc hc')).mp hgood ((hstep c chunk c' hc hc').mpr hb)
  · intro h before chunk after c hchunks hbefore
    refine (hP c chunk (onMessages_invariant hinit.1 hinv hbefore)).mpr ?_
    intro hspoilt
    rcases List.eq_nil_or_concat before with rfl | ⟨earlier, last, rfl⟩
    · cases hbefore
      exact hinit.2 hspoilt
    · rw [List.concat_eq_append] at hchunks hbefore
      rw [onMessages_snoc] at hbefore
      obtain ⟨c₀, hearlier, hlast⟩ := Option.bind_eq_some_iff.mp hbefore
      have hc₀ := onMessages_invariant hinit.1 hinv hearlier
      exact h earlier last chunk after c₀ (by simp [hchunks]) hearlier
        ((hstep c₀ last c hc₀ hlast).mp hspoilt)

end Runs

theorem loopEnds_iff {c : HttpContext} {b : Bytes} : LoopEnds c b ↔ c.state ≠ .gotAll := by
  constructor
  · intro h
    induction h with
    | @starved c b h =>
      intro hdone
      rw [loopBody, if_pos hdone] at h
      cases h
    | @stop c b o c' b' h =>
      intro hdone
      rw [loopBody, if_pos hdone] at h
      cases h
    | @again c b c' b' h _ ih =>
      intro hdone
      rw [loopBody, if_pos hdone] at h
      cases h
      exact ih hdone
  · intro hlive
    induction c, b using Scanner.run_induction (M := parser) with
    | again c b c' b' ht ih =>
      refine .again ?_ (ih (HttpServers.turn_again_live ht))
      rw [loopBody, if_neg hlive]
      exact ht
    | stop c b o c' b' ht =>
      have hbody : loopBody c b = .stop o c' b' := by
        rw [loopBody, if_neg hlive]
        exact ht
      exact .stop hbody
    | starved c b ht =>
      refine .starved ?_
      rw [loopBody, if_neg hlive]
      exact ht

/-- The outcome that stands for a loop without end is reached exactly when the loop has none. -/
theorem spins_iff {c : HttpContext} {b : Bytes} :
    (∃ c' b', parseRequest c b = .finished .spins c' b') ↔ ¬ LoopEnds c b := by
  rw [loopEnds_iff, not_not]
  constructor
  · rintro ⟨c', b', hspins⟩
    by_contra hlive
    rcases HttpServers.parse_live (b := b) hlive with
      ⟨d, rest, hparse, -⟩ | ⟨o, d, rest, hparse, ho⟩
    · rw [hspins] at hparse
      cases hparse
    · rw [hspins] at hparse
      cases hparse
      simp at ho
  · intro hdone
    refine ⟨c, b, Scanner.run_stop ?_⟩
    simp only [parser, turn, hdone]

theorem turn_stop_gotAll {c c' : HttpContext} {b b' : Bytes} (h : turn c b = .stop .gotAll c' b') :
    c'.state = .gotAll := by
  rcases HttpServers.turn_stop_state h with ⟨-, hstate⟩ | ⟨hne, -⟩
  · exact hstate
  · exact absurd rfl hne

theorem parse_gotAll {c c' : HttpContext} {b rest : Bytes}
    (h : parseRequest c b = .finished .gotAll c' rest) : c'.state = .gotAll := by
  unfold parseRequest at h
  induction c, b using Scanner.run_induction (M := parser) with
  | again c b d b' ht ih =>
    rw [Scanner.run_again ht] at h
    exact ih h
  | stop c b o d b' ht =>
    rw [Scanner.run_stop ht] at h
    cases h
    exact turn_stop_gotAll ht
  | starved c b ht =>
    rw [Scanner.run_starved ht] at h
    cases h

section Deliveries

variable {s : HttpServer} {c c' : Connection} {chunk : Bytes}

theorem onMessage_none_iff : s.onMessage c chunk = none ↔
    ¬ LoopEnds c.context (c.buffer ++ chunk) := by
  rw [← spins_iff]
  unfold HttpServer.onMessage
  constructor
  · intro h
    dsimp only at h
    split at h
    · cases h
    · split at h <;> cases h
    · cases h
    · cases h
    · next hparse => exact ⟨_, _, hparse⟩
  · rintro ⟨d, b, hparse⟩
    simp only [hparse]

theorem live_of_returned (h : s.onMessage c chunk = some c') : c.context.state ≠ .gotAll := by
  rw [← loopEnds_iff (b := c.buffer ++ chunk)]
  by_contra hspins
  rw [onMessage_none_iff.mpr hspins] at h
  cases h

theorem onMessage_cases (h : s.onMessage c chunk = some c') :
    (∃ rest, parseRequest c.context (c.buffer ++ chunk) = .pending c'.context rest ∧
      c'.effects = c.effects) ∨
    (∃ d rest response, parseRequest c.context (c.buffer ++ chunk) = .finished .gotAll d rest ∧
      c'.context = d.reset ∧
      c'.effects = c.effects ++ [.dispatched d.request, .answered response]) ∨
    (∃ rest response, parseRequest c.context (c.buffer ++ chunk) =
        .finished .gotAll c'.context rest ∧
      c'.effects = c.effects ++ [.dispatched c'.context.request, .rejected response]) ∨
    ∃ o rest response, parseRequest c.context (c.buffer ++ chunk) = .finished o c'.context rest ∧
      o ≠ .gotAll ∧ c'.effects = c.effects ++ [.rejected response] := by
  cases hparse : parseRequest c.context (c.buffer ++ chunk) with
  | pending d rest =>
    simp only [HttpServer.onMessage, hparse, Option.some.injEq] at h
    subst h
    exact .inl ⟨rest, rfl, rfl⟩
  | finished o d rest =>
    cases o with
    | gotAll =>
      simp only [HttpServer.onMessage, hparse] at h
      split at h
      · simp only [Option.some.injEq] at h
        subst h
        exact .inr (.inl ⟨d, rest, _, rfl, rfl, rfl⟩)
      · simp only [Option.some.injEq] at h
        subst h
        exact .inr (.inr (.inl ⟨rest, _, rfl, rfl⟩))
    | malformed =>
      simp only [HttpServer.onMessage, hparse, Option.some.injEq] at h
      subst h
      exact .inr (.inr (.inr ⟨_, rest, _, rfl, by simp, rfl⟩))
    | threw e =>
      simp only [HttpServer.onMessage, hparse, Option.some.injEq] at h
      subst h
      exact .inr (.inr (.inr ⟨_, rest, _, rfl, by simp, rfl⟩))
    | spins =>
      simp only [HttpServer.onMessage, hparse] at h
      cases h

/-- A delivery leaves the context in state kGotAll exactly when the callback threw in it. -/
theorem gotAll_iff_throws (h : s.onMessage c chunk = some c') :
    c'.context.state = .gotAll ↔ s.CallbackThrows c chunk := by
  have hlive := HttpServers.parse_live (b := c.buffer ++ chunk) (live_of_returned h)
  have hthrows : s.CallbackThrows c chunk ↔ ∃ request response,
      c'.effects = c.effects ++ [.dispatched request, .rejected response] := by
    constructor
    · rintro ⟨d, request, response, hd, heffects⟩
      rw [h] at hd
      cases hd
      exact ⟨request, response, heffects⟩
    · rintro ⟨request, response, heffects⟩
      exact ⟨c', request, response, h, heffects⟩
  rw [hthrows]
  rcases onMessage_cases h with ⟨rest, hparse, heffects⟩ |
    ⟨d, rest, response, hparse, hreset, heffects⟩ | ⟨rest, response, hparse, heffects⟩ |
    ⟨o, rest, response, hparse, hne, heffects⟩
  · rw [hparse] at hlive
    rw [heffects]
    refine iff_of_false ?_ (by simp)
    simpa using hlive
  · rw [hreset, heffects]
    exact iff_of_false (by simp [reset_eq]) (by simp)
  · exact iff_of_true (parse_gotAll hparse) ⟨_, response, heffects⟩
  · rw [hparse] at hlive
    rw [heffects]
    refine iff_of_false ?_ (by simp)
    have hstate : o ≠ .spins ∧ c'.context.state ≠ .gotAll := by simpa [hne] using hlive
    exact hstate.2

/-- Every call of parseRequest ends exactly where nothing is delivered any more after a delivery
in which the callback threw. -/
theorem parseRequest_ends_iff (s : HttpServer) (chunks : List Bytes) :
    s.EveryDelivery chunks (fun c chunk => LoopEnds c.context (c.buffer ++ chunk)) ↔
    s.NothingFollows chunks s.CallbackThrows := by
  apply everyDelivery_iff (fun _ => True) fun c => c.context.state = .gotAll
  · exact ⟨trivial, by simp⟩
  · intro c chunk c' _ _
    trivial
  · intro c chunk _
    exact loopEnds_iff
  · rintro c chunk ⟨c', request, response, h, -⟩
    exact ⟨c', h⟩
  · intro c chunk c' _ h
    exact gotAll_iff_throws h

end Deliveries

/-- Answers nothing but exceptions. -/
def throwing : HttpServer := ⟨fun _ _ _ => none, 0, fun n => n⟩

/-- One request whose callback throws, and then one more byte. -/
theorem parseRequest_hangs : ¬ ∀ (s : HttpServer) (chunks : List Bytes),
    s.EveryDelivery chunks fun c chunk => LoopEnds c.context (c.buffer ++ chunk) := by
  intro h
  have hrun : parseRequest {} (ascii "GET /b HTTP/1.1\r\n\r\n") =
      .finished .gotAll ⟨.gotAll, demoGet⟩ [] := accepts_demoGet
  have hfirst : throwing.onMessages {} [ascii "GET /b HTTP/1.1\r\n\r\n"] =
      some ⟨⟨.gotAll, demoGet⟩, [],
        [.dispatched demoGet, .rejected (throwing.errorResponse 1)]⟩ := by
    simp only [HttpServer.onMessages, HttpServer.onMessage, List.nil_append, hrun]
    rfl
  have hends := h throwing [ascii "GET /b HTTP/1.1\r\n\r\n", ascii "x"]
    [ascii "GET /b HTTP/1.1\r\n\r\n"] (ascii "x") [] _ rfl hfirst
  exact loopEnds_iff.mp hends rfl

theorem turn_again_past {c c' : HttpContext} {b b' : Bytes} (h : turn c b = .again c' b') :
    c'.state ≠ .expectRequestLine := by
  rcases HttpServers.turn_again_state h with hstate | hstate <;> rw [hstate] <;> decide

theorem turn_stop_past {c c' : HttpContext} {b b' : Bytes} {o : Outcome}
    (h : turn c b = .stop o c' b') (hpast : c.state ≠ .expectRequestLine) :
    c'.state ≠ .expectRequestLine := by
  rcases HttpServers.turn_stop_state h with ⟨-, hstate⟩ | ⟨-, hstate, -⟩
  · rw [hstate]
    decide
  · rwa [hstate]

theorem parse_past {c : HttpContext} {b : Bytes} (hpast : c.state ≠ .expectRequestLine) :
    (∃ c' rest, parseRequest c b = .pending c' rest ∧ c'.state ≠ .expectRequestLine) ∨
      ∃ o c' rest, parseRequest c b = .finished o c' rest ∧ c'.state ≠ .expectRequestLine := by
  induction c, b using Scanner.run_induction (M := parser) with
  | again c b c' b' ht ih =>
    rw [parseRequest, Scanner.run_again ht]
    exact ih (turn_again_past ht)
  | stop c b o c' b' ht =>
    exact .inr ⟨o, c', b', Scanner.run_stop ht, turn_stop_past ht hpast⟩
  | starved c b ht => exact .inl ⟨c, b, Scanner.run_starved ht, hpast⟩

theorem setMethodCall_iff {c : HttpContext} {b : Bytes} {method : Method} :
    SetMethodCall c b method ↔ c.state = .expectRequestLine ∧ method = c.request.method ∧
      ∃ line rest, findCRLF b = some (line, rest) ∧ (32 : UInt8) ∈ line := by
  constructor
  · intro h
    induction h with
    | here hstate hline hspace => exact ⟨hstate, rfl, _, _, hline, hspace⟩
    | later ht _ ih => exact absurd ih.1 (turn_again_past ht)
  · rintro ⟨hstate, rfl, line, rest, hline, hspace⟩
    exact .here hstate hline hspace

/-- setMethod is the only thing that changes the method, also in a line that is refused. -/
theorem method_processRequestLine (request : HttpRequest) (line : Bytes) :
    (processRequestLine request line).2.method =
      if (32 : UInt8) ∈ line then methodOf (line.takeWhile (· != 32)) else request.method := by
  have htarget : ∀ (r : HttpRequest) (target : Bytes), (setTarget r target).method = r.method := by
    intro r target
    unfold setTarget
    dsimp only
    split <;> rfl
  have hversion : ∀ (r : HttpRequest) (version : Bytes),
      (setVersion r version).2.method = r.method := by
    intro r version
    unfold setVersion
    split
    · rfl
    · split <;> rfl
  rcases cut_cases 32 line with hplain | ⟨m, rest, hm, rfl⟩
  · rw [if_neg hplain]
    simp only [processRequestLine, takeWhile_ne hplain, List.drop_length]
  · rw [if_pos (by simp), takeWhile_until hm]
    simp only [processRequestLine, takeWhile_until hm, List.drop_left]
    split
    · rfl
    · split
      · rfl
      · rw [hversion, htarget]

theorem HalfRead.append {b : Bytes} (h : HalfRead b) (more : Bytes) : HalfRead (b ++ more) := by
  obtain ⟨line, rest, method, tail, hline, hmethod, htext, hnot⟩ := h
  exact ⟨line, rest ++ more, method, tail, findCRLF_append more hline, hmethod, htext, hnot⟩

/-- A line that is refused and leaves a method behind was half read, now or before. -/
theorem halfRead_iff {request : HttpRequest} {b line rest : Bytes}
    (hline : findCRLF b = some (line, rest)) (hbefore : request.method ≠ .invalid → HalfRead b) :
    HalfRead b ↔ (processRequestLine request line).1 = false ∧
      (processRequestLine request line).2.method ≠ .invalid := by
  constructor
  · rintro ⟨line', rest', method, more, hline', hmethod, rfl, hnot⟩
    rw [hline] at hline'
    cases hline'
    obtain ⟨hof, hspace⟩ := methodOf_methodName hmethod
    constructor
    · apply Bool.eq_false_iff.mpr
      intro haccepted
      obtain ⟨l, hl⟩ := exists_text_of_accepted haccepted
      exact hnot l hl
    · rw [method_processRequestLine, if_pos (by simp), takeWhile_until hspace,
        methodOf_ne_invalid_iff]
      exact ⟨method, hmethod, rfl⟩
  · rintro ⟨hrefused, hstored⟩
    rw [method_processRequestLine] at hstored
    split at hstored
    · next hspace =>
      rcases cut_cases 32 line with hplain | ⟨m, more, hm, rfl⟩
      · exact absurd hspace hplain
      · rw [takeWhile_until hm] at hstored
        obtain ⟨method, hmethod, rfl⟩ := methodOf_ne_invalid_iff.mp hstored
        refine ⟨_, rest, method, more, hline, hmethod, rfl, ?_⟩
        intro l hl
        obtain ⟨path, pieces, htarget⟩ := target_exists l.target
        rw [hl, processRequestLine_text l htarget] at hrefused
        cases hrefused
    · exact hbefore hstored

section Assertion

variable {s : HttpServer} {c c' : Connection} {chunk : Bytes}

/-- At the start of a request, method_ is set only by the line that still stands in the buffer. -/
def Invariant (c : Connection) : Prop :=
  c.context.state = .expectRequestLine → c.context.request.method ≠ .invalid → HalfRead c.buffer

def Spoilt (c : Connection) : Prop :=
  c.context.state = .expectRequestLine ∧ c.context.request.method ≠ .invalid

theorem settled_of_past (hparse : (∃ d rest,
      parseRequest c.context (c.buffer ++ chunk) = .pending d rest ∧ d.state ≠ .expectRequestLine) ∨
    ∃ o d rest, parseRequest c.context (c.buffer ++ chunk) = .finished o d rest ∧
      d.state ≠ .expectRequestLine)
    (h : s.onMessage c chunk = some c') : ¬ Spoilt c' ∧ Invariant c' := by
  have hcontext : c'.context.state ≠ .expectRequestLine ∨ c'.context = {} := by
    rcases onMessage_cases h with ⟨rest, hrun, -⟩ | ⟨d, rest, response, -, hreset, -⟩ |
      ⟨rest, response, hrun, -⟩ | ⟨o, rest, response, hrun, -⟩
    · rw [hrun] at hparse
      exact .inl (by simpa using hparse)
    · exact .inr hreset
    · rw [hrun] at hparse
      exact .inl (by simpa using hparse)
    · rw [hrun] at hparse
      exact .inl (by simpa using hparse)
  rcases hcontext with hpast | hfresh
  · exact ⟨fun hspoilt => hpast hspoilt.1, fun hstate => absurd hstate hpast⟩
  · constructor
    · intro hspoilt
      exact hspoilt.2 (by rw [hfresh])
    · intro _ hstored
      exact absurd (by rw [hfresh]) hstored

theorem delivery_line (hc : Invariant c) (h : s.onMessage c chunk = some c') :
    (Spoilt c' ↔ HalfReads c chunk) ∧ Invariant c' := by
  by_cases hstate : c.context.state = .expectRequestLine
  · have hbefore : c.context.request.method ≠ .invalid → HalfRead (c.buffer ++ chunk) := by
      intro hstored
      exact (hc hstate hstored).append chunk
    have hhalf : HalfReads c chunk ↔ HalfRead (c.buffer ++ chunk) := and_iff_right hstate
    rw [hhalf]
    have hturn : parser.turn c.context (c.buffer ++ chunk) =
        requestLineTurn c.context (c.buffer ++ chunk) := by
      simp only [parser, turn, hstate]
    cases hline : findCRLF (c.buffer ++ chunk) with
    | none =>
      have hnot : ¬ HalfRead (c.buffer ++ chunk) := by
        rintro ⟨line, rest, method, more, hsome, -⟩
        rw [hline] at hsome
        cases hsome
      simp only [requestLineTurn, hline] at hturn
      simp only [HttpServer.onMessage, parseRequest, Scanner.run_starved hturn,
        Option.some.injEq] at h
      subst h
      refine ⟨iff_of_false ?_ hnot, ?_⟩
      · intro hspoilt
        exact hnot (hbefore hspoilt.2)
      · intro _ hstored
        exact hbefore hstored
    | some p =>
      obtain ⟨line, rest⟩ := p
      have hiff := halfRead_iff hline hbefore
      cases hresult : processRequestLine c.context.request line with
      | mk ok request =>
        rw [hresult] at hiff
        cases ok with
        | true =>
          simp only [requestLineTurn, hline, hresult] at hturn
          have hpast := parse_past (c := ⟨.expectHeaders, request⟩) (b := rest) (by simp)
          rw [parseRequest, ← Scanner.run_again hturn] at hpast
          obtain ⟨hsettled, hinv⟩ := settled_of_past hpast h
          refine ⟨iff_of_false hsettled ?_, hinv⟩
          intro hread
          cases (hiff.mp hread).1
        | false =>
          simp only [requestLineTurn, hline, hresult, hstate] at hturn
          simp only [HttpServer.onMessage, parseRequest, Scanner.run_stop hturn,
            Option.some.injEq] at h
          subst h
          constructor
          · rw [hiff]
            exact and_congr_left fun _ => iff_of_true rfl rfl
          · intro _ hstored
            exact hiff.mpr ⟨rfl, hstored⟩
  · obtain ⟨hsettled, hinv⟩ := settled_of_past (parse_past hstate) h
    exact ⟨iff_of_false hsettled fun hread => hstate hread.1, hinv⟩

/-- A half read line makes the parser answer and leaves the connection open to more input. -/
theorem returned_of_halfReads (hread : HalfReads c chunk) :
    ∃ c', s.onMessage c chunk = some c' := by
  cases h : s.onMessage c chunk with
  | some c' => exact ⟨c', rfl⟩
  | none =>
    have hspins := onMessage_none_iff.mp h
    rw [loopEnds_iff, hread.1] at hspins
    exact absurd (by simp) hspins

theorem setMethod_safe_iff (hc : Invariant c) :
    (∀ method, SetMethodCall c.context (c.buffer ++ chunk) method → method = .invalid) ↔
      ¬ Spoilt c := by
  constructor
  · rintro h ⟨hstate, hstored⟩
    obtain ⟨line, rest, method, more, hline, -, htext, -⟩ := (hc hstate hstored).append chunk
    exact hstored (h _ (.here hstate hline (by simp [htext])))
  · intro hfresh method hcall
    obtain ⟨hstate, rfl, -⟩ := setMethodCall_iff.mp hcall
    by_contra hstored
    exact hfresh ⟨hstate, hstored⟩

/-- The assertion of setMethod holds at every call exactly where nothing is delivered any more
after a half read line. -/
theorem setMethod_asserts_iff (s : HttpServer) (chunks : List Bytes) :
    s.EveryDelivery chunks (fun c chunk => ∀ method,
      SetMethodCall c.context (c.buffer ++ chunk) method → method = .invalid) ↔
    s.NothingFollows chunks HalfReads := by
  apply everyDelivery_iff Invariant Spoilt
  · constructor
    · intro _ hstored
      exact absurd rfl hstored
    · intro hspoilt
      exact hspoilt.2 rfl
  · intro c chunk c' hc h
    exact (delivery_line hc h).2
  · intro c chunk hc
    exact setMethod_safe_iff hc
  · intro c chunk hread
    exact returned_of_halfReads hread
  · intro c chunk c' hc h
    exact (delivery_line hc h).1

end Assertion

/-- A version that is not known, and then one more byte. -/
theorem setMethod_asserts_false : ¬ ∀ (s : HttpServer) (chunks : List Bytes),
    s.EveryDelivery chunks fun c chunk => ∀ method,
      SetMethodCall c.context (c.buffer ++ chunk) method → method = .invalid := by
  intro h
  have hfirst : throwing.onMessages {} [ascii "GET / HTTP/2.0\r\n"] =
      some ⟨⟨.expectRequestLine, { method := .get, path := ascii "/" }⟩,
        ascii "GET / HTTP/2.0\r\n", [.rejected (throwing.errorResponse 0)]⟩ := by
    have hturn : parser.turn {} (ascii "GET / HTTP/2.0\r\n") = .stop .malformed
        ⟨.expectRequestLine, { method := .get, path := ascii "/" }⟩ (ascii "GET / HTTP/2.0\r\n") :=
      rfl
    simp only [HttpServer.onMessages, HttpServer.onMessage, List.nil_append, parseRequest,
      Scanner.run_stop hturn]
    rfl
  have hcall := h throwing [ascii "GET / HTTP/2.0\r\n", ascii "x"] [ascii "GET / HTTP/2.0\r\n"]
    (ascii "x") [] _ rfl hfirst .get
  have hmade : SetMethodCall ⟨.expectRequestLine, { method := .get, path := ascii "/" }⟩
      (ascii "GET / HTTP/2.0\r\n" ++ ascii "x") .get := by
    have hline : findCRLF (ascii "GET / HTTP/2.0\r\n" ++ ascii "x") =
        some (ascii "GET / HTTP/2.0", ascii "x") := rfl
    exact .here rfl hline (by decide)
  cases hcall hmade

end HttpCallbacks
