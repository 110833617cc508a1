import HaoShortLink.HttpServers

/-! When a connection that the server has decided to close goes on dispatching. -/
namespace ClosingConnections

open Cpp HttpRequests HttpResponses HttpContexts RequestGrammars HttpServers
open Resumable (Scanner)

/-- From the decision to close on, no delivery puts the rest of a request into the buffer. -/
def StaysQuiet (s : HttpServer) (c : Connection) : List Bytes → Prop
  | [] => True
  | chunk :: chunks =>
    (HasClosed c.effects → ¬ RestOfRequest c.context (c.buffer ++ chunk)) ∧
      ∀ c', s.onMessage c chunk = some c' → StaysQuiet s c' chunks

theorem nothingAfterClose_append {effects new : List Effect} :
    NothingAfterClose (effects ++ new) ↔ NothingAfterClose effects ∧ NothingAfterClose new ∧
      (HasClosed effects → ∀ e ∈ new, ¬ e.IsDispatch) := by
  rw [NothingAfterClose, List.pairwise_append]
  refine and_congr_right fun _ => and_congr_right ?_
  intro _
  exact ⟨fun h ⟨e, he, hcloses⟩ e' he' => h e he e' he' hcloses,
    fun h e he e' he' hcloses => h ⟨e, he, hcloses⟩ e' he'⟩

theorem nothingAfterClose_step (s : HttpServer) {c : Connection} (chunk : Bytes)
    (hlive : c.context.state ≠ .gotAll) :
    ∃ c', s.onMessage c chunk = some c' ∧ c'.context.state ≠ .gotAll ∧
      (NothingAfterClose c'.effects ↔ NothingAfterClose c.effects ∧
        (HasClosed c.effects → ¬ RestOfRequest c.context (c.buffer ++ chunk))) := by
  simp only [restOfRequest_iff]
  rcases onMessage_cases s chunk hlive with
    ⟨context, rest, hparse, hstep⟩ | ⟨context, rest, hparse, hstate, hstep⟩ |
      ⟨hnot, context, rest, hstate, hstep⟩
  · refine ⟨_, hstep, by simp, ?_⟩
    have hcompletes : Completes c.context (c.buffer ++ chunk) := ⟨context, rest, hparse⟩
    have hpair (request : HttpRequest) (response : HttpResponse) :
        NothingAfterClose [.dispatched request, .answered response] := by
      simp [NothingAfterClose, Effect.Closes]
    rw [nothingAfterClose_append]
    simp [hpair, hcompletes, Effect.IsDispatch]
  · have hnot : ¬ Completes c.context (c.buffer ++ chunk) := by
      rintro ⟨context', rest', hall⟩
      rw [hparse] at hall
      cases hall
    exact ⟨_, hstep, hstate, by simp [hnot]⟩
  · refine ⟨_, hstep, hstate, ?_⟩
    have hone (response : HttpResponse) : NothingAfterClose [.rejected response] := by
      simp [NothingAfterClose]
    rw [nothingAfterClose_append]
    simp [hone, hnot, Effect.IsDispatch]

theorem nothingAfterClose_run (s : HttpServer) {c : Connection} (chunks : List Bytes)
    (hlive : c.context.state ≠ .gotAll) :
    ∃ c', s.onMessages c chunks = some c' ∧
      (NothingAfterClose c'.effects ↔ NothingAfterClose c.effects ∧ StaysQuiet s c chunks) := by
  induction chunks generalizing c with
  | nil => exact ⟨c, rfl, by simp [StaysQuiet]⟩
  | cons chunk chunks ih =>
    obtain ⟨c₁, hstep, hlive₁, hiff₁⟩ := nothingAfterClose_step s chunk hlive
    obtain ⟨c₂, hrun, hiff₂⟩ := ih hlive₁
    refine ⟨c₂, by simp [HttpServer.onMessages, hstep, hrun], ?_⟩
    rw [hiff₂, hiff₁]
    simp [StaysQuiet, hstep, and_assoc]

/-- Whatever arrives and however it is cut, nothing is dispatched after a parse error or a
closing response exactly when no later delivery completes a request. -/
theorem nothing_after_close_iff (s : HttpServer) (chunks : List Bytes) :
    (∃ c, s.onMessages {} chunks = some c ∧ NothingAfterClose c.effects) ↔
      StaysQuiet s {} chunks := by
  obtain ⟨c, hrun, hiff⟩ := nothingAfterClose_run s (c := {}) chunks (by simp)
  have hstart : NothingAfterClose ({} : Connection).effects := .nil
  simpa [hrun, hstart] using hiff

theorem broken_header : parseRequest {} (ascii "GET / HTTP/1.1\r\nbroken\r\n") =
    .finished .malformed ⟨.expectHeaders,
      { method := .get, version := ascii "HTTP/1.1", path := ascii "/" }⟩ [] :=
  (Scanner.run_again rfl).trans (Scanner.run_stop rfl)

theorem blank_line : parseRequest ⟨.expectHeaders,
      { method := .get, version := ascii "HTTP/1.1", path := ascii "/" }⟩ (ascii "\r\n") =
    .finished .gotAll ⟨.gotAll,
      { method := .get, version := ascii "HTTP/1.1", path := ascii "/" }⟩ [] :=
  Scanner.run_stop rfl

/-- A request rejected for its header line is dispatched when the next line is blank. -/
theorem rejected_request_dispatched : ¬ ∀ (s : HttpServer) (chunks : List Bytes),
    ∃ c, s.onMessages {} chunks = some c ∧ NothingAfterClose c.effects := by
  intro h
  let s : HttpServer := ⟨fun _ _ response => response, 0, id⟩
  obtain ⟨c, hrun, hquiet⟩ := h s [ascii "GET / HTTP/1.1\r\nbroken\r\n", ascii "\r\n"]
  simp only [HttpServer.onMessages, HttpServer.onMessage, List.nil_append, broken_header,
    blank_line, Option.bind_some, Option.some.injEq] at hrun
  subst hrun
  simp [NothingAfterClose, Effect.Closes, Effect.IsDispatch] at hquiet

end ClosingConnections
