import HaoShortLink.HttpServers

/-! Which of the requests that have arrived on a connection have been dispatched. -/
namespace RequestDispatch

open Cpp HttpRequests HttpResponses HttpContexts HttpServers
open Resumable (Scanner Verdict)

/-- Requests as they stand on the wire, with what a fresh context builds from each. -/
abbrev Requests := List (Bytes × HttpRequest)

def bytes (requests : Requests) : Bytes := requests.flatMap Prod.fst

theorem bytes_append (done todo : Requests) : bytes (done ++ todo) = bytes done ++ bytes todo :=
  List.flatMap_append

def dispatches (effects : List Effect) : List HttpRequest :=
  effects.filterMap fun
    | .dispatched request => some request
    | _ => none

/-- The requests whose last byte is among the first n bytes. -/
def completed : Requests → ℕ → List HttpRequest
  | [], _ => []
  | (w, request) :: requests, n =>
    if w.length ≤ n then request :: completed requests (n - w.length) else []

/-- After each delivery every complete request has been dispatched, in order. -/
def NoneWaiting (s : HttpServer) (requests : Requests) (chunks : List Bytes) : Prop :=
  ∀ delivered, delivered <+: chunks → ∃ c, s.onMessages {} delivered = some c ∧
    dispatches c.effects = completed requests delivered.flatten.length

/-- No delivery brings the last byte of a second request. -/
def OneEndPerDelivery (requests : Requests) (chunks : List Bytes) : Prop :=
  ∀ delivered chunk, delivered ++ [chunk] <+: chunks →
    (completed requests (delivered ++ [chunk]).flatten.length).length ≤
      (completed requests delivered.flatten.length).length + 1

theorem completed_append (done todo : Requests) (n : ℕ) :
    completed (done ++ todo) ((bytes done).length + n) =
      done.map Prod.snd ++ completed todo n := by
  induction done with
  | nil => simp [bytes]
  | cons w done ih =>
    have hle : w.1.length ≤ (bytes (w :: done)).length + n := by
      simp only [bytes, List.flatMap_cons, List.length_append]
      omega
    have hrest : (bytes (w :: done)).length + n - w.1.length = (bytes done).length + n := by
      simp only [bytes, List.flatMap_cons, List.length_append]
      omega
    rw [List.cons_append, completed, if_pos hle, hrest, ih]
    rfl

theorem onMessages_append (s : HttpServer) (c : Connection) (chunks : List Bytes) (chunk : Bytes) :
    s.onMessages c (chunks ++ [chunk]) =
      (s.onMessages c chunks).bind fun c' => s.onMessage c' chunk := by
  induction chunks generalizing c with
  | nil => simp [HttpServer.onMessages]
  | cons first chunks ih =>
    simp only [List.cons_append, HttpServer.onMessages, ih, Option.bind_assoc]

theorem dispatches_append (effects new : List Effect) :
    dispatches (effects ++ new) = dispatches effects ++ dispatches new := List.filterMap_append

theorem dispatches_onMessage {s : HttpServer} {c c' : Connection} {chunk : Bytes}
    (h : s.onMessage c chunk = some c') :
    (dispatches c'.effects).length ≤ (dispatches c.effects).length + 1 := by
  simp only [HttpServer.onMessage] at h
  split at h <;> cases h <;> simp [dispatches]

theorem completed_cons_eq_nil_iff {w : Bytes} {request : HttpRequest} {requests : Requests}
    {n : ℕ} : completed ((w, request) :: requests) n = [] ↔ n < w.length := by
  simp [completed]

/-- Where a connection stands that has dispatched all it can: p is what has arrived of the
requests still to come, and holds none of them whole. -/
structure Following (requests : Requests) (arrived : Bytes) (c : Connection) (done todo : Requests)
    (p : Bytes) : Prop where
  requests_eq : requests = done ++ todo
  arrived_eq : arrived = bytes done ++ p
  incomplete : completed todo p.length = []
  resumes : parser.Resumes {} p c.context c.buffer
  dispatched : dispatches c.effects = done.map Prod.snd

variable {s : HttpServer} {requests done todo : Requests} {arrived p chunk : Bytes}
  {c : Connection}

theorem Following.completed_eq (h : Following requests arrived c done todo p) :
    completed requests arrived.length = done.map Prod.snd := by
  rw [h.requests_eq, h.arrived_eq, List.length_append, completed_append, h.incomplete,
    List.append_nil]

theorem Following.wait (h : Following requests arrived c done todo p)
    (hincomplete : completed todo (p ++ chunk).length = []) {context : HttpContext} {rest : Bytes}
    (hparse : parseRequest c.context (c.buffer ++ chunk) = .pending context rest) :
    ∃ c' done todo p, s.onMessage c chunk = some c' ∧
      Following requests (arrived ++ chunk) c' done todo p := by
  refine ⟨⟨context, rest, c.effects⟩, done, todo, p ++ chunk, ?_, h.requests_eq, ?_, hincomplete,
    h.resumes.feed hparse, h.dispatched⟩
  · simp only [HttpServer.onMessage, hparse]
  · rw [h.arrived_eq, List.append_assoc]

theorem Following.dispatch {w q : Bytes} {request : HttpRequest}
    (h : Following requests arrived c done ((w, request) :: todo) p) (hw : p ++ chunk = w ++ q)
    (haccepts : Accepts w request) (hincomplete : completed todo q.length = []) :
    ∃ c' done todo p, s.onMessage c chunk = some c' ∧
      Following requests (arrived ++ chunk) c' done todo p := by
  have hparse : parseRequest c.context (c.buffer ++ chunk) =
      .finished .gotAll ⟨.gotAll, request⟩ q := by
    rw [parseRequest, h.resumes.run_eq, hw]
    exact Scanner.finished_append q haccepts
  refine ⟨_, done ++ [(w, request)], todo, q, by simp only [HttpServer.onMessage, hparse]; rfl,
    by simp [h.requests_eq], ?_, hincomplete, Scanner.Resumes.start _ _, ?_⟩
  · rw [h.arrived_eq, List.append_assoc, hw]
    simp [bytes]
  · rw [dispatches_append, h.dispatched, List.map_append]
    rfl

theorem Following.step (h : Following requests arrived c done todo p)
    (haccepted : ∀ w ∈ requests, Accepts w.1 w.2) (hdelivered : arrived ++ chunk <+: bytes requests)
    (hone : (completed requests (arrived ++ chunk).length).length ≤
      (completed requests arrived.length).length + 1) :
    ∃ c' done todo p, s.onMessage c chunk = some c' ∧
      Following requests (arrived ++ chunk) c' done todo p := by
  have hbytes : p ++ chunk <+: bytes todo := by
    rw [h.requests_eq, h.arrived_eq, bytes_append, List.append_assoc] at hdelivered
    exact (List.prefix_append_right_inj _).mp hdelivered
  have hcount : (completed todo (p ++ chunk).length).length ≤ 1 := by
    rw [h.completed_eq, h.requests_eq, h.arrived_eq, List.append_assoc, List.length_append,
      completed_append, List.length_append] at hone
    omega
  cases todo with
  | nil =>
    have hnone : p ++ chunk = [] := List.prefix_nil.mp hbytes
    have hpending : parseRequest c.context (c.buffer ++ chunk) = .pending {} [] := by
      rw [parseRequest, h.resumes.run_eq, hnone]
      exact Scanner.run_starved rfl
    exact h.wait rfl hpending
  | cons next todo =>
    obtain ⟨w, request⟩ := next
    have haccepts : Accepts w request := haccepted (w, request) (by simp [h.requests_eq])
    obtain ⟨future, hfuture⟩ := hbytes
    rw [bytes, List.flatMap_cons] at hfuture
    by_cases hlen : w.length ≤ (p ++ chunk).length
    · obtain ⟨q, hq⟩ : w <+: p ++ chunk :=
        List.prefix_of_prefix_length_le (List.prefix_append _ _) ⟨future, hfuture⟩ hlen
      apply h.dispatch hq.symm haccepts
      rw [completed, if_pos hlen, ← hq, List.length_append, Nat.add_sub_cancel_left] at hcount
      exact List.length_eq_zero_iff.mp (by simpa using hcount)
    · obtain ⟨q, hq⟩ : p ++ chunk <+: w :=
        List.prefix_of_prefix_length_le ⟨future, hfuture⟩ (List.prefix_append _ _) (by omega)
      have hmore : q ≠ [] := by
        rintro rfl
        rw [List.append_nil] at hq
        rw [hq] at hlen
        exact hlen (le_refl _)
      have hwhole : parser.run {} ((p ++ chunk) ++ q) =
        .finished .gotAll ⟨.gotAll, request⟩ [] := by
        rw [hq]
        exact haccepts
      obtain ⟨context, rest, hpending⟩ := Scanner.pending_of_prefix hwhole hmore
      have hparse : parseRequest c.context (c.buffer ++ chunk) = .pending context rest := by
        rw [parseRequest, h.resumes.run_eq, hpending]
      exact h.wait (completed_cons_eq_nil_iff.mpr (by omega)) hparse

theorem following_run (s : HttpServer) {chunks : List Bytes}
    (haccepted : ∀ w ∈ requests, Accepts w.1 w.2) (hbytes : chunks.flatten = bytes requests)
    (hone : OneEndPerDelivery requests chunks) (delivered : List Bytes)
    (hdelivered : delivered <+: chunks) :
    ∃ c done todo p, s.onMessages {} delivered = some c ∧
      Following requests delivered.flatten c done todo p := by
  induction delivered using List.reverseRecOn with
  | nil =>
    have hnone : completed requests 0 = [] := by
      cases requests with
      | nil => rfl
      | cons w requests =>
        have hne : w.1 ≠ [] := fun h => accepts_ne_nil (h ▸ haccepted w (by simp))
        exact completed_cons_eq_nil_iff.mpr (List.length_pos_iff.mpr hne)
    exact ⟨{}, [], requests, [], rfl, rfl, rfl, hnone, Scanner.Resumes.start _ _, rfl⟩
  | append_singleton delivered chunk ih =>
    obtain ⟨c, done, todo, p, hrun, hfollowing⟩ :=
      ih ((List.prefix_append delivered [chunk]).trans hdelivered)
    have hflatten : (delivered ++ [chunk]).flatten = delivered.flatten ++ chunk := by simp
    have hreceived : delivered.flatten ++ chunk <+: bytes requests := by
      obtain ⟨later, hlater⟩ := hdelivered
      exact ⟨later.flatten, by rw [← hbytes, ← hlater, List.flatten_append, hflatten]⟩
    have hlast := hone delivered chunk hdelivered
    rw [hflatten] at hlast ⊢
    obtain ⟨c', done', todo', p', hstep, hnext⟩ :=
      hfollowing.step haccepted hreceived hlast (s := s)
    exact ⟨c', done', todo', p', by rw [onMessages_append, hrun, Option.bind_some, hstep], hnext⟩

/-- Every complete request is dispatched after each delivery exactly when no delivery brings the
last bytes of two of them. -/
theorem none_waiting_iff (s : HttpServer) (requests : Requests) (chunks : List Bytes)
    (haccepted : ∀ w ∈ requests, Accepts w.1 w.2) (hbytes : chunks.flatten = bytes requests) :
    NoneWaiting s requests chunks ↔ OneEndPerDelivery requests chunks := by
  constructor
  · intro h delivered chunk hdelivered
    obtain ⟨c, hrun, hc⟩ := h delivered ((List.prefix_append delivered [chunk]).trans hdelivered)
    obtain ⟨c', hrun', hc'⟩ := h (delivered ++ [chunk]) hdelivered
    rw [onMessages_append, hrun, Option.bind_some] at hrun'
    rw [← hc, ← hc']
    exact dispatches_onMessage hrun'
  · intro hone delivered hdelivered
    obtain ⟨c, done, todo, p, hrun, hfollowing⟩ :=
      following_run s haccepted hbytes hone delivered hdelivered
    exact ⟨c, hrun, by rw [hfollowing.dispatched, hfollowing.completed_eq]⟩

/-- Two requests in one delivery: the second stays in the buffer. -/
theorem second_request_waits : ¬ ∀ (s : HttpServer) (requests : Requests) (chunks : List Bytes),
    (∀ w ∈ requests, Accepts w.1 w.2) → chunks.flatten = bytes requests →
      NoneWaiting s requests chunks := by
  intro h
  let s : HttpServer := ⟨fun _ _ response => response, 0, id⟩
  let w := ascii "GET /b HTTP/1.1\r\n\r\n"
  obtain ⟨c, hrun, hc⟩ := h s [(w, demoGet), (w, demoGet)] [w ++ w]
    (by simpa using accepts_demoGet) (by decide) [w ++ w] (List.prefix_refl _)
  have hparse : parseRequest {} (w ++ w) = .finished .gotAll ⟨.gotAll, demoGet⟩ w :=
    Scanner.finished_append w accepts_demoGet
  simp only [HttpServer.onMessages, HttpServer.onMessage, List.nil_append, hparse,
    Option.bind_some, Option.some.injEq] at hrun
  subst hrun
  have hcount := congrArg List.length hc
  revert hcount
  decide

/-- One request cut in two, the next one alone. -/
theorem none_waiting_demo : NoneWaiting ⟨fun _ _ response => response, 0, id⟩
    [(ascii "GET /b HTTP/1.1\r\n\r\n", demoGet), (ascii "GET /b HTTP/1.1\r\n\r\n", demoGet)]
    [ascii "GET /b HTTP/1.1\r", ascii "\n\r\n", ascii "GET /b HTTP/1.1\r\n\r\n"] := by
  apply (none_waiting_iff _ _ _ (by simpa using accepts_demoGet) (by decide)).mpr
  intro delivered chunk hdelivered
  rcases delivered with _ | ⟨first, _ | ⟨second, _ | ⟨third, delivered⟩⟩⟩ <;>
    simp only [List.nil_append, List.cons_append, List.cons_prefix_cons,
      List.prefix_nil] at hdelivered
  · obtain ⟨rfl, -⟩ := hdelivered
    decide
  · obtain ⟨rfl, rfl, -⟩ := hdelivered
    decide
  · obtain ⟨rfl, rfl, rfl, -⟩ := hdelivered
    decide
  · simp at hdelivered

end RequestDispatch
