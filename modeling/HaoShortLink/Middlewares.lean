import HaoShortLink.HttpResponses
import HaoShortLink.RouteTables

/-! MiddlewareChain and HttpServer::handleRequest with middlewares that may throw: which of them
see the response. -/
namespace Middlewares

open Cpp Actions HttpRequests HttpResponses
open RouteTables (Router)

inductive Thrown where
  | response (res : HttpResponse)
  /-- A std::exception. -/
  | exception
  deriving DecidableEq

/-- W is all that middlewares and handlers keep between them. -/
structure Middleware (W : Type) where
  before : Action (W × HttpRequest) Thrown Unit
  after : Action (W × HttpResponse) Thrown Unit

/-- What is observed of the middlewares, by their places in the chain. -/
inductive Call where
  /-- before has returned. -/
  | before (i : ℕ)
  /-- after is called. -/
  | after (i : ℕ)
  deriving DecidableEq, Repr

structure Exchange (W : Type) where
  world : W
  mutableReq : HttpRequest := {}
  response : HttpResponse := {}
  routePattern : Bytes := []
  calls : List Call := []

structure HttpServer (W : Type) where
  middlewares : List (Middleware W)
  router : Router (Router.Handle (W × HttpResponse) Thrown)

variable {W : Type}

def onRequest {α : Type} (x : Action (W × HttpRequest) Thrown α) :
    Action (Exchange W) Thrown α where
  run e :=
    let (result, world, mutableReq) := x.run (e.world, e.mutableReq)
    (result, { e with world := world, mutableReq := mutableReq })

def onResponse {α : Type} (x : Action (W × HttpResponse) Thrown α) :
    Action (Exchange W) Thrown α where
  run e :=
    let (result, world, response) := x.run (e.world, e.response)
    (result, { e with world := world, response := response })

def onRoute {α : Type} (x : HttpRequest → Action ((W × HttpResponse) × Bytes) Thrown α) :
    Action (Exchange W) Thrown α where
  run e :=
    let (result, (world, response), routePattern) :=
      (x e.mutableReq).run ((e.world, e.response), e.routePattern)
    (result, { e with world := world, response := response, routePattern := routePattern })

def observe (call : Call) : Action (Exchange W) Thrown Unit :=
  Action.modify fun e => { e with calls := e.calls ++ [call] }

def processBefore : List (Middleware W × ℕ) → Action (Exchange W) Thrown Unit
  | [] => pure ()
  | (middleware, i) :: chain => do
    onRequest middleware.before
    observe (.before i)
    processBefore chain

def callAfter : List (Middleware W × ℕ) → Action (Exchange W) Thrown Unit
  | [] => pure ()
  | (middleware, i) :: chain => do
    observe (.after i)
    onResponse middleware.after
    callAfter chain

/-- A std::exception is logged and ends the loop. -/
def processAfter (chain : List (Middleware W × ℕ)) : Action (Exchange W) Thrown Unit :=
  tryCatch (callAfter chain.reverse) fun
    | .exception => pure ()
    | .response res => throw (.response res)

def notFound (e : Exchange W) : Exchange W :=
  { e with
    routePattern := ascii "unmatched"
    response := { e.response.setErrorResponse 404 (ascii "not_found") (ascii "Not Found") with
      closeConnection := true } }

/-- The part of the try block before the after phase. -/
def forward (s : HttpServer W) (req : HttpRequest) : Action (Exchange W) Thrown Unit := do
  Action.modify fun e => { e with mutableReq := req, routePattern := [] }
  processBefore s.middlewares.zipIdx
  if !(← onRoute s.router.route) then
    Action.modify notFound

def catchThrown : Thrown → Action (Exchange W) Thrown Unit
  | .response res => Action.modify fun e =>
    { e with
      response := res
      routePattern := if e.routePattern = [] then ascii "middleware" else e.routePattern }
  | .exception => Action.modify fun e =>
    { e with
      response := e.response.setErrorResponse 500 (ascii "internal_server_error")
        (ascii "Internal Server Error") }

def setRoutePattern (e : Exchange W) : Exchange W :=
  let routePattern := if e.routePattern = [] then ascii "unmatched" else e.routePattern
  { e with
    routePattern := routePattern
    response := { e.response with routePattern := routePattern } }

def handleRequest (s : HttpServer W) (req : HttpRequest) : Action (Exchange W) Thrown Unit := do
  tryCatch
    (do
      forward s req
      processAfter s.middlewares.zipIdx)
    catchThrown
  Action.modify setRoutePattern

theorem onRequest_calls {α : Type} (x : Action (W × HttpRequest) Thrown α) :
    Keeps Exchange.calls (onRequest x) := fun _ => rfl

theorem onResponse_calls {α : Type} (x : Action (W × HttpResponse) Thrown α) :
    Keeps Exchange.calls (onResponse x) := fun _ => rfl

theorem onRoute_calls {α : Type} (x : HttpRequest → Action ((W × HttpResponse) × Bytes) Thrown α) :
    Keeps Exchange.calls (onRoute x) := fun _ => rfl

def beforeCall (m : Middleware W × ℕ) : Call := .before m.2
def afterCall (m : Middleware W × ℕ) : Call := .after m.2

theorem processBefore_calls (chain : List (Middleware W × ℕ)) (e : Exchange W) :
    ∃ k ≤ chain.length, ((processBefore chain).run e).2.calls =
        e.calls ++ (chain.take k).map beforeCall ∧
      (((processBefore chain).run e).1 = .ok () → k = chain.length) := by
  induction chain generalizing e with
  | nil => exact ⟨0, Nat.le_refl 0, by simp [processBefore], fun _ => rfl⟩
  | cons m chain ih =>
    have hkept := onRequest_calls m.1.before e
    rw [processBefore, Action.run_bind]
    rcases hrun : (onRequest m.1.before).run e with ⟨t | _, e₁⟩
    · rw [KeepsAt, hrun] at hkept
      exact ⟨0, Nat.zero_le _, by simpa using hkept, nofun⟩
    · rw [KeepsAt, hrun] at hkept
      have hsame : e₁.calls = e.calls := hkept
      obtain ⟨k, hk, hcalls, hall⟩ := ih ((observe (.before m.2)).run e₁).2
      refine ⟨k + 1, by simpa using hk, ?_, fun h => by simpa using hall h⟩
      refine hcalls.trans ?_
      simp [observe, Action.modify, hsame, beforeCall]

theorem callAfter_cons (m : Middleware W × ℕ) (chain : List (Middleware W × ℕ))
    (e : Exchange W) : (callAfter (m :: chain)).run e =
      (onResponse m.1.after >>= fun _ => callAfter chain).run
        ((observe (.after m.2)).run e).2 := rfl

theorem callAfter_append {front : List (Middleware W × ℕ)} {e e' : Exchange W}
    (h : (callAfter front).run e = (.ok (), e')) (back : List (Middleware W × ℕ)) :
    (callAfter (front ++ back)).run e = (callAfter back).run e' := by
  induction front generalizing e with
  | nil =>
    obtain ⟨-, rfl⟩ := Prod.mk.inj h
    rfl
  | cons m front ih =>
    rw [callAfter_cons] at h
    rw [List.cons_append, callAfter_cons]
    rcases hafter : (onResponse m.1.after).run ((observe (.after m.2)).run e).2 with ⟨t | _, e₁⟩
    · rw [Action.run_bind_error hafter] at h
      cases h
    · rw [Action.run_bind_ok hafter] at h ⊢
      exact ih h

theorem callAfter_cases (chain : List (Middleware W × ℕ)) (e : Exchange W) :
    (∃ e', (callAfter chain).run e = (.ok (), e') ∧ e'.calls = e.calls ++ chain.map afterCall) ∨
    ∃ done m rest e₁ t e', chain = done ++ m :: rest ∧ (callAfter done).run e = (.ok (), e₁) ∧
      (callAfter [m]).run e₁ = (.error t, e') ∧ (callAfter chain).run e = (.error t, e') ∧
      e'.calls = e.calls ++ (done ++ [m]).map afterCall := by
  induction chain generalizing e with
  | nil => exact .inl ⟨e, rfl, by simp⟩
  | cons m chain ih =>
    have hkept := onResponse_calls m.1.after ((observe (.after m.2)).run e).2
    rcases hafter : (onResponse m.1.after).run ((observe (.after m.2)).run e).2 with ⟨t | _, e₁⟩
    · right
      rw [KeepsAt, hafter] at hkept
      refine ⟨[], m, chain, e, t, e₁, rfl, rfl, ?_, ?_, ?_⟩
      · rw [callAfter_cons, Action.run_bind_error hafter]
      · rw [callAfter_cons, Action.run_bind_error hafter]
      · simpa [observe, Action.modify, afterCall] using hkept
    · rw [KeepsAt, hafter] at hkept
      have hcalls : e₁.calls = e.calls ++ [afterCall m] := by
        simpa [observe, Action.modify, afterCall] using hkept
      rcases ih e₁ with ⟨e', hrest, hall⟩ |
        ⟨done, m', rest, e₂, t, e', hchain, hdone, hthrown, hrest, hall⟩
      · left
        refine ⟨e', ?_, by simp [hall, hcalls]⟩
        rw [callAfter_cons, Action.run_bind_ok hafter, hrest]
      · right
        refine ⟨m :: done, m', rest, e₂, t, e', by rw [hchain, List.cons_append], ?_, hthrown,
          ?_, by simp [hall, hcalls]⟩
        · rw [callAfter_cons, Action.run_bind_ok hafter, hdone]
        · rw [callAfter_cons, Action.run_bind_ok hafter, hrest]

variable {s : HttpServer W} {req : HttpRequest} {e e₁ : Exchange W}

theorem forward_calls (s : HttpServer W) (req : HttpRequest) (e : Exchange W) :
    ∃ k ≤ s.middlewares.length, ((forward s req).run e).2.calls =
        e.calls ++ (s.middlewares.zipIdx.take k).map beforeCall ∧
      (((forward s req).run e).1 = .ok () → k = s.middlewares.length) := by
  obtain ⟨k, hk, hcalls, hall⟩ := processBefore_calls s.middlewares.zipIdx
    { e with mutableReq := req, routePattern := [] }
  have hrest : Keeps Exchange.calls (onRoute s.router.route >>= fun found =>
      if !found then Action.modify notFound else (pure () : Action (Exchange W) Thrown Unit)) := by
    refine keeps_bind (onRoute_calls _) ?_
    intro found
    cases found
    · exact keeps_modify fun _ => rfl
    · exact keeps_pure ()
  have hrun : (forward s req).run e = (processBefore s.middlewares.zipIdx >>= fun _ =>
      onRoute s.router.route >>= fun found =>
        if !found then Action.modify notFound else pure ()).run
          { e with mutableReq := req, routePattern := [] } := rfl
  rw [List.length_zipIdx] at hk hall
  refine ⟨k, hk, ?_⟩
  rcases hbefore : (processBefore s.middlewares.zipIdx).run
      { e with mutableReq := req, routePattern := [] } with ⟨t | _, e'⟩
  · rw [hbefore] at hcalls
    rw [hrun, Action.run_bind_error hbefore]
    exact ⟨hcalls, nofun⟩
  · rw [hbefore] at hcalls hall
    rw [hrun, Action.run_bind_ok hbefore]
    exact ⟨(hrest e').trans hcalls, fun _ => hall rfl⟩

theorem handleRequest_forward (h : (forward s req).run e = (.ok (), e₁)) :
    (handleRequest s req).run e =
      (tryCatch (processAfter s.middlewares.zipIdx) catchThrown >>= fun _ =>
        Action.modify setRoutePattern).run e₁ := by
  rw [handleRequest, Action.run_bind, Action.run_bind, Action.run_tryCatch, Action.run_bind_ok h,
    Action.run_tryCatch]

theorem catchThrown_calls (t : Thrown) : Keeps Exchange.calls (catchThrown (W := W) t) := by
  cases t with
  | response res => exact keeps_modify fun _ => rfl
  | exception => exact keeps_modify fun _ => rfl

theorem handleRequest_after_ok (h : (forward s req).run e = (.ok (), e₁)) {e₂ : Exchange W}
    (hafter : (callAfter s.middlewares.zipIdx.reverse).run e₁ = (.ok (), e₂)) :
    ((handleRequest s req).run e).2 = setRoutePattern e₂ := by
  have hrun : (processAfter s.middlewares.zipIdx).run e₁ = (.ok (), e₂) := by
    rw [processAfter, Action.run_tryCatch_ok hafter]
  rw [handleRequest_forward h, Action.run_bind_ok (Action.run_tryCatch_ok hrun _)]
  rfl

/-- A response that an after throws replaces the one so far. -/
def catchAfter : Thrown → Exchange W → Exchange W
  | .exception, e => e
  | .response res, e => ((catchThrown (.response res)).run e).2

theorem handleRequest_after_error (h : (forward s req).run e = (.ok (), e₁)) {t : Thrown}
    {e₂ : Exchange W}
    (hafter : (callAfter s.middlewares.zipIdx.reverse).run e₁ = (.error t, e₂)) :
    ((handleRequest s req).run e).2 = setRoutePattern (catchAfter t e₂) := by
  rw [handleRequest_forward h, processAfter, Action.run_bind, Action.run_tryCatch,
    Action.run_tryCatch_error hafter]
  cases t with
  | exception => rfl
  | response res => rfl

theorem handleRequest_thrown {t : Thrown} (h : (forward s req).run e = (.error t, e₁)) :
    ((handleRequest s req).run e).2 = setRoutePattern ((catchThrown t).run e₁).2 := by
  have hcaught : (tryCatch (forward s req >>= fun _ => processAfter s.middlewares.zipIdx)
      catchThrown).run e = (catchThrown t).run e₁ :=
    Action.run_tryCatch_error (Action.run_bind_error h _) catchThrown
  rw [handleRequest, Action.run_bind, hcaught]
  cases t with
  | exception => rfl
  | response res => rfl

theorem map_beforeCall (middlewares : List (Middleware W)) :
    middlewares.zipIdx.map beforeCall = (List.range middlewares.length).map .before := by
  have hplaces : middlewares.zipIdx.map Prod.snd = List.range middlewares.length := by
    rw [List.zipIdx_map_snd, List.range_eq_range']
  rw [← hplaces, List.map_map]
  exact List.map_congr_left fun m _ => by rw [beforeCall, Function.comp_apply]

theorem map_afterCall (middlewares : List (Middleware W)) :
    middlewares.zipIdx.reverse.map afterCall =
      (List.range middlewares.length).reverse.map .after := by
  have hplaces : middlewares.zipIdx.map Prod.snd = List.range middlewares.length := by
    rw [List.zipIdx_map_snd, List.range_eq_range']
  rw [← hplaces, ← List.map_reverse, List.map_map]
  exact List.map_congr_left fun m _ => by rw [afterCall, Function.comp_apply]

theorem forward_places (s : HttpServer W) (req : HttpRequest) (world : W)
    (response : HttpResponse) :
    ∃ m ≤ s.middlewares.length,
      ((forward s req).run { world := world, response := response }).2.calls =
        (List.range m).map .before ∧
      (((forward s req).run { world := world, response := response }).1 = .ok () →
        m = s.middlewares.length) := by
  obtain ⟨m, hm, hcalls, hall⟩ := forward_calls s req { world := world, response := response }
  refine ⟨m, hm, ?_, hall⟩
  rw [hcalls, List.map_take, map_beforeCall, ← List.map_take, List.take_range, List.nil_append,
    Nat.min_eq_left hm]

/-- When before or the handler throws, no after is called and what was thrown answers. When
nothing throws, every after runs once, in reverse order, on the response that is sent. An after
that throws is the last one called. -/
theorem handleRequest_middlewares (s : HttpServer W) (req : HttpRequest) (world : W)
    (response : HttpResponse) :
    let n := s.middlewares.length
    let start : Exchange W := { world := world, response := response }
    let final := ((handleRequest s req).run start).2
    match (forward s req).run start with
    | (.error t, e₁) =>
      (∃ m ≤ n, final.calls = (List.range m).map .before) ∧
      final.response = match t with
        | .response res => { res with routePattern := final.routePattern }
        | .exception =>
          { e₁.response.setErrorResponse 500 (ascii "internal_server_error")
              (ascii "Internal Server Error") with routePattern := final.routePattern }
    | (.ok _, e₁) =>
      match (callAfter s.middlewares.zipIdx.reverse).run e₁ with
      | (.ok _, e₂) =>
        final.calls = (List.range n).map .before ++ (List.range n).reverse.map .after ∧
        final.response = { e₂.response with routePattern := final.routePattern }
      | (.error t, e₂) =>
        ∃ k < n, final.calls =
            (List.range n).map .before ++ ((List.range n).reverse.take (k + 1)).map .after ∧
          ∃ e₃, (callAfter (s.middlewares.zipIdx.reverse.take k)).run e₁ = (.ok (), e₃) ∧
          (∃ m, s.middlewares.zipIdx.reverse[k]? = some m ∧
            (callAfter [m]).run e₃ = (.error t, e₂)) ∧
          final.response = match t with
            | .response res => { res with routePattern := final.routePattern }
            | .exception => { e₂.response with routePattern := final.routePattern } := by
  intro n start final
  obtain ⟨m, hm, hcalls, hall⟩ := forward_places s req world response
  rcases hforward : (forward s req).run start with ⟨t | _, e₁⟩
  · rw [hforward] at hcalls
    have hfinal : final = setRoutePattern ((catchThrown t).run e₁).2 :=
      handleRequest_thrown hforward
    refine ⟨⟨m, hm, ?_⟩, ?_⟩
    · rw [hfinal, ← hcalls]
      exact catchThrown_calls t e₁
    · rw [hfinal]
      cases t with
      | response res => rfl
      | exception => rfl
  · rw [hforward] at hcalls hall
    obtain rfl : m = n := hall rfl
    rcases callAfter_cases s.middlewares.zipIdx.reverse e₁ with ⟨e₂, hafter, hafters⟩ |
      ⟨done, last, rest, e₃, t, e₂, hchain, hdone, hlast, hafter, hafters⟩
    · have hfinal : final = setRoutePattern e₂ := handleRequest_after_ok hforward hafter
      simp only [hafter]
      refine ⟨?_, ?_⟩
      · rw [hfinal, ← hcalls, ← map_afterCall]
        exact hafters
      · rw [hfinal, setRoutePattern]
    · have hfinal : final = setRoutePattern (catchAfter t e₂) :=
        handleRequest_after_error hforward hafter
      have hdone' : s.middlewares.zipIdx.reverse.take done.length = done := by
        rw [hchain, List.take_left]
      have hplace : s.middlewares.zipIdx.reverse[done.length]? = some last := by
        rw [hchain, List.getElem?_append_right (Nat.le_refl _), Nat.sub_self,
          List.getElem?_cons_zero]
      have hshort : done.length < n := by
        have hlength := congrArg List.length hchain
        simp only [List.length_reverse, List.length_zipIdx, List.length_append,
          List.length_cons] at hlength
        omega
      have hcalled : e₂.calls = (List.range n).map .before ++
          ((List.range n).reverse.take (done.length + 1)).map .after := by
        have htaken : (done ++ last :: rest).take (done.length + 1) = done ++ [last] := by
          rw [List.take_length_add_append, List.take_succ_cons, List.take_zero]
        rw [List.map_take, ← map_afterCall, ← List.map_take, hchain, htaken, hafters, ← hcalls]
      simp only [hafter]
      refine ⟨done.length, hshort, ?_, e₃, by rw [hdone', hdone], ⟨last, hplace, hlast⟩, ?_⟩
      · rw [hfinal, ← hcalled]
        cases t with
        | exception => rfl
        | response res => rfl
      · rw [hfinal]
        cases t with
        | exception => rfl
        | response res => rfl

def stoppedBy (t : Thrown) : HttpServer Unit :=
  { middlewares := [⟨pure (), pure ()⟩, ⟨throw t, pure ()⟩]
    router := { handlers := ∅, callbacks := ∅, regexHandlers := [], regexCallbacks := [] } }

/-- before has returned for the first one, whose after is never called. -/
theorem handleRequest_unbalanced :
    let stopped (t : Thrown) := ((handleRequest (stoppedBy t) {}).run { world := () }).2.calls
    (Call.before 0 ∈ stopped (.response {}) ∧ Call.after 0 ∉ stopped (.response {})) ∧
      Call.before 0 ∈ stopped .exception ∧ Call.after 0 ∉ stopped .exception := by
  decide

end Middlewares
