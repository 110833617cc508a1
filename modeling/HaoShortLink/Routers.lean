import HaoShortLink.HttpRequests

/-! Router.cpp: routes by exact path, and routes by patterns with parameters. Handler objects are
not registered by this program and left out. -/
namespace Routers

open Cpp HttpRequests

inductive Segment where
  | literal (text : Bytes)
  | parameter
  deriving DecidableEq, Repr

/-- The patterns used hold no character that a regular expression gives a meaning. -/
def convertToRegex (pathPattern : Bytes) : List Segment :=
  match pathPattern.splitOn 47 with
  | [] => []
  | first :: rest => .literal first :: rest.map fun
    | 58 :: _ :: _ => .parameter
    | text => .literal text

/-- What the parameters stand for when the whole path matches. -/
def matchSegments : List Segment → List Bytes → Option (List Bytes)
  | [], [] => some []
  | .literal text :: segments, part :: parts =>
    if text = part then matchSegments segments parts else none
  | .parameter :: segments, part :: parts =>
    if part = [] then none else (matchSegments segments parts).map (part :: ·)
  | _, _ => none

def regexMatch (pathPattern path : Bytes) : Option (List Bytes) :=
  matchSegments (convertToRegex pathPattern) (path.splitOn 47)

def parameterName (i : ℕ) : Bytes := ascii "param" ++ toDecimal i

def extractPathParameters (values : List Bytes) (request : HttpRequest) : HttpRequest :=
  (values.zipIdx 1).foldl (fun r v => r.setPathParameters (parameterName v.2) v.1) request

structure Route (H : Type) where
  method : Method
  path : Bytes
  handler : H

structure Router (H : Type) where
  callbacks : List (Route H)
  regexCallbacks : List (Route H)

/-- A handler that is found, with the pattern it was registered for. -/
structure Match (H : Type) where
  pattern : Bytes
  request : HttpRequest
  handler : H

namespace Router

variable {H : Type}

def empty : Router H := ⟨[], []⟩

/-- The latest registration of a key counts. -/
def registerCallback (router : Router H) (method : Method) (path : String) (handler : H) :
    Router H :=
  { router with callbacks := ⟨method, ascii path, handler⟩ :: router.callbacks }

def addRegexCallback (router : Router H) (method : Method) (path : String) (handler : H) :
    Router H :=
  { router with regexCallbacks := router.regexCallbacks ++ [⟨method, ascii path, handler⟩] }

def matchRoute (request : HttpRequest) (route : Route H) : Option (Match H) :=
  if route.method = request.method then
    (regexMatch route.path request.path).map fun values =>
      ⟨route.path, extractPathParameters values request, route.handler⟩
  else none

def route (router : Router H) (request : HttpRequest) : Option (Match H) :=
  match router.callbacks.find? fun r => r.method == request.method && r.path == request.path with
  | some found => some ⟨found.path, request, found.handler⟩
  | none => router.regexCallbacks.findSome? (matchRoute request)

def Every (P : Route H → Prop) (router : Router H) : Prop :=
  (∀ r ∈ router.callbacks, P r) ∧ ∀ r ∈ router.regexCallbacks, P r

section

variable {P : Route H → Prop} {router : Router H} {method : Method} {path : String} {handler : H}

theorem every_empty : (empty : Router H).Every P :=
  ⟨fun _ h => absurd h List.not_mem_nil, fun _ h => absurd h List.not_mem_nil⟩

theorem Every.registerCallback (hrouter : router.Every P) (h : P ⟨method, ascii path, handler⟩) :
    (router.registerCallback method path handler).Every P := by
  refine ⟨?_, hrouter.2⟩
  intro r hmem
  rcases List.mem_cons.mp hmem with rfl | hmem
  · exact h
  · exact hrouter.1 r hmem

theorem Every.addRegexCallback (hrouter : router.Every P) (h : P ⟨method, ascii path, handler⟩) :
    (router.addRegexCallback method path handler).Every P := by
  refine ⟨hrouter.1, ?_⟩
  intro r hmem
  rcases List.mem_append.mp hmem with hmem | hmem
  · exact hrouter.2 r hmem
  · obtain rfl := List.mem_singleton.mp hmem
    exact h

end

inductive Answers (router : Router H) (request : HttpRequest) : Match H → Prop where
  | exact {r} : r ∈ router.callbacks → r.method = request.method → r.path = request.path →
      Answers router request ⟨r.path, request, r.handler⟩
  | pattern {r values} : r ∈ router.regexCallbacks → r.method = request.method →
      regexMatch r.path request.path = some values →
      Answers router request ⟨r.path, extractPathParameters values request, r.handler⟩

theorem route_answers {router : Router H} {request : HttpRequest} {m : Match H}
    (h : router.route request = some m) : Answers router request m := by
  unfold route at h
  split at h
  · next r hfind =>
    cases h
    have hr := List.find?_some hfind
    simp only [Bool.and_eq_true, beq_iff_eq] at hr
    exact .exact (List.mem_of_find?_eq_some hfind) hr.1 hr.2
  · obtain ⟨r, hmem, hr⟩ := List.exists_of_findSome?_eq_some h
    unfold matchRoute at hr
    split at hr
    · next hmethod =>
      obtain ⟨values, hvalues, rfl⟩ := Option.map_eq_some_iff.mp hr
      exact .pattern hmem hmethod hvalues
    · cases hr

end Router

theorem extractPathParameters_rest (values : List Bytes) (request : HttpRequest) :
    ∃ parameters, extractPathParameters values request =
      { request with pathParameters := parameters } := by
  unfold extractPathParameters
  induction values.zipIdx 1 generalizing request with
  | nil => exact ⟨request.pathParameters, rfl⟩
  | cons v values ih =>
    obtain ⟨parameters, h⟩ := ih (request.setPathParameters (parameterName v.2) v.1)
    exact ⟨parameters, h⟩

theorem extractPathParameters_single (value : Bytes) (request : HttpRequest) :
    extractPathParameters [value] request =
      request.setPathParameters (ascii "param1") value := by
  have hname : parameterName 1 = ascii "param1" := by decide
  rw [← hname]
  rfl

def IsSegment (part : Bytes) : Prop := part ≠ [] ∧ (47 : UInt8) ∉ part

instance (part : Bytes) : Decidable (IsSegment part) := inferInstanceAs (Decidable (_ ∧ _))

theorem matchSegments_parameter (tail : Bytes) : matchSegments [.parameter] (tail.splitOn 47) =
    if IsSegment tail then some [tail] else none := by
  by_cases hslash : (47 : UInt8) ∈ tail
  · obtain ⟨first, rest, rfl, hfirst⟩ := List.eq_append_cons_of_mem hslash
    rw [List.splitOn_append_cons_self_of_not_mem hfirst, if_neg fun h => h.2 hslash]
    cases hrest : rest.splitOn 47 with
    | nil => exact absurd hrest (List.splitOn_ne_nil _ _)
    | cons part parts => simp [matchSegments]
  · rw [List.splitOn_eq_singleton hslash]
    by_cases hempty : tail = []
    · simp [matchSegments, IsSegment, hempty]
    · simp [matchSegments, IsSegment, hempty, hslash]

end Routers
