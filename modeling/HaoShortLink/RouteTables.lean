import HaoShortLink.Actions
import HaoShortLink.Decimals
import HaoShortLink.RoutePatterns
import Mathlib.Data.List.AList

/-! Router with its four tables: which handler a request goes to. -/
namespace RouteTables

open Cpp Actions HttpRequests Regexes
open RoutePatterns (Fits valuesOf)
open Routers (Match extractPathParameters regexMatch parameterName)

structure RouteKey where
  method : Method
  path : Bytes
  deriving DecidableEq, Repr

/-- RouteCallbackObj and RouteHandlerObj. -/
structure RegexRoute (H : Type) where
  method : Method
  pathPattern : Bytes
  pathRegex : Expression
  handler : H

/-- Handler objects and callbacks, by path and by pattern. -/
structure Router (H : Type) where
  handlers : AList fun _ : RouteKey => H
  callbacks : AList fun _ : RouteKey => H
  regexHandlers : List (RegexRoute H)
  regexCallbacks : List (RegexRoute H)

inductive Registration (H : Type) where
  | handler (key : RouteKey) (handler : H)
  | callback (key : RouteKey) (callback : H)
  | regexHandler (method : Method) (path : Bytes) (handler : H)
  | regexCallback (method : Method) (path : Bytes) (callback : H)

namespace Router

variable {H : Type}

def empty : Router H := ⟨∅, ∅, [], []⟩

def registerHandler (key : RouteKey) (handler : H) (router : Router H) : Router H :=
  { router with handlers := router.handlers.insert key handler }

def registerCallback (key : RouteKey) (callback : H) (router : Router H) : Router H :=
  { router with callbacks := router.callbacks.insert key callback }

def addRegexHandler (method : Method) (path : Bytes) (handler : H) (router : Router H) :
    Option (Router H) :=
  (RoutePatterns.convertToRegex path).map fun pathRegex =>
    { router with
      regexHandlers := router.regexHandlers ++ [⟨method, path, pathRegex, handler⟩] }

def addRegexCallback (method : Method) (path : Bytes) (callback : H) (router : Router H) :
    Option (Router H) :=
  (RoutePatterns.convertToRegex path).map fun pathRegex =>
    { router with
      regexCallbacks := router.regexCallbacks ++ [⟨method, path, pathRegex, callback⟩] }

def register (router : Router H) : Registration H → Option (Router H)
  | .handler key handler => some (router.registerHandler key handler)
  | .callback key callback => some (router.registerCallback key callback)
  | .regexHandler method path handler => router.addRegexHandler method path handler
  | .regexCallback method path callback => router.addRegexCallback method path callback

/-- A route by pattern that answers the request, with the texts of its groups. -/
def regexRoute (req : HttpRequest) (route : RegexRoute H) : Option (Match H) :=
  if route.method = req.method then
    (route.pathRegex.matchAll req.path).map fun values =>
      ⟨route.pathPattern, extractPathParameters values req, route.handler⟩
  else none

section

variable {σ ε : Type}

/-- What a handler object or a callback does to the response and all else that there is. -/
abbrev Handle (σ ε : Type) := HttpRequest → Action σ ε Unit

/-- matchedRoute is set before the handler runs. -/
def invoke (m : Match (Handle σ ε)) : Action (σ × Bytes) ε Bool where
  run s :=
    match (m.handler m.request).run s.1 with
    | (.ok (), s') => (.ok true, s', m.pattern)
    | (.error e, s') => (.error e, s', m.pattern)

def route (router : Router (Handle σ ε)) (req : HttpRequest) : Action (σ × Bytes) ε Bool :=
  let key : RouteKey := ⟨req.method, req.path⟩
  match router.handlers.lookup key with
  | some handler => invoke ⟨key.path, req, handler⟩
  | none =>
    match router.callbacks.lookup key with
    | some callback => invoke ⟨key.path, req, callback⟩
    | none =>
      match router.regexHandlers.findSome? (regexRoute req) with
      | some m => invoke m
      | none =>
        match router.regexCallbacks.findSome? (regexRoute req) with
        | some m => invoke m
        | none => pure false

end

end Router

section

variable {H : Type}

def patternMatch (method : Method) (path : Bytes) (handler : H) (req : HttpRequest) :
    Option (Match H) :=
  if method = req.method then
    (regexMatch path req.path).map fun values => ⟨path, extractPathParameters values req, handler⟩
  else none

namespace Registration

def handlerFor (key : RouteKey) : Registration H → Option H
  | .handler k h => if k = key then some h else none
  | _ => none

def callbackFor (key : RouteKey) : Registration H → Option H
  | .callback k h => if k = key then some h else none
  | _ => none

def regexHandlerFor (req : HttpRequest) : Registration H → Option (Match H)
  | .regexHandler method path h => patternMatch method path h req
  | _ => none

def regexCallbackFor (req : HttpRequest) : Registration H → Option (Match H)
  | .regexCallback method path h => patternMatch method path h req
  | _ => none

/-- The pattern, if there is one, has no character with a meaning in regular expressions. -/
def Plain : Registration H → Prop
  | .regexHandler _ path _ | .regexCallback _ path _ => RoutePatterns.Plain path
  | .handler _ _ | .callback _ _ => True

instance : DecidablePred (Plain (H := H)) := fun r =>
  match r with
  | .regexHandler _ path _ | .regexCallback _ path _ =>
    inferInstanceAs (Decidable (RoutePatterns.Plain path))
  | .handler _ _ | .callback _ _ => inferInstanceAs (Decidable True)

end Registration

/-- Exact paths come before patterns and handler objects before callbacks. Of an exact path the
last registration counts, of the patterns that match the first. -/
def choose (registrations : List (Registration H)) (req : HttpRequest) : Option (Match H) :=
  let key : RouteKey := ⟨req.method, req.path⟩
  ((registrations.reverse.findSome? (Registration.handlerFor key)).map fun handler =>
      ⟨req.path, req, handler⟩)
    <|> ((registrations.reverse.findSome? (Registration.callbackFor key)).map fun callback =>
      ⟨req.path, req, callback⟩)
    <|> registrations.findSome? (Registration.regexHandlerFor req)
    <|> registrations.findSome? (Registration.regexCallbackFor req)

/-- The tables say what the registrations say. -/
structure Holds (router : Router H) (registrations : List (Registration H)) : Prop where
  handlers : ∀ key, router.handlers.lookup key =
    registrations.reverse.findSome? (Registration.handlerFor key)
  callbacks : ∀ key, router.callbacks.lookup key =
    registrations.reverse.findSome? (Registration.callbackFor key)
  regexHandlers : ∀ req, router.regexHandlers.findSome? (Router.regexRoute req) =
    registrations.findSome? (Registration.regexHandlerFor req)
  regexCallbacks : ∀ req, router.regexCallbacks.findSome? (Router.regexRoute req) =
    registrations.findSome? (Registration.regexCallbackFor req)

theorem holds_empty : Holds (Router.empty : Router H) [] :=
  ⟨fun _ => rfl, fun _ => rfl, fun _ => rfl, fun _ => rfl⟩

theorem lookup_insert (table : AList fun _ : RouteKey => H) (k key : RouteKey) (h : H) :
    (table.insert k h).lookup key = (if k = key then some h else none).or (table.lookup key) := by
  by_cases heq : k = key
  · simp [heq]
  · rw [AList.lookup_insert_ne (Ne.symm heq), if_neg heq, Option.none_or]

theorem regexRoute_plain {e : Expression} {path : Bytes}
    (he : ∀ p, e.matchAll p = regexMatch path p) (method : Method) (handler : H)
    (req : HttpRequest) :
    Router.regexRoute req ⟨method, path, e, handler⟩ = patternMatch method path handler req := by
  simp only [Router.regexRoute, patternMatch, he]

theorem findSome?_latest {α β : Type} (f : α → Option β) (l : List α) (a : α) :
    (l ++ [a]).reverse.findSome? f = (f a).or (l.reverse.findSome? f) := by
  rw [List.reverse_append, List.reverse_singleton, List.singleton_append, List.findSome?_cons]
  cases f a <;> simp

theorem findSome?_snoc {α β : Type} (f : α → Option β) (l : List α) (a : α) :
    (l ++ [a]).findSome? f = (l.findSome? f).or (f a) := by
  rw [List.findSome?_append, List.findSome?_singleton]

theorem Holds.register {router : Router H} {registrations : List (Registration H)}
    (h : Holds router registrations) {r : Registration H} (hr : r.Plain) :
    ∃ router', router.register r = some router' ∧ Holds router' (registrations ++ [r]) := by
  obtain ⟨hhandlers, hcallbacks, hregexHandlers, hregexCallbacks⟩ := h
  cases r with
  | handler key h =>
    refine ⟨_, by rw [Router.register, Router.registerHandler], ?_, ?_, ?_, ?_⟩
    · intro key'
      rw [lookup_insert, hhandlers, findSome?_latest,
        Registration.handlerFor]
    · simpa only [findSome?_latest, Registration.callbackFor, Option.none_or] using hcallbacks
    · simpa only [findSome?_snoc, Registration.regexHandlerFor, Option.or_none] using hregexHandlers
    · simpa only [findSome?_snoc, Registration.regexCallbackFor, Option.or_none]
        using hregexCallbacks
  | callback key h =>
    refine ⟨_, by rw [Router.register, Router.registerCallback], ?_, ?_, ?_, ?_⟩
    · simpa only [findSome?_latest, Registration.handlerFor, Option.none_or] using hhandlers
    · intro key'
      rw [lookup_insert, hcallbacks, findSome?_latest,
        Registration.callbackFor]
    · simpa only [findSome?_snoc, Registration.regexHandlerFor, Option.or_none] using hregexHandlers
    · simpa only [findSome?_snoc, Registration.regexCallbackFor, Option.or_none]
        using hregexCallbacks
  | regexHandler method path h =>
    obtain ⟨e, hconvert, hmatch⟩ := RoutePatterns.matchAll_plain hr
    refine ⟨_, by rw [Router.register, Router.addRegexHandler, hconvert, Option.map_some], ?_, ?_,
      ?_, ?_⟩
    · simpa only [findSome?_latest, Registration.handlerFor, Option.none_or] using hhandlers
    · simpa only [findSome?_latest, Registration.callbackFor, Option.none_or] using hcallbacks
    · intro req
      rw [findSome?_snoc, findSome?_snoc, hregexHandlers, regexRoute_plain hmatch,
        Registration.regexHandlerFor]
    · simpa only [findSome?_snoc, Registration.regexCallbackFor, Option.or_none]
        using hregexCallbacks
  | regexCallback method path h =>
    obtain ⟨e, hconvert, hmatch⟩ := RoutePatterns.matchAll_plain hr
    refine ⟨_, by rw [Router.register, Router.addRegexCallback, hconvert, Option.map_some], ?_, ?_,
      ?_, ?_⟩
    · simpa only [findSome?_latest, Registration.handlerFor, Option.none_or] using hhandlers
    · simpa only [findSome?_latest, Registration.callbackFor, Option.none_or] using hcallbacks
    · simpa only [findSome?_snoc, Registration.regexHandlerFor, Option.or_none] using hregexHandlers
    · intro req
      rw [findSome?_snoc, findSome?_snoc, hregexCallbacks, regexRoute_plain hmatch,
        Registration.regexCallbackFor]

theorem build_holds {registrations : List (Registration H)} (h : ∀ r ∈ registrations, r.Plain) :
    ∃ router, registrations.foldlM Router.register Router.empty = some router ∧
      Holds router registrations := by
  induction registrations using List.reverseRecOn with
  | nil => exact ⟨_, rfl, holds_empty⟩
  | append_singleton registrations r ih =>
    obtain ⟨router, hbuild, hholds⟩ := ih fun r hr => h r (List.mem_append_left _ hr)
    obtain ⟨router', hregister, hholds'⟩ := hholds.register (h r (by simp))
    refine ⟨router', ?_, hholds'⟩
    rw [List.foldlM_append, hbuild]
    simpa using hregister

variable {σ ε : Type}

/-- The router calls the chosen handler alone, and nothing when there is none. -/
theorem route_run {router : Router (Router.Handle σ ε)}
    {registrations : List (Registration (Router.Handle σ ε))} (h : Holds router registrations)
    (req : HttpRequest) (s : σ × Bytes) : (router.route req).run s =
      match choose registrations req with
      | some m => (Router.invoke m).run s
      | none => (.ok false, s) := by
  simp only [Router.route, choose, h.handlers, h.callbacks, h.regexHandlers, h.regexCallbacks]
  cases registrations.reverse.findSome? (Registration.handlerFor ⟨req.method, req.path⟩) with
  | some handler => simp
  | none =>
    cases registrations.reverse.findSome? (Registration.callbackFor ⟨req.method, req.path⟩) with
    | some callback => simp
    | none =>
      cases registrations.findSome? (Registration.regexHandlerFor req) with
      | some m => simp
      | none => cases registrations.findSome? (Registration.regexCallbackFor req) <;> simp

theorem parameterName_injective {i j : ℕ} (h : parameterName i = parameterName j) : i = j :=
  Decimals.toDecimal_injective (List.append_cancel_left h)

theorem getPathParameters_extract (values : List Bytes) (req : HttpRequest) {i : ℕ}
    (h : i < values.length) :
    (extractPathParameters values req).getPathParameters (parameterName (i + 1)) = values[i] := by
  induction values using List.reverseRecOn with
  | nil => cases h
  | append_singleton values value ih =>
    have hlast : extractPathParameters (values ++ [value]) req =
        (extractPathParameters values req).setPathParameters
          (parameterName (values.length + 1)) value := by
      simp [extractPathParameters, List.zipIdx_append, Nat.add_comm]
    rw [hlast, HttpRequest.getPathParameters, HttpRequest.setPathParameters,
      OrderedMaps.OrderedMap.find?_insert]
    by_cases hi : i = values.length
    · simp [hi]
    · rw [List.length_append, List.length_singleton] at h
      have hlt : i < values.length := by omega
      have hne : parameterName (i + 1) ≠ parameterName (values.length + 1) := by
        intro heq
        have hsame := parameterName_injective heq
        omega
      rw [if_neg hne, List.getElem_append_left hlt]
      exact ih hlt

/-- The pattern answers the request: as many parts as segments, each fitting, and the parameters
are the parts that stand for them. -/
structure Answers {H : Type} (method : Method) (path : Bytes) (handler : H) (req : HttpRequest)
    (m : Match H) : Prop where
  method : method = req.method
  fits : List.Forall₂ Fits (Routers.convertToRegex path) (req.path.splitOn 47)
  pattern : m.pattern = path
  handler : m.handler = handler
  request : m.request =
    extractPathParameters (valuesOf (Routers.convertToRegex path) (req.path.splitOn 47)) req
  parameters : ∀ i (h : i < (valuesOf (Routers.convertToRegex path) (req.path.splitOn 47)).length),
    m.request.getPathParameters (parameterName (i + 1)) =
      (valuesOf (Routers.convertToRegex path) (req.path.splitOn 47))[i]

theorem patternMatch_eq_some_iff {H : Type} {method : Method} {path : Bytes} {handler : H}
    {req : HttpRequest} {m : Match H} :
    patternMatch method path handler req = some m ↔ Answers method path handler req m := by
  constructor
  · intro h
    unfold patternMatch at h
    split at h
    · next hmethod =>
      obtain ⟨values, hvalues, hm⟩ := Option.map_eq_some_iff.mp h
      obtain ⟨hfits, hvalues⟩ := RoutePatterns.regexMatch_eq_some_iff.mp hvalues
      rw [hvalues] at hm
      subst hm
      exact ⟨hmethod, hfits, rfl, rfl, rfl, fun i hi => getPathParameters_extract _ req hi⟩
    · cases h
  · intro h
    have hvalues := RoutePatterns.regexMatch_eq_some_iff.mpr ⟨h.fits, rfl⟩
    rw [patternMatch, if_pos h.method, hvalues, Option.map_some, ← h.request]
    obtain ⟨pattern, request, handler'⟩ := m
    rw [← h.pattern, ← h.handler]

/-- A router without special characters in its patterns calls one handler, the one that comes
first, with its pattern and parameters, or leaves all as it is. -/
theorem route_exact {registrations : List (Registration (Router.Handle σ ε))}
    (h : ∀ r ∈ registrations, r.Plain) :
    (∃ router, registrations.foldlM Router.register Router.empty = some router ∧
      ∀ req s, (router.route req).run s =
        match choose registrations req with
        | some m => (Router.invoke m).run s
        | none => (.ok false, s)) ∧
    ∀ method path handler req m,
      patternMatch (H := Router.Handle σ ε) method path handler req = some m ↔
        Answers method path handler req m := by
  obtain ⟨router, hbuild, hholds⟩ := build_holds h
  refine ⟨⟨router, hbuild, route_run hholds⟩, ?_⟩
  intro method path handler req m
  exact patternMatch_eq_some_iff

def demoHandle : Router.Handle Bytes Exception := fun req =>
  Action.modify fun body => body ++ req.getPathParameters (ascii "param2")

def demoRegistrations : List (Registration (Router.Handle Bytes Exception)) :=
  [.regexCallback .get (ascii "/users/:user/links/:code") demoHandle,
    .callback ⟨.get, ascii "/users"⟩ fun _ => pure ()]

theorem demoRegistrations_route : ∃ router,
    demoRegistrations.foldlM Router.register Router.empty = some router ∧
      (router.route { method := .get, path := ascii "/users/1/links/abc" }).run ([], []) =
        (.ok true, ascii "abc", ascii "/users/:user/links/:code") := by
  have hplain : ∀ r ∈ demoRegistrations, r.Plain := by decide
  obtain ⟨⟨router, hbuild, hrun⟩, _⟩ := route_exact hplain
  refine ⟨router, hbuild, (hrun _ _).trans ?_⟩
  rfl

def say (text : String) : Router.Handle Bytes Exception := fun _ =>
  Action.modify fun body => body ++ ascii text

def demoAgain : List (Registration (Router.Handle Bytes Exception)) :=
  [.callback ⟨.get, ascii "/users"⟩ (say "first"), .callback ⟨.get, ascii "/users"⟩ (say "second")]

def demoObject : List (Registration (Router.Handle Bytes Exception)) :=
  [.regexCallback .get (ascii "/:page") (say "first"),
    .regexHandler .get (ascii "/:name") (say "second")]

/-- The earlier registration does not come first: not of one exact path, and not of a callback
and a handler object whose patterns both match. -/
theorem earlier_not_first :
    (∃ router, demoAgain.foldlM Router.register Router.empty = some router ∧
      (router.route { method := .get, path := ascii "/users" }).run ([], []) =
        (.ok true, ascii "second", ascii "/users")) ∧
    ∃ router, demoObject.foldlM Router.register Router.empty = some router ∧
      (router.route { method := .get, path := ascii "/users" }).run ([], []) =
        (.ok true, ascii "second", ascii "/:name") := by
  have hagain : ∀ r ∈ demoAgain, r.Plain := by decide
  have hobject : ∀ r ∈ demoObject, r.Plain := by decide
  obtain ⟨again, hbuildAgain, hholdsAgain⟩ := build_holds hagain
  obtain ⟨object, hbuildObject, hholdsObject⟩ := build_holds hobject
  refine ⟨⟨again, hbuildAgain, (route_run hholdsAgain _ _).trans ?_⟩, object, hbuildObject,
    (route_run hholdsObject _ _).trans ?_⟩
  · rfl
  · rfl

end

end RouteTables
