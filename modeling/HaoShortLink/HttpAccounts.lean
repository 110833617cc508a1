import HaoShortLink.HttpScrapes
import HaoShortLink.Ledgers
import Mathlib.Data.UInt

/-! What the counters of the HTTP metrics come to: each record call posts to the counters of its own
route, and to no others. -/
namespace HttpAccounts

open Cpp Histories HttpMetrics HttpHistograms HttpScrapes Ledgers
open HttpRequests (Method)
open scoped UInt64.CommRing

def metricsOf (method : Method) (route : Bytes) : RouteMetrics := ⟨methodToString method, route⟩

theorem methodToString_newline (method : Method) : 10 ∉ methodToString method := by
  cases method <;> decide

theorem makeKey_injective {method method' : Method} {route route' : Bytes}
    (h : makeKey method route = makeKey method' route') :
    metricsOf method route = metricsOf method' route' := by
  have hmethod := congrArg (List.takeWhile (· != 10)) h
  simp only [makeKey, takeWhile_until (methodToString_newline _)] at hmethod
  rw [makeKey, makeKey, hmethod] at h
  rw [metricsOf, metricsOf, hmethod, (List.cons.inj (List.append_cancel_left h)).2]

def Registered (s : State) : Prop :=
  ∀ k m, s.routes.find? k = some m → ∃ method route, k = makeKey method route ∧
    m = metricsOf method route

theorem Registered.found {s : State} (h : Registered s) {method : Method} {route : Bytes}
    {m : RouteMetrics} (hfind : s.routes.find? (makeKey method route) = some m) :
    m = metricsOf method route := by
  obtain ⟨method', route', hkey, rfl⟩ := h _ m hfind
  exact (makeKey_injective hkey).symm

theorem Registered.insert {s : State} (h : Registered s) (method : Method) (route : Bytes) :
    Registered { s with
      routes := s.routes.insert (makeKey method route) (metricsOf method route) } := by
  intro k m hfind
  simp only [OrderedMaps.OrderedMap.find?_insert] at hfind
  split_ifs at hfind with hk
  · obtain rfl := Option.some.inj hfind
    exact ⟨method, route, hk, rfl⟩
  · exact h k m hfind

variable (toNanoseconds : Double → UInt64)

def countPosts (m : RouteMetrics) : List (Cell × UInt64) := [(.requestCount m, 1)]

def durationPosts (m : RouteMetrics) (o : Observation) : List (Cell × UInt64) :=
  (.durationNanoseconds m, toNanoseconds o.durationSeconds) :: countPosts m

def bucketPosts (m : RouteMetrics) (o : Observation) : List (Cell × UInt64) :=
  match bucketIndex o.durationSeconds with
  | some i => (.bucketCounts m i, 1) :: durationPosts toNanoseconds m o
  | none => durationPosts toNanoseconds m o

def statusPosts (m : RouteMetrics) (o : Observation) : List (Cell × UInt64) :=
  (.statusCounts m (statusClassIndex o.statusCode), 1) :: bucketPosts toNanoseconds m o

def lookupPosts (l : Lookup) : List (Cell × UInt64) :=
  l.observation.toList.flatMap (statusPosts toNanoseconds (metricsOf l.method l.route))

def todo : Call → List (Cell × UInt64)
  | .find l | .register l => lookupPosts toNanoseconds l
  | .status m o => statusPosts toNanoseconds m o
  | .bucket m o => bucketPosts toNanoseconds m o
  | .duration m o _ => durationPosts toNanoseconds m o
  | .count m _ => countPosts m
  | _ => []

def entry : Event → List (Cell × UInt64)
  | .record method route o => statusPosts toNanoseconds (metricsOf method route) o
  | _ => []

structure Accounted (posts : List (Cell × UInt64)) (s : State) : Prop where
  registered : Registered s
  balanced : Balanced (todo toNanoseconds) s.cells s.calls posts

variable {toNanoseconds} {s s' : State} {rest : Multiset Call} {posts : List (Cell × UInt64)}

theorem todo_of_stage {c : Call} (h : stage c = none) : todo toNanoseconds c = [] := by
  cases c with
  | find l | register l =>
    rw [todo, lookupPosts, Option.map_eq_none_iff.mp h]
    rfl
  | status | bucket | duration | count => cases h
  | _ => rfl

theorem owing_found (l : Lookup) (x : Cell) :
    owing (todo toNanoseconds) (State.found l (metricsOf l.method l.route)) x =
      amount (lookupPosts toNanoseconds l) x := by
  rw [State.found, lookupPosts]
  cases l.observation with
  | none => rfl
  | some o => simp [owing, todo]

namespace Accounted

variable {c : Call}

theorem others (h : Accounted toNanoseconds posts { s with calls := c ::ₘ rest })
    (hc : stage c = none) : Accounted toNanoseconds posts { s with calls := rest } :=
  ⟨h.registered, h.balanced.drop (todo_of_stage hc)⟩

theorem cons (h : Accounted toNanoseconds posts { s with calls := rest }) (hc : stage c = none) :
    Accounted toNanoseconds posts { s with calls := c ::ₘ rest } := by
  have hbegin := h.balanced.begin (c := c)
  rw [todo_of_stage hc, List.append_nil] at hbegin
  exact ⟨h.registered, hbegin⟩

theorem nextHistogram (h : Accounted toNanoseconds posts { s with calls := rest }) (out : Scrape)
    (routes : List RouteMetrics) :
    Accounted toNanoseconds posts (s.nextHistogram rest out routes) := by
  cases routes with
  | nil => exact ⟨h.registered, h.balanced⟩
  | cons m routes => exact h.cons rfl

theorem nextStatuses (h : Accounted toNanoseconds posts { s with calls := rest }) (out : Scrape)
    (routes : List RouteMetrics) :
    Accounted toNanoseconds posts (s.nextStatuses rest out routes) := by
  cases routes with
  | nil => exact h.nextHistogram _ _
  | cons m routes => exact h.cons rfl

theorem perform (h : Accounted toNanoseconds posts { s with calls := c ::ₘ rest }) :
    Accounted toNanoseconds posts (perform toNanoseconds s rest c) := by
  obtain ⟨hregistered, hbalanced⟩ := h
  cases c with
  | find l =>
    simp only [HttpMetrics.perform]
    cases hfind : s.routes.find? (makeKey l.method l.route) with
    | some m =>
      obtain rfl := hregistered.found hfind
      exact ⟨hregistered, hbalanced.move (owing_found l)⟩
    | none => exact ⟨hregistered, hbalanced.move_cons rfl⟩
  | register l =>
    simp only [HttpMetrics.perform]
    cases hfind : s.routes.find? (makeKey l.method l.route) with
    | some m =>
      obtain rfl := hregistered.found hfind
      exact ⟨hregistered, hbalanced.move (owing_found l)⟩
    | none => exact ⟨hregistered.insert l.method l.route, hbalanced.move (owing_found l)⟩
  | status m o => exact ⟨hregistered, hbalanced.post rfl⟩
  | bucket m o =>
    simp only [HttpMetrics.perform]
    cases hi : bucketIndex o.durationSeconds with
    | some i => exact ⟨hregistered, hbalanced.post (by simp only [todo, bucketPosts, hi])⟩
    | none => exact ⟨hregistered, hbalanced.move_cons (by simp only [todo, bucketPosts, hi])⟩
  | duration m o rank => exact ⟨hregistered, hbalanced.post rfl⟩
  | count m rank => exact ⟨hregistered, hbalanced.last rfl⟩
  | snapshot => exact Accounted.nextStatuses (.others ⟨hregistered, hbalanced⟩ rfl) _ _
  | loadStatus m routes loaded out =>
    have hothers := Accounted.others ⟨hregistered, hbalanced⟩ rfl
    simp only [HttpMetrics.perform]
    split_ifs
    · exact hothers.cons rfl
    · exact hothers.nextStatuses _ _
  | loadBucket m routes loaded out =>
    have hothers := Accounted.others ⟨hregistered, hbalanced⟩ rfl
    simp only [HttpMetrics.perform]
    split_ifs <;> exact hothers.cons rfl
  | loadCount m routes loaded out => exact (Accounted.others ⟨hregistered, hbalanced⟩ rfl).cons rfl
  | loadDuration m routes loaded requestCount behind out =>
    exact (Accounted.others ⟨hregistered, hbalanced⟩ rfl).nextHistogram _ _

theorem step {e : Event} (h : Step toNanoseconds s e s') (hs : Accounted toNanoseconds posts s) :
    Accounted toNanoseconds (posts ++ entry toNanoseconds e) s' := by
  cases e with
  | record method route o =>
    obtain rfl := Option.some.inj h
    have hbegin := hs.balanced.begin (c := .find ⟨method, route, some o⟩)
    have htodo : todo toNanoseconds (.find ⟨method, route, some o⟩) =
        entry toNanoseconds (.record method route o) := List.flatMap_singleton ..
    rw [htodo] at hbegin
    exact ⟨hs.registered, hbegin⟩
  | registerRoute method route =>
    obtain rfl := Option.some.inj h
    have hnone : posts ++ entry toNanoseconds (.registerRoute method route) = posts :=
      List.append_nil posts
    rw [hnone]
    exact Accounted.cons (s := s) hs rfl
  | render =>
    obtain rfl := Option.some.inj h
    have hnone : posts ++ entry toNanoseconds .render = posts := List.append_nil posts
    rw [hnone]
    exact Accounted.cons (s := s) hs rfl
  | step c =>
    obtain ⟨rest, hcalls, rfl⟩ := step_call_iff.mp h
    have hnone : posts ++ entry toNanoseconds (.step c) = posts := List.append_nil posts
    rw [hnone]
    apply Accounted.perform
    rw [← hcalls]
    exact hs

theorem run {events : List Event} (h : Run (Step toNanoseconds) initial events s) :
    Accounted toNanoseconds (events.flatMap (entry toNanoseconds)) s := by
  induction h with
  | start =>
    refine ⟨?_, Balanced.initial⟩
    intro k m hfind
    cases hfind
  | snoc _ hlast ih =>
    rw [List.flatMap_append, List.flatMap_singleton]
    exact ih.step hlast

end Accounted

end HttpAccounts
