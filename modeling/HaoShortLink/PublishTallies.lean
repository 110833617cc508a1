import HaoShortLink.AtomicCounters
import HaoShortLink.KafkaAccessEventPublisher
import HaoShortLink.Ledgers
import HaoShortLink.ShortLinkExpositions
import Mathlib.Data.UInt

/-! The counters and the log of the access event publisher, against the calls under way and what
the events so far have to show. -/
namespace PublishTallies

open AtomicCounters (drawn drawn_succ)
open Cpp AccessEvents Deliveries Histories Ledgers KafkaAccessEventPublisher
open JsonValues (JsonLibrary)
open ShortLinkCounters (Record ShortLinkMetrics)
open ShortLinkExpositions (cell_injective)

inductive Counter where
  | metric (r : Record)
  | failures (stage : Stage)
  deriving DecidableEq, Repr

def counter (s : State) : Counter → UInt64
  | .metric r => s.metrics.counters r.cell
  | .failures stage => s.failures stage

def posted : Call → Option Counter
  | .enqueued result _ _ => some (.metric (.accessEventEnqueue result))
  | .delivered result _ => some (.metric (.accessEventDelivery result))
  | .fail stage _ _ => some (.failures stage)
  | _ => none

def failurePosts (stage : Stage) (failure : Option Bytes) : List (Counter × ℕ) :=
  failure.toList.map fun _ => (.failures stage, 1)

def todo : Call → List (Counter × ℕ)
  | .enqueued result failure _ =>
    (.metric (.accessEventEnqueue result), 1) :: failurePosts .enqueue failure
  | .delivered result failure =>
    (.metric (.accessEventDelivery result), 1) :: failurePosts .delivery failure
  | .fail stage _ _ => [(.failures stage, 1)]
  | _ => []

def lineOf (stage : Stage) : Call → Option UInt64
  | .log line _ => if line.stage = stage ∧ shouldLog line.count then some line.count else none
  | _ => none

def lines (s : State) (stage : Stage) : List UInt64 :=
  (s.logs.filter fun line => line.stage = stage).map LogLine.count

def underWay (s : State) : Multiset Call := ↑s.serving.toList + s.calls

section Entries

variable (json : JsonLibrary) (lib : Librdkafka)

/-- What reaching librdkafka adds to what a thread has to post. -/
def replyPosts (reply : ℤ) : Call → List (Counter × ℕ)
  | .publish event => todo (enqueue json lib event reply)
  | _ => []

def entry : Event → List (Counter × ℕ)
  | .run c reply => replyPosts json lib reply c
  | .report _ o => todo (deliveryCallback lib o)
  | .clientError error reason => todo (errorCallback lib error reason)
  | _ => []

end Entries

variable {json : JsonLibrary} {lib : Librdkafka} {s s' : State} {e : Event} {c : Call}
  {posts : List (Counter × ℕ)} {rest : Multiset Call} {N : Counter → ℕ} {reply : ℤ}

theorem counter_record (s : State) (r : Record) :
    counter { s with metrics := s.metrics.record r } =
      Function.update (counter s) (.metric r) (counter s (.metric r) + 1) := by
  funext x
  cases x with
  | metric r' =>
    by_cases hr : r' = r
    · subst hr
      simp [counter, ShortLinkMetrics.record]
    · have hcell : r'.cell ≠ r.cell := fun h => hr (cell_injective h)
      simp [counter, ShortLinkMetrics.record, hr, hcell]
  | failures stage => simp [counter]

theorem counter_fail (s : State) (stage : Stage) (n : UInt64) :
    counter { s with failures := Function.update s.failures stage n } =
      Function.update (counter s) (.failures stage) n := by
  funext x
  cases x with
  | failures stage' =>
    by_cases hstage : stage' = stage
    · subst hstage
      simp [counter]
    · simp [counter, hstage]
  | _ => simp [counter]

theorem perform_counter (json : JsonLibrary) (lib : Librdkafka) (s : State) (reply : ℤ) (c : Call) :
    counter (perform json lib s reply c).1 = raise (posted c) (counter s) := by
  cases c with
  | enqueued result failure sized => exact counter_record s (.accessEventEnqueue result)
  | delivered result failure => exact counter_record s (.accessEventDelivery result)
  | fail stage reason sized => exact counter_fail s stage _
  | _ => funext x; cases x <;> rfl

theorem owing_afterRecord (stage : Stage) (failure : Option Bytes) (sized : Bool) (x : Counter) :
    owing todo (↑(afterRecord stage failure sized).toList) x =
      amount (failurePosts stage failure) x := by
  cases failure with
  | some reason => simp [afterRecord, owing, todo, failurePosts]
  | none => cases sized <;> simp [afterRecord, owing, todo, failurePosts]

theorem perform_owing (json : JsonLibrary) (lib : Librdkafka) (s : State) (reply : ℤ) (c : Call)
    (x : Counter) : amount (todo c) x + amount (replyPosts json lib reply c) x =
      (if posted c = some x then 1 else 0) +
        owing todo (↑(perform json lib s reply c).2.toList) x := by
  cases c with
  | publish event => simp [todo, replyPosts, posted, perform, owing]
  | enqueued result failure sized =>
    simp [todo, replyPosts, posted, perform, owing_afterRecord]
  | delivered result failure => simp [todo, replyPosts, posted, perform, owing_afterRecord]
  | fail stage reason sized => simp [todo, replyPosts, posted, perform, owing]
  | log line sized => cases sized <;> simp [todo, replyPosts, posted, perform, owing]
  | size => simp [todo, replyPosts, posted, perform, owing]
  | gauge size => simp [todo, replyPosts, posted, perform, owing]

/-- The counters come to N, the calls have the rest of the posts to make, and of the numbers drawn
for a failure those to be logged are in the log or about to be. -/
structure Tallied (posts : List (Counter × ℕ)) (N : Counter → ℕ) (calls : Multiset Call)
    (s : State) : Prop where
  counted : ∀ x, counter s x = UInt64.ofNat (N x)
  balanced : Balanced todo N calls posts
  written : ∀ stage, ↑(lines s stage) + calls.filterMap (lineOf stage) =
    (drawn (N (.failures stage))).filter fun n => shouldLog n

theorem raise_ofNat {f : Counter → UInt64} (h : ∀ x, f x = UInt64.ofNat (N x))
    (x : Option Counter) (y : Counter) : raise x f y = UInt64.ofNat (raise x N y) := by
  cases x with
  | none => exact h y
  | some x =>
    by_cases hxy : y = x
    · subst hxy
      simp [raise, h, UInt64.ofNat_add]
    · simp [raise, h, hxy]

@[simp] theorem filterMap_singleton {A B : Type} (f : A → Option B) (a : A) :
    Multiset.filterMap f {a} = ↑(f a).toList := by
  rw [← Multiset.coe_singleton, Multiset.filterMap_coe]
  cases h : f a <;> simp [h]

theorem lineOf_afterRecord (stage stage' : Stage) (failure : Option Bytes) (sized : Bool) :
    (afterRecord stage failure sized).toList.filterMap (lineOf stage') = [] := by
  cases failure with
  | some reason => simp [afterRecord, lineOf]
  | none => cases sized <;> simp [afterRecord, lineOf]

theorem lineOf_enqueue (stage : Stage) (json : JsonLibrary) (lib : Librdkafka) (event : AccessEvent)
    (code : ℤ) : lineOf stage (enqueue json lib event code) = none := by
  rw [enqueue]
  split
  · rfl
  · split_ifs <;> rfl

/-- What a step writes and what is still to be written, beside the failure it has counted. -/
theorem perform_lines (json : JsonLibrary) (lib : Librdkafka) (s : State) (reply : ℤ) (c : Call)
    (stage : Stage) : ((lines (perform json lib s reply c).1 stage : Multiset UInt64) +
        Multiset.filterMap (lineOf stage) ↑(perform json lib s reply c).2.toList) =
      ((if posted c = some (.failures stage) then {s.failures stage + 1} else 0 :
          Multiset UInt64).filter fun n => shouldLog n) +
        (lines s stage + Multiset.filterMap (lineOf stage) {c}) := by
  cases c with
  | fail stage' reason sized =>
    by_cases hstage : stage' = stage
    · subst hstage
      by_cases hlog : shouldLog (s.failures stage' + 1) <;>
        simp [perform, lines, lineOf, posted, hlog, Multiset.add_comm, Multiset.filter_singleton]
    · simp [perform, lines, lineOf, posted, hstage]
  | log line sized =>
    by_cases hlog : shouldLog line.count <;> by_cases hstage : line.stage = stage <;>
      cases sized <;>
      simp [perform, lines, lineOf, posted, hlog, hstage, ← Multiset.coe_singleton,
        List.filterMap_cons]
  | enqueued result failure sized => simp [perform, lines, posted, lineOf, lineOf_afterRecord]
  | delivered result failure => simp [perform, lines, posted, lineOf, lineOf_afterRecord]
  | publish event =>
    have hnone : lineOf stage (.publish event) = none := rfl
    simp [perform, lines, posted, lineOf_enqueue, hnone]
  | _ => simp [perform, lines, posted, lineOf]

namespace Tallied

theorem perform (h : Tallied posts N (c ::ₘ rest) s) (json : JsonLibrary) (lib : Librdkafka)
    (reply : ℤ) : Tallied (posts ++ replyPosts json lib reply c) (raise (posted c) N)
      (↑(perform json lib s reply c).2.toList + rest) (perform json lib s reply c).1 := by
  refine ⟨?_, ?_, ?_⟩
  · intro x
    rw [perform_counter]
    exact raise_ofNat h.counted _ x
  · exact h.balanced.step (perform_owing json lib s reply c)
  · intro stage
    have hcount : s.failures stage = UInt64.ofNat (N (.failures stage)) :=
      h.counted (.failures stage)
    have hwritten := h.written stage
    rw [← Multiset.singleton_add, Multiset.filterMap_add, ← add_assoc] at hwritten
    rw [Multiset.filterMap_add, ← add_assoc, perform_lines, add_assoc, hwritten, raise_apply]
    by_cases hposted : posted c = some (.failures stage)
    · rw [if_pos hposted, if_pos hposted, drawn_succ, hcount, ← Multiset.singleton_add,
        Multiset.filter_add, UInt64.ofNat_add, UInt64.ofNat_one]
    · rw [if_neg hposted, if_neg hposted, Multiset.filter_zero, zero_add, add_zero]

theorem begin {calls : Multiset Call} (h : Tallied posts N calls s)
    (hline : ∀ stage, lineOf stage c = none) : Tallied (posts ++ todo c) N (c ::ₘ calls) s := by
  refine ⟨h.counted, h.balanced.begin, ?_⟩
  intro stage
  rw [Multiset.filterMap_cons_none _ _ (hline stage)]
  exact h.written stage

theorem frame {calls : Multiset Call} (h : Tallied posts N calls s)
    (hmetrics : s'.metrics = s.metrics) (hfailures : s'.failures = s.failures)
    (hlogs : s'.logs = s.logs) : Tallied posts N calls s' := by
  refine ⟨?_, h.balanced, ?_⟩
  · intro x
    rw [← h.counted]
    cases x with
    | metric r => rw [counter, counter, hmetrics]
    | failures stage => rw [counter, counter, hfailures]
  · intro stage
    rw [lines, hlogs]
    exact h.written stage

end Tallied

end PublishTallies
