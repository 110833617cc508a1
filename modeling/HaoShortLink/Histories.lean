import Mathlib.Data.Finset.Union
import Mathlib.Data.List.Induction
import Mathlib.Data.Multiset.AddSub

/-! Runs of a machine, and what the events so far say about its state. -/
namespace Histories

variable {S E V : Type}

/-- The runs from a state, with their events in order. -/
inductive Run (step : S → E → S → Prop) (start : S) : List E → S → Prop where
  | start : Run step start [] start
  | snoc {events s e s'} : Run step start events s → step s e s' →
      Run step start (events ++ [e]) s'

/-- Each element of the list, after those before it, is as P says. -/
def AtEach (P : List E → E → Prop) (l : List E) : Prop :=
  ∀ before e after, l = before ++ e :: after → P before e

theorem atEach_iff {P : List E → E → Prop} {l : List E} :
    AtEach P l ↔ ∀ i : Fin l.length, P (l.take i) (l.get i) := by
  constructor
  · intro h i
    apply h _ _ (l.drop (i + 1))
    rw [List.get_eq_getElem, List.getElem_cons_drop, List.take_append_drop]
  · rintro h before e after rfl
    simpa using h ⟨before.length, by simp⟩

instance (P : List E → E → Prop) [∀ before e, Decidable (P before e)] (l : List E) :
    Decidable (AtEach P l) :=
  decidable_of_iff _ atEach_iff.symm

theorem atEach_nil {P : List E → E → Prop} : AtEach P [] := by
  intro before e after h
  cases List.nil_eq_append_iff.mp h |>.2

theorem atEach_snoc {P : List E → E → Prop} {l : List E} {e : E} :
    AtEach P (l ++ [e]) ↔ AtEach P l ∧ P l e := by
  constructor
  · intro h
    refine ⟨fun before e' after hl => h before e' (after ++ [e]) ?_, h l e [] rfl⟩
    rw [hl, List.append_assoc, List.cons_append]
  · rintro ⟨h, hlast⟩ before e' after hl
    rcases List.eq_nil_or_concat after with rfl | ⟨after, e'', rfl⟩
    · obtain ⟨rfl, heq⟩ := List.append_inj' hl rfl
      obtain rfl := List.singleton_inj.mp heq
      exact hlast
    · rw [List.concat_eq_append, ← List.cons_append, ← List.append_assoc] at hl
      exact h before e' after (List.append_inj' hl rfl).1

/-- The value that the latest writing event wrote. -/
def lastWrite (write : E → Option V) (events : List E) : Option V :=
  events.reverse.findSome? write

@[simp] theorem lastWrite_snoc (write : E → Option V) (events : List E) (e : E) :
    lastWrite write (events ++ [e]) = (write e).or (lastWrite write events) := by
  rw [lastWrite, List.reverse_append, List.reverse_singleton, List.singleton_append,
    List.findSome?_cons]
  cases write e <;> rfl

variable {step : S → E → S → Prop} {start s : S} {events : List E} {write : E → Option V}

namespace Run

/-- What holds at the start and is kept by each step holds after every run. -/
theorem invariant {P : S → Prop} (h : Run step start events s) (hstart : P start)
    (hstep : ∀ s e s', step s e s' → P s → P s') : P s := by
  induction h with
  | start => exact hstart
  | snoc _ hlast ih => exact hstep _ _ _ hlast ih

theorem cons {s' : S} {e : E} (h : Run step s' events s) (hfirst : step start e s') :
    Run step start (e :: events) s := by
  induction h with
  | start => exact .snoc .start hfirst
  | snoc _ hlast ih => exact .snoc ih hlast

theorem trans {s' : S} {events' : List E} (h : Run step start events s)
    (h' : Run step s events' s') : Run step start (events ++ events') s' := by
  induction h' with
  | start =>
    rw [List.append_nil]
    exact h
  | snoc _ hlast ih =>
    rw [← List.append_assoc]
    exact .snoc ih hlast

theorem mono {step' : S → E → S → Prop} (h : Run step start events s)
    (hstep : ∀ s e s', step s e s' → step' s e s') : Run step' start events s := by
  induction h with
  | start => exact .start
  | snoc _ hlast ih => exact .snoc ih (hstep _ _ _ hlast)

theorem of_append {before after : List E} {e : E} (h : Run step start (before ++ e :: after) s) :
    ∃ s₁ s₂, Run step start before s₁ ∧ step s₁ e s₂ := by
  induction after using List.reverseRecOn generalizing s with
  | nil =>
    generalize hevents : before ++ [e] = events at h
    cases h with
    | start => simp at hevents
    | snoc hrun hlast =>
      obtain ⟨rfl, he⟩ := List.append_inj' hevents rfl
      obtain rfl := List.singleton_inj.mp he
      exact ⟨_, _, hrun, hlast⟩
  | append_singleton after u ih =>
    rw [← List.cons_append, ← List.append_assoc] at h
    generalize hevents : before ++ e :: after ++ [u] = events at h
    cases h with
    | start => simp at hevents
    | snoc hrun _ =>
      obtain ⟨rfl, _⟩ := List.append_inj' hevents rfl
      exact ih hrun

/-- A view that every step sets to what its event writes shows the last write. -/
theorem view_eq_lastWrite (h : Run step start events s) (view : S → Option V)
    (hstart : view start = none)
    (hstep : ∀ s e s', step s e s' → view s' = (write e).or (view s)) :
    view s = lastWrite write events := by
  induction h with
  | start => exact hstart
  | snoc _ hlast ih => rw [hstep _ _ _ hlast, ih, lastWrite_snoc]

/-- Where only what is still unset is written, the view shows the one write there was. -/
theorem view_eq_some_iff (h : Run step start events s) (view : S → Option V)
    (hstart : view start = none)
    (hstep : ∀ s e s', step s e s' → view s' = (write e).or (view s))
    (honce : ∀ s e s', step s e s' → (write e).isSome → view s = none) (v : V) :
    view s = some v ↔ ∃ e ∈ events, write e = some v := by
  induction h with
  | start => simp [hstart]
  | @snoc events s e s' _ hlast ih =>
    rw [hstep _ _ _ hlast]
    cases hwrite : write e with
    | none => simp [ih, hwrite]
    | some w =>
      have hnone : ∀ e ∈ events, write e ≠ some v := by
        intro e' hmem hv
        have hview := ih.mpr ⟨e', hmem, hv⟩
        rw [honce _ _ _ hlast (by rw [hwrite]; rfl)] at hview
        cases hview
      constructor
      · exact fun hv => ⟨e, by simp, hwrite.trans hv⟩
      · rintro ⟨e', hmem, hv⟩
        rcases List.mem_append.mp hmem with hmem | hmem
        · exact absurd hv (hnone e' hmem)
        · obtain rfl := List.mem_singleton.mp hmem
          exact hwrite.symm.trans hv

end Run

theorem foldlM_snoc {next : S → E → Option S} {e : E}
    (h : (events ++ [e]).foldlM next start = some s) :
    ∃ s', events.foldlM next start = some s' ∧ next s' e = some s := by
  rw [List.foldlM_append] at h
  obtain ⟨s', hevents, h⟩ := Option.bind_eq_some_iff.mp h
  rw [List.foldlM_cons] at h
  obtain ⟨t, hlast, h⟩ := Option.bind_eq_some_iff.mp h
  obtain rfl := Option.some.inj h
  exact ⟨s', hevents, hlast⟩

theorem Run.of_foldlM {next : S → E → Option S} (h : events.foldlM next start = some s) :
    Run (fun s e s' => next s e = some s') start events s := by
  induction events using List.reverseRecOn generalizing s with
  | nil =>
    obtain rfl := Option.some.inj h
    exact .start
  | append_singleton events e ih =>
    obtain ⟨s', hevents, hlast⟩ := foldlM_snoc h
    exact .snoc (ih hevents) hlast

/-- The steps from a state, each with the states before and after it. -/
inductive Path (step : S → E → S → Prop) (start : S) : List (S × E × S) → S → Prop where
  | start : Path step start [] start
  | snoc {steps s e s'} : Path step start steps s → step s e s' →
      Path step start (steps ++ [(s, e, s')]) s'

namespace Path

variable {steps : List (S × E × S)} {P : S → Prop} {Q : S → E → Prop}

/-- What holds at the start and is kept by the steps that meet a condition holds all along a
path whose steps meet it. -/
theorem invariant (h : Path step start steps s) (hstart : P start)
    (hstep : ∀ s e s', step s e s' → Q s e → P s → P s') (hall : ∀ t ∈ steps, Q t.1 t.2.1) :
    P s ∧ ∀ t ∈ steps, P t.1 ∧ step t.1 t.2.1 t.2.2 := by
  induction h with
  | start => exact ⟨hstart, by simp⟩
  | @snoc steps s e s' _ hlast ih =>
    obtain ⟨hs, hsteps⟩ := ih fun t ht => hall t (List.mem_append_left _ ht)
    refine ⟨hstep _ _ _ hlast (hall (s, e, s') (by simp)) hs, ?_⟩
    intro t ht
    rcases List.mem_append.mp ht with ht | ht
    · exact hsteps t ht
    · obtain rfl := List.mem_singleton.mp ht
      exact ⟨hs, hlast⟩

/-- Where a step from a good state leads to a good state exactly under a condition, all the
states of a path are good exactly when all its steps meet the condition. -/
theorem forall_iff (h : Path step start steps s) (hstart : P start)
    (hstep : ∀ s e s', step s e s' → P s → (P s' ↔ Q s e)) :
    (∀ t ∈ steps, P t.2.2) ↔ ∀ t ∈ steps, Q t.1 t.2.1 := by
  suffices hs : ((∀ t ∈ steps, P t.2.2) ↔ ∀ t ∈ steps, Q t.1 t.2.1) ∧
      ((∀ t ∈ steps, P t.2.2) → P s) from hs.1
  induction h with
  | start => exact ⟨by simp, fun _ => hstart⟩
  | @snoc steps s e s' _ hlast ih =>
    have hsplit : (∀ t ∈ steps ++ [(s, e, s')], P t.2.2) ↔ (∀ t ∈ steps, P t.2.2) ∧ P s' := by
      simp [or_imp, forall_and]
    have hsplit' : (∀ t ∈ steps ++ [(s, e, s')], Q t.1 t.2.1) ↔
        (∀ t ∈ steps, Q t.1 t.2.1) ∧ Q s e := by
      simp [or_imp, forall_and]
    rw [hsplit, hsplit', ← ih.1]
    exact ⟨and_congr_right fun hall => hstep s e s' hlast (ih.2 hall), And.right⟩

theorem snoc_inv {t : S × E × S} (h : Path step start (steps ++ [t]) s) :
    Path step start steps t.1 ∧ step t.1 t.2.1 t.2.2 ∧ t.2.2 = s := by
  generalize hsteps : steps ++ [t] = all at h
  cases h with
  | start => simp at hsteps
  | snoc hpath hlast =>
    obtain ⟨rfl, ht⟩ := List.append_inj' hsteps rfl
    obtain rfl := List.singleton_inj.mp ht
    exact ⟨hpath, hlast, rfl⟩

theorem of_append {before after : List (S × E × S)} {t : S × E × S}
    (h : Path step start (before ++ t :: after) s) :
    Path step start before t.1 ∧ step t.1 t.2.1 t.2.2 := by
  induction after using List.reverseRecOn generalizing s with
  | nil =>
    obtain ⟨hpath, hlast, _⟩ := h.snoc_inv
    exact ⟨hpath, hlast⟩
  | append_singleton after u ih =>
    rw [← List.cons_append, ← List.append_assoc] at h
    exact ih h.snoc_inv.1

/-- What never goes down is at the end no less than at any step. -/
theorem le_end {T : Type} [Preorder T] {f : S → E → T} {g : S → T}
    (h : Path step start steps s)
    (hstep : ∀ s e s', step s e s' → f s e ≤ g s' ∧ g s ≤ g s') :
    ∀ t ∈ steps, f t.1 t.2.1 ≤ g s := by
  induction h with
  | start => simp
  | @snoc steps s e s' _ hlast ih =>
    intro t ht
    rcases List.mem_append.mp ht with ht | ht
    · exact le_trans (ih t ht) (hstep _ _ _ hlast).2
    · obtain rfl := List.mem_singleton.mp ht
      exact (hstep _ _ _ hlast).1

end Path

def trace (next : S → E → Option S) (s : S) : List E → List (S × E × S)
  | [] => []
  | e :: events =>
    match next s e with
    | some s' => (s, e, s') :: trace next s' events
    | none => []

theorem trace_append {next : S → E → Option S} (h : events.foldlM next start = some s)
    (events' : List E) :
    trace next start (events ++ events') = trace next start events ++ trace next s events' := by
  induction events generalizing start with
  | nil =>
    obtain rfl := Option.some.inj h
    rfl
  | cons e events ih =>
    rw [List.foldlM_cons] at h
    obtain ⟨s', he, h⟩ := Option.bind_eq_some_iff.mp h
    simp only [List.cons_append, trace, he, ih h]

theorem Path.of_foldlM {next : S → E → Option S} (h : events.foldlM next start = some s) :
    Path (fun s e s' => next s e = some s') start (trace next start events) s := by
  induction events using List.reverseRecOn generalizing s with
  | nil =>
    obtain rfl := Option.some.inj h
    exact .start
  | append_singleton events e ih =>
    obtain ⟨s', hevents, hlast⟩ := foldlM_snoc h
    have htrace : trace next s' [e] = [(s', e, s)] := by simp [trace, hlast]
    rw [trace_append hevents, htrace]
    exact .snoc (ih hevents) hlast

/-- One of the calls in flight takes a step, which sees the others. -/
def advance {C T : Type} [DecidableEq C] (calls : Multiset C) (c : C)
    (step : Multiset C → Option T) : Option T :=
  if c ∈ calls then step (calls.erase c) else none

theorem advance_cons {C T : Type} [DecidableEq C] {c : C} {rest : Multiset C}
    (step : Multiset C → Option T) : advance (c ::ₘ rest) c step = step rest := by
  rw [advance, if_pos (Multiset.mem_cons_self c rest), Multiset.erase_cons_head]

theorem advance_eq_some {C T : Type} [DecidableEq C] {calls : Multiset C} {c : C}
    {step : Multiset C → Option T} {t : T} :
    advance calls c step = some t ↔ ∃ rest, calls = c ::ₘ rest ∧ step rest = some t := by
  constructor
  · intro h
    rw [advance] at h
    by_cases hmem : c ∈ calls
    · rw [if_pos hmem] at h
      exact ⟨calls.erase c, (Multiset.cons_erase hmem).symm, h⟩
    · rw [if_neg hmem] at h
      cases h
  · rintro ⟨rest, rfl, h⟩
    rw [advance_cons]
    exact h

/-- A loop over rows that each account for a part of a set, no two for the same element. -/
theorem foldlM_covers {Row A ε : Type} [DecidableEq A] {body : S → Row → Except ε S}
    {part : Row → Finset A} {Rel : Finset A → S → Prop} {rows : List Row}
    (hbody : ∀ row ∈ rows, ∀ T s, Rel T s → Disjoint T (part row) →
      ∃ s', body s row = .ok s' ∧ Rel (T ∪ part row) s')
    (hrows : rows.Pairwise fun a b => Disjoint (part a) (part b)) {T T' : Finset A} {s : S}
    (h : Rel T s) (hT : ∀ row ∈ rows, Disjoint T (part row))
    (hT' : ∀ a, a ∈ T' ↔ a ∈ T ∨ ∃ row ∈ rows, a ∈ part row) :
    ∃ s', rows.foldlM body s = .ok s' ∧ Rel T' s' := by
  induction rows generalizing T s with
  | nil =>
    obtain rfl : T' = T := Finset.ext fun a => by simpa using hT' a
    exact ⟨s, rfl, h⟩
  | cons row rows ih =>
    obtain ⟨hfirst, hrest⟩ := List.pairwise_cons.mp hrows
    obtain ⟨s', hrun, hs'⟩ := hbody row List.mem_cons_self T s h (hT row List.mem_cons_self)
    have hdisjoint : ∀ r ∈ rows, Disjoint (T ∪ part row) (part r) := by
      intro r hr
      exact Finset.disjoint_union_left.mpr ⟨hT r (List.mem_cons_of_mem _ hr), hfirst r hr⟩
    obtain ⟨s'', hrun', hs''⟩ := ih (fun r hr => hbody r (List.mem_cons_of_mem _ hr)) hrest hs'
      hdisjoint (fun a => by simp [hT', or_assoc])
    refine ⟨s'', ?_, hs''⟩
    rw [List.foldlM_cons, hrun]
    exact hrun'

end Histories
