/-! Computations that change a state and may throw: what they did before throwing stays done.
With them two kinds of rules, for what one run keeps and for what two runs share. -/
namespace Actions

structure Action (σ ε α : Type) where
  run : σ → Except ε α × σ

variable {σ τ ε α β : Type}

namespace Action

def bind (x : Action σ ε α) (g : α → Action σ ε β) : Action σ ε β where
  run s :=
    match x.run s with
    | (.ok a, s') => (g a).run s'
    | (.error e, s') => (.error e, s')

instance : Monad (Action σ ε) where
  pure a := ⟨fun s => (.ok a, s)⟩
  bind := bind

instance : MonadExceptOf ε (Action σ ε) where
  throw e := ⟨fun s => (.error e, s)⟩
  tryCatch x h := ⟨fun s =>
    match x.run s with
    | (.ok a, s') => (.ok a, s')
    | (.error e, s') => (h e).run s'⟩

def read (f : σ → α) : Action σ ε α := ⟨fun s => (.ok (f s), s)⟩

def modify (f : σ → σ) : Action σ ε Unit := ⟨fun s => (.ok (), f s)⟩

def query (f : σ → Except ε α) : Action σ ε α := ⟨fun s => (f s, s)⟩

@[simp] theorem run_pure (a : α) (s : σ) : (pure a : Action σ ε α).run s = (.ok a, s) := rfl

theorem run_bind (x : Action σ ε α) (g : α → Action σ ε β) (s : σ) :
    (x >>= g).run s = match x.run s with
      | (.ok a, s') => (g a).run s'
      | (.error e, s') => (.error e, s') := rfl

theorem run_bind_ok {x : Action σ ε α} {s s' : σ} {a : α} (h : x.run s = (.ok a, s'))
    (g : α → Action σ ε β) : (x >>= g).run s = (g a).run s' := by rw [run_bind, h]

theorem run_bind_error {x : Action σ ε α} {s s' : σ} {e : ε} (h : x.run s = (.error e, s'))
    (g : α → Action σ ε β) : (x >>= g).run s = (.error e, s') := by rw [run_bind, h]

theorem run_map_ok {x : Action σ ε α} {s s' : σ} {a : α} (h : x.run s = (.ok a, s')) (f : α → β) :
    (f <$> x).run s = (.ok (f a), s') := run_bind_ok h _

theorem run_map_error {x : Action σ ε α} {s s' : σ} {e : ε} (h : x.run s = (.error e, s'))
    (f : α → β) : (f <$> x).run s = (.error e, s') := run_bind_error h _

theorem run_tryCatch (x : Action σ ε α) (h : ε → Action σ ε α) (s : σ) :
    (tryCatch x h).run s = match x.run s with
      | (.ok a, s') => (.ok a, s')
      | (.error e, s') => (h e).run s' := rfl

theorem run_tryCatch_ok {x : Action σ ε α} {s s' : σ} {a : α} (h : x.run s = (.ok a, s'))
    (handler : ε → Action σ ε α) : (tryCatch x handler).run s = (.ok a, s') := by
  rw [run_tryCatch, h]

theorem run_tryCatch_error {x : Action σ ε α} {s s' : σ} {e : ε} (h : x.run s = (.error e, s'))
    (handler : ε → Action σ ε α) : (tryCatch x handler).run s = (handler e).run s' := by
  rw [run_tryCatch, h]

end Action

open Actions.Action

theorem bind_eq_ok {x : Except ε α} {f : α → Except ε β} {b : β} :
    x >>= f = .ok b ↔ ∃ a, x = .ok a ∧ f a = .ok b := by
  cases x with
  | error e =>
    constructor
    · intro h
      cases h
    · rintro ⟨a, h, _⟩
      cases h
  | ok a =>
    constructor
    · intro h
      exact ⟨a, rfl, h⟩
    · rintro ⟨a', h, hf⟩
      rw [Except.ok.inj h]
      exact hf

/-- The run from s leaves the view f of the state as it is. -/
def KeepsAt (f : σ → τ) (x : Action σ ε α) (s : σ) : Prop := f (x.run s).2 = f s

def Keeps (f : σ → τ) (x : Action σ ε α) : Prop := ∀ s, KeepsAt f x s

variable {f : σ → τ} {x : Action σ ε α} {g : α → Action σ ε β} {s : σ}

theorem KeepsAt.bind (hx : KeepsAt f x s)
    (hg : ∀ a, (x.run s).1 = .ok a → KeepsAt f (g a) (x.run s).2) : KeepsAt f (x >>= g) s := by
  unfold KeepsAt at hx ⊢
  rw [run_bind]
  rcases hrun : x.run s with ⟨a | a, s'⟩
  · simpa [hrun] using hx
  · rw [hrun] at hx hg
    exact (hg a rfl).trans hx

theorem keeps_pure (a : α) : Keeps f (pure a : Action σ ε α) := fun _ => rfl

theorem keeps_throw (e : ε) : Keeps f (throw e : Action σ ε α) := fun _ => rfl

theorem keeps_query (k : σ → Except ε α) : Keeps f (query k) := fun _ => rfl

theorem keeps_modify {k : σ → σ} (h : ∀ s, f (k s) = f s) :
    Keeps f (modify k : Action σ ε Unit) := h

theorem keeps_bind (hx : Keeps f x) (hg : ∀ a, Keeps f (g a)) : Keeps f (x >>= g) :=
  fun s => (hx s).bind fun a _ => hg a _

theorem KeepsAt.tryCatch {h : ε → Action σ ε α} (hx : KeepsAt f x s)
    (hh : ∀ e, Keeps f (h e)) : KeepsAt f (tryCatch x h) s := by
  unfold KeepsAt at hx ⊢
  rw [run_tryCatch]
  rcases hrun : x.run s with ⟨e | a, s'⟩
  · rw [hrun] at hx
    exact (hh e s').trans hx
  · rw [hrun] at hx
    exact hx

theorem keeps_tryCatch {h : ε → Action σ ε α} (hx : Keeps f x) (hh : ∀ e, Keeps f (h e)) :
    Keeps f (tryCatch x h) := fun s => (hx s).tryCatch hh

theorem rest_keeps {h : ε → Action σ ε β} (hg : ∀ a, Keeps f (g a)) (hh : ∀ e, Keeps f (h e))
    (x : Action σ ε α) (s : σ) : f ((tryCatch (x >>= g) h).run s).2 = f (x.run s).2 := by
  rcases hrun : x.run s with ⟨e | a, s'⟩
  · rw [run_tryCatch_error (run_bind_error hrun g)]
    exact hh e s'
  · rw [run_tryCatch, run_bind_ok hrun]
    have hkept : f ((g a).run s').2 = f s' := hg a s'
    rcases hnext : (g a).run s' with ⟨e | b, s''⟩
    · rw [hnext] at hkept
      exact (hh e s'').trans hkept
    · rw [hnext] at hkept
      exact hkept

/-- The run from s returns, and Q holds of its result and of the state it ends in. -/
def Returns (Q : α → σ → Prop) (x : Action σ ε α) (s : σ) : Prop :=
  ∃ a s', x.run s = (.ok a, s') ∧ Q a s'

namespace Returns

variable {Q Q' : α → σ → Prop} {P : β → σ → Prop}

theorem pure {a : α} (h : Q a s) : Returns Q (pure a : Action σ ε α) s := ⟨a, s, rfl, h⟩

theorem bind (hx : Returns (fun a s' => Returns P (g a) s') x s) : Returns P (x >>= g) s := by
  obtain ⟨a, s', hrun, b, s'', hnext, hP⟩ := hx
  exact ⟨b, s'', (run_bind_ok hrun g).trans hnext, hP⟩

theorem mono (hx : Returns Q x s) (h : ∀ a s', Q a s' → Q' a s') : Returns Q' x s := by
  obtain ⟨a, s', hrun, hQ⟩ := hx
  exact ⟨a, s', hrun, h a s' hQ⟩

theorem of_run {a : α} {s' : σ} (hx : Returns Q x s) (hrun : x.run s = (.ok a, s')) : Q a s' := by
  obtain ⟨b, s'', hrun', hQ⟩ := hx
  obtain ⟨hb, rfl⟩ := Prod.mk.inj (hrun.symm.trans hrun')
  obtain rfl := Except.ok.inj hb
  exact hQ

end Returns

/-- If the run from s returns, Q holds of its result and of the state it ends in. -/
def Ends (Q : α → σ → Prop) (x : Action σ ε α) (s : σ) : Prop :=
  ∀ a s', x.run s = (.ok a, s') → Q a s'

namespace Ends

variable {Q Q' : α → σ → Prop} {P : β → σ → Prop}

theorem pure {a : α} (h : Q a s) : Ends Q (pure a : Action σ ε α) s := by
  intro b s' hrun
  obtain ⟨ha, rfl⟩ := Prod.mk.inj hrun
  obtain rfl := Except.ok.inj ha
  exact h

theorem throw (e : ε) : Ends Q (throw e : Action σ ε α) s := by
  intro a s' hrun
  cases hrun

theorem mono (hx : Ends Q x s) (h : ∀ a s', Q a s' → Q' a s') : Ends Q' x s := by
  intro a s' hrun
  exact h a s' (hx a s' hrun)

theorem bind (hx : Ends (fun a s' => Ends P (g a) s') x s) : Ends P (x >>= g) s := by
  intro b s'' hrun
  rcases hx' : x.run s with ⟨e | a, s'⟩
  · rw [run_bind_error hx'] at hrun
    cases hrun
  · rw [run_bind_ok hx'] at hrun
    exact hx a s' hx' b s'' hrun

theorem tryCatch {h : ε → Action σ ε α} (hx : Ends Q x s) (hh : ∀ e s', Ends Q (h e) s') :
    Ends Q (tryCatch x h) s := by
  intro a s'' hrun
  rcases hx' : x.run s with ⟨e | b, s'⟩
  · rw [run_tryCatch_error hx'] at hrun
    exact hh e s' a s'' hrun
  · rw [run_tryCatch_ok hx'] at hrun
    exact hx a s'' (hx'.trans hrun)

end Ends

/-- From related states the two runs return the same and end in related states. -/
def LockstepAt (R : σ → σ → Prop) (x : Action σ ε α) (s t : σ) : Prop :=
  (x.run s).1 = (x.run t).1 ∧ R (x.run s).2 (x.run t).2

def Lockstep (R : σ → σ → Prop) (x : Action σ ε α) : Prop := ∀ s t, R s t → LockstepAt R x s t

variable {R : σ → σ → Prop} {t : σ}

theorem LockstepAt.bind (hx : LockstepAt R x s t)
    (hg : ∀ a, (x.run s).1 = .ok a → LockstepAt R (g a) (x.run s).2 (x.run t).2) :
    LockstepAt R (x >>= g) s t := by
  unfold LockstepAt at hx ⊢
  rw [run_bind, run_bind]
  rcases hs : x.run s with ⟨e | a, s'⟩ <;> rcases ht : x.run t with ⟨e' | a', t'⟩
  · simpa [hs, ht] using hx
  · simp [hs, ht] at hx
  · simp [hs, ht] at hx
  · rw [hs, ht] at hx hg
    obtain rfl : a = a' := by simpa using hx.1
    exact hg a rfl

theorem lockstep_pure (a : α) : Lockstep R (pure a : Action σ ε α) := fun _ _ h => ⟨rfl, h⟩

theorem lockstep_throw (e : ε) : Lockstep R (throw e : Action σ ε α) := fun _ _ h => ⟨rfl, h⟩

theorem lockstep_query {k : σ → Except ε α} (h : ∀ s t, R s t → k s = k t) :
    Lockstep R (query k) := fun s t hR => ⟨h s t hR, hR⟩

theorem lockstep_modify {k : σ → σ} (h : ∀ s t, R s t → R (k s) (k t)) :
    Lockstep R (modify k : Action σ ε Unit) := fun s t hR => ⟨rfl, h s t hR⟩

theorem lockstep_bind (hx : Lockstep R x) (hg : ∀ a, Lockstep R (g a)) : Lockstep R (x >>= g) :=
  fun s t hR => (hx s t hR).bind fun a _ => hg a _ _ (hx s t hR).2

theorem LockstepAt.tryCatch {h : ε → Action σ ε α} (hx : LockstepAt R x s t)
    (hh : ∀ e, Lockstep R (h e)) : LockstepAt R (tryCatch x h) s t := by
  unfold LockstepAt at hx ⊢
  rw [run_tryCatch, run_tryCatch]
  rcases hs : x.run s with ⟨e | a, s'⟩ <;> rcases ht : x.run t with ⟨e' | a', t'⟩
  · rw [hs, ht] at hx
    obtain rfl : e = e' := by simpa using hx.1
    exact hh e s' t' hx.2
  · simp [hs, ht] at hx
  · simp [hs, ht] at hx
  · simpa [hs, ht] using hx

end Actions
