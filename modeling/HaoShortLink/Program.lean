import Mathlib.Logic.Function.Basic

/-! Client programs as trees of calls, with rely–guarantee reasoning about a pool of them.
A program asks its environment for one answer at a time; the environment answers whatever
its step relation allows, and other threads may run between any two calls. -/
namespace Program

universe u v w

inductive Prog (Op : Type u) (Ans : Op → Type v) (α : Type w) : Type (max u v w) where
  | ret (a : α)
  | ask (op : Op) (k : Ans op → Prog Op Ans α)

variable {Op : Type u} {Ans : Op → Type v} {α β : Type w}

def Prog.bind : Prog Op Ans α → (α → Prog Op Ans β) → Prog Op Ans β
  | .ret a, f => f a
  | .ask op k, f => .ask op fun r => (k r).bind f

instance : Monad (Prog Op Ans) where
  pure := .ret
  bind := Prog.bind

@[simp] theorem pure_eq (a : α) : (pure a : Prog Op Ans α) = .ret a := rfl
@[simp] theorem bind_eq (p : Prog Op Ans α) (f : α → Prog Op Ans β) : p >>= f = p.bind f := rfl
@[simp] theorem ret_bind (a : α) (f : α → Prog Op Ans β) :
    (Prog.ret a : Prog Op Ans α).bind f = f a := rfl
@[simp] theorem ask_bind (op : Op) (k : Ans op → Prog Op Ans α) (f : α → Prog Op Ans β) :
    (Prog.ask op k).bind f = .ask op fun r => (k r).bind f := rfl

theorem bind_ret (p : Prog Op Ans α) : p.bind .ret = p := by
  induction p with
  | ret a => rfl
  | ask op k ih => simp [ih]

theorem bind_assoc {γ : Type w} (p : Prog Op Ans α) (f : α → Prog Op Ans β)
    (g : β → Prog Op Ans γ) : (p.bind f).bind g = p.bind fun a => (f a).bind g := by
  induction p with
  | ret a => rfl
  | ask op k ih => simp [ih]

instance : LawfulMonad (Prog Op Ans) :=
  LawfulMonad.mk' _ (fun p => bind_ret p) (fun _ _ => rfl) fun p f g => bind_assoc p f g

/-- Programs whose calls may fail: an answer is a result or an exception. -/
abbrev Client (Op : Type u) (Res : Op → Type v) (ε : Type v) :=
  ExceptT ε (Prog Op fun op => Except ε (Res op))

def call {Res : Op → Type v} {ε : Type v} (op : Op) : Client Op Res ε (Res op) :=
  ExceptT.mk (.ask op .ret)

def perform {ε : Type v} {Ans : Op → Type v} (op : Op) : ExceptT ε (Prog Op Ans) (Ans op) :=
  ExceptT.mk (.ask op fun r => .ret (.ok r))

/-- x, and fin when it ends, whatever it ends with. -/
def ensuring {ε γ δ : Type v} {Ans : Op → Type v} (x : ExceptT ε (Prog Op Ans) γ)
    (fin : ExceptT ε (Prog Op Ans) δ) : ExceptT ε (Prog Op Ans) γ :=
  ExceptT.mk (x.run.bind fun r => fin.run.bind fun _ => .ret r)

/-- The same program spoken in a larger vocabulary of calls. -/
def Prog.lift {Op' : Type u} {Ans' : Op' → Type v} (f : Op → Op')
    (g : ∀ op, Ans' (f op) → Ans op) : Prog Op Ans α → Prog Op' Ans' α
  | .ret a => .ret a
  | .ask op k => .ask (f op) fun r => (k (g op r)).lift f g

def Prog.Asks (P : Op → Prop) : Prog Op Ans α → Prop
  | .ret _ => True
  | .ask op k => P op ∧ ∀ r, (k r).Asks P

section Asking

variable {P : Op → Prop} {ε γ δ : Type v}

theorem asks_bind {p : Prog Op Ans α} {f : α → Prog Op Ans β} (hp : p.Asks P)
    (hf : ∀ a, (f a).Asks P) : (p.bind f).Asks P := by
  induction p with
  | ret a => exact hf a
  | ask op k ih => exact ⟨hp.1, fun r => ih r (hp.2 r)⟩

theorem asks_lift {Op' : Type u} {Ans' : Op' → Type v} {f : Op → Op'}
    {g : ∀ op, Ans' (f op) → Ans op} {P : Op' → Prop} (p : Prog Op Ans α)
    (h : ∀ op, P (f op)) : (p.lift f g).Asks P := by
  induction p with
  | ret a => exact trivial
  | ask op k ih => exact ⟨h op, fun r => ih (g op r)⟩

theorem asks_client_bind {x : ExceptT ε (Prog Op Ans) γ} {f : γ → ExceptT ε (Prog Op Ans) δ}
    (hx : x.run.Asks P) (hf : ∀ a, (f a).run.Asks P) : (x >>= f).run.Asks P := by
  apply asks_bind hx
  rintro (e | a)
  · exact trivial
  · exact hf a

theorem asks_catch {x : ExceptT ε (Prog Op Ans) γ} {f : ε → ExceptT ε (Prog Op Ans) γ}
    (hx : x.run.Asks P) (hf : ∀ e, (f e).run.Asks P) : (tryCatch x f).run.Asks P := by
  apply asks_bind hx
  rintro (e | a)
  · exact hf e
  · exact trivial

theorem asks_perform {op : Op} (h : P op) :
    (perform op : ExceptT ε (Prog Op Ans) (Ans op)).run.Asks P :=
  ⟨h, fun _ => trivial⟩

end Asking

/-- What a failed call throws, and whether it has been executed and only its answer was lost. -/
structure Failure (ε : Type*) where
  error : ε
  executed : Bool

/-- A client on its own. Where fails says so, the n-th call fails. -/
def Prog.alone {W : Type*} {Res : Op → Type v} {ε : Type v}
    (answer : (op : Op) → W → Except ε (Res op) × W) (fails : Nat → Option (Failure ε)) :
    Prog Op (fun op => Except ε (Res op)) α → Nat → W → α × W
  | .ret a, _, w => (a, w)
  | .ask op k, n, w =>
    match fails n with
    | some failure =>
      let w := if failure.executed then (answer op w).2 else w
      (k (.error failure.error)).alone answer fails (n + 1) w
    | none => (k (answer op w).1).alone answer fails (n + 1) (answer op w).2

section Alone

variable {W : Type*} {Res : Op → Type v} {ε γ δ : Type v}
  {answer : (op : Op) → W → Except ε (Res op) × W} {fails : Nat → Option (Failure ε)} {n : Nat}
  {w : W}

theorem alone_failed {op : Op} {f : Res op → Client Op Res ε γ} {failure : Failure ε}
    (h : fails n = some failure) : (call op >>= f).run.alone answer fails n w =
      (.error failure.error, if failure.executed then (answer op w).2 else w) := by
  change (Prog.ask op _).alone answer fails n w = _
  rw [Prog.alone, h]
  rfl

theorem alone_refused {op : Op} {f : Res op → Client Op Res ε γ} {e : ε} {w' : W}
    (h : fails n = none) (hop : answer op w = (.error e, w')) :
    (call op >>= f).run.alone answer fails n w = (.error e, w') := by
  change (Prog.ask op _).alone answer fails n w = _
  rw [Prog.alone, h]
  simp only [hop]
  rfl

theorem alone_answered {op : Op} {f : Res op → Client Op Res ε γ} {r : Res op} {w' : W}
    (h : fails n = none) (hop : answer op w = (.ok r, w')) :
    (call op >>= f).run.alone answer fails n w =
      (f r).run.alone answer fails (n + 1) w' := by
  change (Prog.ask op _).alone answer fails n w = _
  rw [Prog.alone, h]
  simp only [hop]
  rfl

end Alone

/-- An invariant of the shared world, and for each thread what it may change (guar) and what
may change between two of its calls (rely). -/
structure Protocol (Tid : Type*) (W : Type*) where
  inv : W → Prop
  rely : Tid → W → W → Prop
  guar : Tid → W → W → Prop
  refl : ∀ i w, rely i w w
  trans : ∀ i {w₁ w₂ w₃}, rely i w₁ w₂ → rely i w₂ w₃ → rely i w₁ w₃
  compatible : ∀ {i j w w'}, j ≠ i → guar i w w' → rely j w w'

def Protocol.Allows {Tid W : Type*} (P : Protocol Tid W) (i : Tid) (w w' : W) : Prop :=
  P.inv w' ∧ P.guar i w w'

def Protocol.Stable {Tid W : Type*} (P : Protocol Tid W) (i : Tid) (F : W → Prop) : Prop :=
  ∀ {w w'}, P.rely i w w' → F w → F w'

section Safety

variable {Tid W : Type*} (P : Protocol Tid W)
  (step : Tid → W → (op : Op) → Ans op → W → Prop) (i : Tid)

/-- Whatever the environment answers and the others do, every call of the program keeps the
protocol, and Q holds of the result. -/
def Safe (Q : α → W → Prop) : Prog Op Ans α → W → Prop
  | .ret a, w => ∀ w₁, P.rely i w w₁ → P.inv w₁ → Q a w₁
  | .ask op k, w => ∀ w₁, P.rely i w w₁ → P.inv w₁ → ∀ r w₂, step i w₁ op r w₂ →
      P.Allows i w₁ w₂ ∧ Safe Q (k r) w₂

variable {P step i} {Q Q' : α → W → Prop}

theorem safe_stable {p : Prog Op Ans α} {w w' : W} (h : Safe P step i Q p w)
    (hr : P.rely i w w') : Safe P step i Q p w' := by
  cases p with
  | ret a => exact fun w₁ h₁ => h w₁ (P.trans i hr h₁)
  | ask op k => exact fun w₁ h₁ => h w₁ (P.trans i hr h₁)

theorem safe_later {p : Prog Op Ans α} {w : W}
    (h : ∀ w₁, P.rely i w w₁ → P.inv w₁ → Safe P step i Q p w₁) : Safe P step i Q p w := by
  cases p with
  | ret a => exact fun w₁ hr hi => h w₁ hr hi w₁ (P.refl i w₁) hi
  | ask op k => exact fun w₁ hr hi => h w₁ hr hi w₁ (P.refl i w₁) hi

theorem safe_mono {p : Prog Op Ans α} {w : W} (h : Safe P step i Q p w)
    (hq : ∀ a w, P.inv w → Q a w → Q' a w) : Safe P step i Q' p w := by
  induction p generalizing w with
  | ret a => exact fun w₁ hr hi => hq a w₁ hi (h w₁ hr hi)
  | ask op k ih =>
    intro w₁ hr hi r w₂ hs
    obtain ⟨ha, hk⟩ := h w₁ hr hi r w₂ hs
    exact ⟨ha, ih r hk⟩

theorem safe_bind {p : Prog Op Ans α} {f : α → Prog Op Ans β} {R : β → W → Prop} {w : W}
    (h : Safe P step i (fun a w => Safe P step i R (f a) w) p w) :
    Safe P step i R (p.bind f) w := by
  induction p generalizing w with
  | ret a => exact safe_later h
  | ask op k ih =>
    intro w₁ hr hi r w₂ hs
    obtain ⟨ha, hk⟩ := h w₁ hr hi r w₂ hs
    exact ⟨ha, ih r hk⟩

/-- A lifted program is safe when every call of the larger vocabulary is, seen through proj,
a call of the smaller one, and keeps the larger protocol and the frame F where the smaller
protocol is kept. -/
theorem safe_lift {Op' : Type u} {Ans' : Op' → Type v} {W' : Type*} {P' : Protocol Tid W'}
    {step' : Tid → W' → (op : Op') → Ans' op → W' → Prop} (f : Op → Op')
    (g : ∀ op, Ans' (f op) → Ans op) (proj : W' → W) {F : W' → Prop} (hF : P'.Stable i F)
    (hr : ∀ {w w'}, P'.rely i w w' → P.rely i (proj w) (proj w'))
    (hi : ∀ {w}, P'.inv w → P.inv (proj w))
    (hs : ∀ {w op r w'}, P'.inv w → F w → step' i w (f op) r w' →
      step i (proj w) op (g op r) (proj w') ∧
        (P.Allows i (proj w) (proj w') → P'.Allows i w w' ∧ F w'))
    {p : Prog Op Ans α} {w : W'} (h : Safe P step i Q p (proj w)) (hw : F w) :
    Safe P' step' i (fun a w => Q a (proj w) ∧ F w) (p.lift f g) w := by
  induction p generalizing w with
  | ret a => exact fun w₁ hr₁ hi₁ => ⟨h (proj w₁) (hr hr₁) (hi hi₁), hF hr₁ hw⟩
  | ask op k ih =>
    intro w₁ hr₁ hi₁ r w₂ hs₁
    obtain ⟨hstep, hback⟩ := hs hi₁ (hF hr₁ hw) hs₁
    obtain ⟨ha, hk⟩ := h (proj w₁) (hr hr₁) (hi hi₁) (g op r) (proj w₂) hstep
    obtain ⟨ha', hw₂⟩ := hback ha
    exact ⟨ha', ih _ hk hw₂⟩

end Safety

section Clients

variable {Tid W : Type*} {P : Protocol Tid W} {ε γ δ : Type v}
  {step : Tid → W → (op : Op) → Ans op → W → Prop} {i : Tid}
  {Q : Except ε γ → W → Prop} {w : W}

theorem safe_pure {a : γ} (h : ∀ w₁, P.rely i w w₁ → P.inv w₁ → Q (.ok a) w₁) :
    Safe P step i Q (pure a : ExceptT ε (Prog Op Ans) γ).run w := h

theorem safe_throw {e : ε} (h : ∀ w₁, P.rely i w w₁ → P.inv w₁ → Q (.error e) w₁) :
    Safe P step i Q (throw e : ExceptT ε (Prog Op Ans) γ).run w := h

theorem safe_call {Res : Op → Type v} {op : Op} {Q : Except ε (Res op) → W → Prop}
    {step : Tid → W → (op : Op) → Except ε (Res op) → W → Prop}
    (h : ∀ w₁, P.rely i w w₁ → P.inv w₁ → ∀ r w₂, step i w₁ op r w₂ →
      P.Allows i w₁ w₂ ∧ ∀ w₃, P.rely i w₂ w₃ → P.inv w₃ → Q r w₃) :
    Safe P step i Q (call op : Client Op Res ε (Res op)).run w := h

theorem safe_perform_bind {op : Op} {f : Ans op → ExceptT ε (Prog Op Ans) γ} {F : W → Prop}
    (hF : P.Stable i F) (hw : F w)
    (h : ∀ w₁ r w₂, P.inv w₁ → F w₁ → step i w₁ op r w₂ →
      P.Allows i w₁ w₂ ∧ Safe P step i Q (f r).run w₂) :
    Safe P step i Q (perform op >>= f).run w :=
  fun w₁ hr hi r w₂ hs => h w₁ r w₂ hi (hF hr hw) hs

theorem safe_client_bind {x : ExceptT ε (Prog Op Ans) γ} {f : γ → ExceptT ε (Prog Op Ans) δ}
    {R : Except ε δ → W → Prop}
    (h : Safe P step i (fun r w => match r with
      | .ok a => Safe P step i R (f a).run w
      | .error e => Safe P step i R (throw e : ExceptT ε (Prog Op Ans) δ).run w) x.run w) :
    Safe P step i R (x >>= f).run w := by
  apply safe_bind
  apply safe_mono h
  rintro (e | a) w₁ _ hr
  · exact hr
  · exact hr

/-- A condition on returned values only. -/
def OnOk (Q : γ → W → Prop) : Except ε γ → W → Prop
  | .ok a, w => Q a w
  | .error _, _ => True

theorem safe_return {a : γ} {Q : γ → W → Prop} (hQ : P.Stable i (Q a)) (h : Q a w) :
    Safe P step i (OnOk Q) (pure a : ExceptT ε (Prog Op Ans) γ).run w :=
  safe_pure fun _ hr _ => hQ hr h

theorem safe_raise {e : ε} {Q : γ → W → Prop} :
    Safe P step i (OnOk Q) (throw e : ExceptT ε (Prog Op Ans) γ).run w :=
  safe_throw fun _ _ _ => trivial

theorem safe_bind_ok {x : ExceptT ε (Prog Op Ans) γ} {f : γ → ExceptT ε (Prog Op Ans) δ}
    {Q : γ → W → Prop} {R : δ → W → Prop} (h : Safe P step i (OnOk Q) x.run w)
    (hf : ∀ a w, Q a w → Safe P step i (OnOk R) (f a).run w) :
    Safe P step i (OnOk R) (x >>= f).run w := by
  apply safe_client_bind
  apply safe_mono h
  rintro (e | a) w₁ _ hr
  · exact safe_raise
  · exact hf a w₁ hr

theorem safe_catch {x : ExceptT ε (Prog Op Ans) γ} {f : ε → ExceptT ε (Prog Op Ans) γ}
    (h : Safe P step i (fun r w => match r with
      | .ok a => Safe P step i Q (pure a : ExceptT ε (Prog Op Ans) γ).run w
      | .error e => Safe P step i Q (f e).run w) x.run w) :
    Safe P step i Q (tryCatch x f).run w := by
  apply safe_bind
  apply safe_mono h
  rintro (e | a) w₁ _ hr
  · exact hr
  · exact hr

theorem safe_ensuring {x : ExceptT ε (Prog Op Ans) γ} {fin : ExceptT ε (Prog Op Ans) δ}
    (hQ : ∀ r, P.Stable i (Q r))
    (h : Safe P step i (fun r w => Safe P step i (fun _ w => Q r w) fin.run w) x.run w) :
    Safe P step i Q (ensuring x fin).run w := by
  apply safe_bind
  apply safe_mono h
  intro r w₁ _ hr
  apply safe_bind
  apply safe_mono hr
  intro _ w₂ _ hq
  exact fun w₃ hk _ => hQ r hk hq

end Clients

/-- Idle threads start jobs; a running job calls the environment, finishes or is killed. -/
structure Machine (Tid W : Type*) (Op : Type u) (Ans : Op → Type v) (α : Type w)
    (J : Type*) where
  step : Tid → W → (op : Op) → Ans op → W → Prop
  prog : Tid → J → Prog Op Ans α
  start : Tid → J → W → W → Prop
  finish : Tid → α → W → W → Prop
  crash : Tid → W → W → Prop
  outside : W → W → Prop

structure Pool (Tid W : Type*) (Op : Type u) (Ans : Op → Type v) (α : Type w) where
  world : W
  thread : Tid → Option (Prog Op Ans α)

section Machines

variable {Tid W J : Type*} [DecidableEq Tid]

inductive Machine.Step (M : Machine Tid W Op Ans α J) :
    Pool Tid W Op Ans α → Pool Tid W Op Ans α → Prop where
  | start (s i j w') : s.thread i = none → M.start i j s.world w' →
      Step M s ⟨w', Function.update s.thread i (some (M.prog i j))⟩
  | call (s i op k r w') : s.thread i = some (.ask op k) → M.step i s.world op r w' →
      Step M s ⟨w', Function.update s.thread i (some (k r))⟩
  | finish (s i a w') : s.thread i = some (.ret a) → M.finish i a s.world w' →
      Step M s ⟨w', Function.update s.thread i none⟩
  | crash (s i w') : M.crash i s.world w' →
      Step M s ⟨w', Function.update s.thread i none⟩
  | outside (s w') : M.outside s.world w' → Step M s ⟨w', s.thread⟩

inductive Machine.Reachable (M : Machine Tid W Op Ans α J) (w₀ : W) :
    Pool Tid W Op Ans α → Prop where
  | init : Reachable M w₀ ⟨w₀, fun _ => none⟩
  | next {s t} : Reachable M w₀ s → M.Step s t → Reachable M w₀ t

/-- Consecutive calls of one thread, up to the rest of its program. -/
inductive CallSeq (step : Tid → W → (op : Op) → Ans op → W → Prop) (i : Tid) :
    Prog Op Ans α → W → Prog Op Ans α → W → Prop where
  | done (p w) : CallSeq step i p w p w
  | call {op k w w₁ q w₂} (r : Ans op) : step i w op r w₁ → CallSeq step i (k r) w₁ q w₂ →
      CallSeq step i (.ask op k) w q w₂

omit [DecidableEq Tid] in
theorem exists_call {step : Tid → W → (op : Op) → Ans op → W → Prop} {i : Tid} {op : Op}
    {k : Ans op → Prog Op Ans α} {q : Prog Op Ans α} {w w₁ : W} (r : Ans op)
    (hs : step i w op r w₁) (h : ∃ w₂, CallSeq step i (k r) w₁ q w₂) :
    ∃ w₂, CallSeq step i (.ask op k) w q w₂ :=
  h.imp fun _ => .call r hs

theorem Machine.Reachable.calls {M : Machine Tid W Op Ans α J} {w₀ : W}
    {s : Pool Tid W Op Ans α} (hs : M.Reachable w₀ s) {i : Tid} {p q : Prog Op Ans α} {w : W}
    (hp : s.thread i = some p) (h : CallSeq M.step i p s.world q w) :
    M.Reachable w₀ ⟨w, Function.update s.thread i (some q)⟩ := by
  generalize hw : s.world = v at h
  induction h generalizing s with
  | done p v =>
    subst hw
    rwa [← hp, Function.update_eq_self]
  | @call op k v v₁ q v₂ r hstep _ ih =>
    subst hw
    have hnext := hs.next (.call s i op k r v₁ hp hstep)
    simpa using ih hnext (by simp) rfl

/-- One job of an idle thread, from its start to its end. -/
theorem Machine.Reachable.job {M : Machine Tid W Op Ans α J} {w₀ : W} {s : Pool Tid W Op Ans α}
    (hs : M.Reachable w₀ s) {i : Tid} {j : J} {a : α} {w₁ w₂ w₃ : W} (hidle : s.thread i = none)
    (hstart : M.start i j s.world w₁) (hcalls : CallSeq M.step i (M.prog i j) w₁ (.ret a) w₂)
    (hfinish : M.finish i a w₂ w₃) : M.Reachable w₀ ⟨w₃, s.thread⟩ := by
  have hrunning := hs.next (.start s i j w₁ hidle hstart)
  have hended := hrunning.calls (by simp) hcalls
  have hfinal := hended.next (.finish _ i a w₃ (by simp) hfinish)
  simpa [← hidle] using hfinal

/-- The proof obligations of a machine, one for each kind of step; calls are covered by the
safety of the jobs. -/
structure Machine.Verified (M : Machine Tid W Op Ans α J) (P : Protocol Tid W)
    (idle : Tid → W → Prop) (post : Tid → α → W → Prop) : Prop where
  idle_stable : ∀ {i w w'}, idle i w → P.rely i w w' → idle i w'
  start : ∀ {i j w w'}, P.inv w → idle i w → M.start i j w w' →
    P.Allows i w w' ∧ Safe P M.step i (post i) (M.prog i j) w'
  finish : ∀ {i a w w'}, P.inv w → post i a w → M.finish i a w w' → P.Allows i w w' ∧ idle i w'
  crash : ∀ {i w w'}, P.inv w → M.crash i w w' → P.Allows i w w' ∧ idle i w'
  outside : ∀ {w w'}, P.inv w → M.outside w w' → P.inv w' ∧ ∀ i, P.rely i w w'

variable {M : Machine Tid W Op Ans α J} {P : Protocol Tid W} {idle : Tid → W → Prop}
  {post : Tid → α → W → Prop}

def ThreadOk (M : Machine Tid W Op Ans α J) (P : Protocol Tid W) (idle : Tid → W → Prop)
    (post : Tid → α → W → Prop) (i : Tid) (w : W) : Option (Prog Op Ans α) → Prop
  | none => idle i w
  | some p => Safe P M.step i (post i) p w

omit [DecidableEq Tid] in
theorem Machine.Verified.thread_stable (h : M.Verified P idle post) {i : Tid} {w w' : W}
    {t : Option (Prog Op Ans α)} (ht : ThreadOk M P idle post i w t) (hr : P.rely i w w') :
    ThreadOk M P idle post i w' t := by
  cases t with
  | none => exact h.idle_stable ht hr
  | some p => exact safe_stable ht hr

private theorem update_thread_ok (h : M.Verified P idle post) {s : Pool Tid W Op Ans α} {i : Tid}
    {w' : W} {t : Option (Prog Op Ans α)} (hs : ∀ j, ThreadOk M P idle post j s.world (s.thread j))
    (ha : P.guar i s.world w') (ht : ThreadOk M P idle post i w' t) (j : Tid) :
    ThreadOk M P idle post j w' (Function.update s.thread i t j) := by
  by_cases hj : j = i
  · subst hj
    simpa using ht
  · simpa [hj] using h.thread_stable (hs j) (P.compatible hj ha)

theorem Machine.Verified.step (h : M.Verified P idle post) {s t : Pool Tid W Op Ans α}
    (hi : P.inv s.world) (hs : ∀ j, ThreadOk M P idle post j s.world (s.thread j))
    (hst : M.Step s t) :
    P.inv t.world ∧ ∀ j, ThreadOk M P idle post j t.world (t.thread j) := by
  cases hst with
  | start i j w' hn hj =>
    have ht := hs i
    rw [hn] at ht
    obtain ⟨ha, hp⟩ := h.start hi ht hj
    exact ⟨ha.1, update_thread_ok h hs ha.2 hp⟩
  | call i op k r w' hk hc =>
    have ht := hs i
    rw [hk] at ht
    obtain ⟨ha, hp⟩ := ht s.world (P.refl i _) hi r w' hc
    exact ⟨ha.1, update_thread_ok h hs ha.2 hp⟩
  | finish i a w' hk hf =>
    have ht := hs i
    rw [hk] at ht
    obtain ⟨ha, hp⟩ := h.finish hi (ht s.world (P.refl i _) hi) hf
    exact ⟨ha.1, update_thread_ok h hs ha.2 hp⟩
  | crash i w' hc =>
    obtain ⟨ha, hp⟩ := h.crash hi hc
    exact ⟨ha.1, update_thread_ok h hs ha.2 hp⟩
  | outside w' ho =>
    obtain ⟨ha, hr⟩ := h.outside hi ho
    exact ⟨ha, fun j => h.thread_stable (hs j) (hr j)⟩

/-- Every reachable pool keeps the invariant, and every thread of it is safe or idle. -/
theorem Machine.Verified.reachable (h : M.Verified P idle post) {w₀ : W} (hi : P.inv w₀)
    (h₀ : ∀ i, idle i w₀) {s : Pool Tid W Op Ans α} (hs : M.Reachable w₀ s) :
    P.inv s.world ∧ ∀ i, ThreadOk M P idle post i s.world (s.thread i) := by
  induction hs with
  | init => exact ⟨hi, h₀⟩
  | next _ hst ih => exact h.step ih.1 ih.2 hst

end Machines

end Program
