import HaoShortLink.Program

/-! The calls of one run of a program, with the answers it got. A client that handles no exception
ends with the first that a call is answered with. -/
namespace CallTraces

open Program

universe u v w

section Runs

variable {Op : Type u} {Ans : Op → Type v} {α β : Type w}

abbrev Trace (Ans : Op → Type v) := List ((op : Op) × Ans op)

def Yields : Prog Op Ans α → Trace Ans → α → Prop
  | .ret a, l, r => l = [] ∧ r = a
  | .ask op k, l, r => ∃ answer rest, l = ⟨op, answer⟩ :: rest ∧ Yields (k answer) rest r

theorem yields_bind {p : Prog Op Ans α} {f : α → Prog Op Ans β} {l : Trace Ans} {r : β} :
    Yields (p.bind f) l r ↔ ∃ a l₁ l₂, l = l₁ ++ l₂ ∧ Yields p l₁ a ∧ Yields (f a) l₂ r := by
  induction p generalizing l with
  | ret a =>
    constructor
    · intro h
      exact ⟨a, [], l, rfl, ⟨rfl, rfl⟩, h⟩
    · rintro ⟨_, _, l₂, rfl, ⟨rfl, rfl⟩, h⟩
      exact h
  | ask op k ih =>
    constructor
    · rintro ⟨answer, rest, rfl, h⟩
      obtain ⟨a, l₁, l₂, rfl, hp, hf⟩ := (ih answer).mp h
      exact ⟨a, ⟨op, answer⟩ :: l₁, l₂, rfl, ⟨answer, l₁, rfl, hp⟩, hf⟩
    · rintro ⟨a, _, l₂, rfl, ⟨answer, l₁, rfl, hp⟩, hf⟩
      exact ⟨answer, l₁ ++ l₂, rfl, (ih answer).mpr ⟨a, l₁, l₂, rfl, hp, hf⟩⟩

theorem asks_yields {P : Op → Prop} {p : Prog Op Ans α} {l : Trace Ans} {r : α} (hp : p.Asks P)
    (h : Yields p l r) : ∀ c ∈ l, P c.1 := by
  induction p generalizing l with
  | ret a =>
    obtain ⟨rfl, -⟩ := h
    simp
  | ask op k ih =>
    obtain ⟨answer, rest, rfl, hrest⟩ := h
    exact List.forall_mem_cons.mpr ⟨hp.1, ih answer (hp.2 answer) hrest⟩

end Runs

section Exceptions

variable {Op : Type u} {Ans : Op → Type v} {ε γ δ : Type v} {l : Trace Ans}

theorem yields_perform {op : Op} {r : Except ε (Ans op)} :
    Yields (perform op : ExceptT ε (Prog Op Ans) (Ans op)).run l r ↔
      ∃ answer, l = [⟨op, answer⟩] ∧ r = .ok answer := by
  constructor
  · rintro ⟨answer, _, rfl, rfl, rfl⟩
    exact ⟨answer, rfl, rfl⟩
  · rintro ⟨answer, rfl, rfl⟩
    exact ⟨answer, [], rfl, rfl, rfl⟩

theorem yields_client_bind {x : ExceptT ε (Prog Op Ans) γ} {f : γ → ExceptT ε (Prog Op Ans) δ}
    {r : Except ε δ} :
    Yields (x >>= f).run l r ↔ (∃ e, Yields x.run l (.error e) ∧ r = .error e) ∨
      ∃ a l₁ l₂, l = l₁ ++ l₂ ∧ Yields x.run l₁ (.ok a) ∧ Yields (f a).run l₂ r := by
  refine yields_bind.trans ⟨?_, ?_⟩
  · rintro ⟨e | a, l₁, l₂, rfl, hx, hf⟩
    · obtain ⟨rfl, rfl⟩ := hf
      rw [List.append_nil]
      exact .inl ⟨e, hx, rfl⟩
    · exact .inr ⟨a, l₁, l₂, rfl, hx, hf⟩
  · rintro (⟨e, hx, rfl⟩ | ⟨a, l₁, l₂, rfl, hx, hf⟩)
    · exact ⟨.error e, l, [], by simp, hx, rfl, rfl⟩
    · exact ⟨.ok a, l₁, l₂, rfl, hx, hf⟩

theorem yields_catch {x : ExceptT ε (Prog Op Ans) γ} {f : ε → ExceptT ε (Prog Op Ans) γ}
    {r : Except ε γ} :
    Yields (tryCatch x f).run l r ↔ (∃ a, Yields x.run l (.ok a) ∧ r = .ok a) ∨
      ∃ e l₁ l₂, l = l₁ ++ l₂ ∧ Yields x.run l₁ (.error e) ∧ Yields (f e).run l₂ r := by
  refine yields_bind.trans ⟨?_, ?_⟩
  · rintro ⟨e | a, l₁, l₂, rfl, hx, hf⟩
    · exact .inr ⟨e, l₁, l₂, rfl, hx, hf⟩
    · obtain ⟨rfl, rfl⟩ := hf
      rw [List.append_nil]
      exact .inl ⟨a, hx, rfl⟩
  · rintro (⟨a, hx, rfl⟩ | ⟨e, l₁, l₂, rfl, hx, hf⟩)
    · exact ⟨.ok a, l, [], by simp, hx, rfl, rfl⟩
    · exact ⟨.error e, l₁, l₂, rfl, hx, hf⟩

theorem yields_ensuring {x : ExceptT ε (Prog Op Ans) γ} {fin : ExceptT ε (Prog Op Ans) δ}
    {r : Except ε γ} :
    Yields (ensuring x fin).run l r ↔
      ∃ l₁ l₂ r', l = l₁ ++ l₂ ∧ Yields x.run l₁ r ∧ Yields fin.run l₂ r' := by
  refine yields_bind.trans ⟨?_, ?_⟩
  · rintro ⟨r₁, l₁, l₂, rfl, hx, hfin⟩
    obtain ⟨r', l₃, _, rfl, hfin', rfl, rfl⟩ := yields_bind.mp hfin
    exact ⟨l₁, l₃, r', by simp, hx, hfin'⟩
  · rintro ⟨l₁, l₂, r', rfl, hx, hfin⟩
    exact ⟨r, l₁, l₂, rfl, hx, yields_bind.mpr ⟨r', l₂, [], by simp, hfin, rfl, rfl⟩⟩

end Exceptions

section Clients

variable {Op : Type u} {Res : Op → Type v} {ε γ δ : Type v}
  {l : Trace fun op => Except ε (Res op)}

theorem yields_call {op : Op} {r : Except ε (Res op)} :
    Yields (call op : Client Op Res ε (Res op)).run l r ↔ l = [⟨op, r⟩] := by
  constructor
  · rintro ⟨answer, _, rfl, rfl, rfl⟩
    rfl
  · rintro rfl
    exact ⟨r, [], rfl, rfl, rfl⟩

/-- A call to op was answered with e. -/
def Raised (l : Trace fun op => Except ε (Res op)) (op : Op) (e : ε) : Prop :=
  ⟨op, .error e⟩ ∈ l

theorem raised_append {l₁ l₂ : Trace fun op => Except ε (Res op)} {op : Op} {e : ε} :
    Raised (l₁ ++ l₂) op e ↔ Raised l₁ op e ∨ Raised l₂ op e := List.mem_append

/-- Whatever a call is answered with that is an exception ends the program. -/
def HandsOn (x : Client Op Res ε γ) : Prop :=
  ∀ l r op e, Yields x.run l r → Raised l op e → r = .error e

theorem handsOn_pure (a : γ) : HandsOn (pure a : Client Op Res ε γ) := by
  rintro l r op e ⟨rfl, _⟩ hraised
  cases hraised

theorem handsOn_throw (e : ε) : HandsOn (throw e : Client Op Res ε γ) := by
  rintro l r op e' ⟨rfl, _⟩ hraised
  cases hraised

theorem raised_call {op op' : Op} {r : Except ε (Res op)} {e : ε}
    (h : Yields (call op : Client Op Res ε (Res op)).run l r) (hraised : Raised l op' e) :
    op' = op ∧ r = .error e := by
  obtain rfl := yields_call.mp h
  cases List.mem_singleton.mp hraised
  exact ⟨rfl, rfl⟩

theorem handsOn_call (op : Op) : HandsOn (call op : Client Op Res ε (Res op)) :=
  fun _ _ _ _ h hraised => (raised_call h hraised).2

theorem handsOn_bind {x : Client Op Res ε γ} {f : γ → Client Op Res ε δ} (hx : HandsOn x)
    (hf : ∀ a, HandsOn (f a)) : HandsOn (x >>= f) := by
  intro l r op e h hraised
  rcases yields_client_bind.mp h with ⟨e', hx', rfl⟩ | ⟨a, l₁, l₂, rfl, hx', hf'⟩
  · cases hx l _ op e hx' hraised
    rfl
  · rcases raised_append.mp hraised with hraised | hraised
    · cases hx l₁ _ op e hx' hraised
    · exact hf a l₂ r op e hf' hraised

end Clients

end CallTraces
