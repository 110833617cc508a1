import HaoShortLink.SqlSessions

/-! Rules for the calls of a program that runs in one transaction on a connection of its own.
Each statement either moves the call on in its transaction, or fails and leaves nothing of it
committed. -/
namespace SessionCalls

open Program SqlSessions

section Assertions

variable {Row V U Tid Conn J ε : Type} {S : Schema Row V U} {good : J → ℕ → Row → Prop}
  {rows₀ : Rows Row} {i : Tid} {j : J} {c : Conn} {p : Rows Row} {l : ℕ}
  {w w' : World Tid Conn J Row}

def Holds (i : Tid) (c : Conn) (w : World Tid Conn J Row) : Prop :=
  ∀ d, w.holder d = some i ↔ d = c

/-- The committed rows of i are those of p. -/
def Wrote (i : Tid) (p : Rows Row) (w : World Tid Conn J Row) : Prop :=
  ∀ k, (w.author k = some i → w.rows k = p k) ∧ (p k ≠ none → w.author k = some i)

structure Idle (i : Tid) (w : World Tid Conn J Row) : Prop where
  holds : ∀ d, w.holder d ≠ some i
  untouched : ∀ k, w.author k ≠ some i

/-- Connected, and no transaction yet. -/
structure Ready (i : Tid) (j : J) (c : Conn) (w : World Tid Conn J Row) : Prop where
  asked : w.asked i = some j
  holds : Holds i c w
  resting : (w.session c).begun = false
  untouched : ∀ k, w.author k ≠ some i

/-- In a transaction that wrote p, unless its session was lost. -/
structure Within (i : Tid) (j : J) (c : Conn) (p : Rows Row) (l : ℕ)
    (w : World Tid Conn J Row) : Prop where
  asked : w.asked i = some j
  holds : Holds i c w
  session : w.session c = .active p l ∨ w.session c = .lost true
  unseen : ∀ k, w.author k = some i → w.rows k = none ∧ p k ≠ none

structure Failed (i : Tid) (c : Conn) (w : World Tid Conn J Row) : Prop where
  holds : Holds i c w
  unseen : ∀ k, w.author k = some i → w.rows k = none

structure Closed (i : Tid) (c : Conn) (p : Rows Row) (w : World Tid Conn J Row) : Prop where
  holds : Holds i c w
  resting : (w.session c).begun = false
  wrote : Wrote i p w

theorem holds_stable (h : Holds i c w) (hk : Keeps i w w') : Holds i c w' :=
  fun d => (hk.holder d).trans (h d)

theorem wrote_stable (h : Wrote i p w) (hk : Keeps i w w') : Wrote i p w' := by
  intro k
  refine ⟨fun hauthor => ?_, fun hp => (hk.author k).mpr ((h k).2 hp)⟩
  have hauthor := (hk.author k).mp hauthor
  rw [hk.rows k hauthor]
  exact (h k).1 hauthor

theorem resting_stable (hc : Holds i c w) (h : (w.session c).begun = false)
    (hk : Keeps i w w') : (w'.session c).begun = false := by
  rcases hk.session c ((hc c).mpr rfl) with hs | ⟨hs, _⟩ | ⟨_, hs⟩
  · rw [hs]
    exact h
  · rw [h] at hs
    cases hs
  · exact hs

theorem idle_stable (h : Idle i w) (hk : Keeps i w w') : Idle i w' where
  holds d hd := h.holds d ((hk.holder d).mp hd)
  untouched k hauthor := h.untouched k ((hk.author k).mp hauthor)

theorem Ready.stable (h : Ready i j c w) (hk : Keeps i w w') : Ready i j c w' where
  asked := hk.asked.trans h.asked
  holds := holds_stable h.holds hk
  resting := resting_stable h.holds h.resting hk
  untouched k hauthor := h.untouched k ((hk.author k).mp hauthor)

theorem Within.stable (h : Within i j c p l w) (hk : Keeps i w w') : Within i j c p l w' where
  asked := hk.asked.trans h.asked
  holds := holds_stable h.holds hk
  session := by
    rcases hk.session c ((h.holds c).mpr rfl) with hs | ⟨_, hs⟩ | ⟨hs, _⟩
    · rw [hs]
      exact h.session
    · exact .inr hs
    · rcases h.session with hw | hw
      · rw [hw] at hs
        cases hs
      · rw [hw] at hs
        cases hs
  unseen k hauthor := by
    have hauthor := (hk.author k).mp hauthor
    rw [hk.rows k hauthor]
    exact h.unseen k hauthor

theorem Failed.stable (h : Failed i c w) (hk : Keeps i w w') : Failed i c w' where
  holds := holds_stable h.holds hk
  unseen k hauthor := by
    have hauthor := (hk.author k).mp hauthor
    rw [hk.rows k hauthor]
    exact h.unseen k hauthor

theorem Closed.stable (h : Closed i c p w) (hk : Keeps i w w') : Closed i c p w' where
  holds := holds_stable h.holds hk
  resting := resting_stable h.holds h.resting hk
  wrote := wrote_stable h.wrote hk

theorem Ready.failed (h : Ready i j c w) : Failed i c w where
  holds := h.holds
  unseen k hauthor := absurd hauthor (h.untouched k)

theorem Within.failed (h : Within i j c p l w) : Failed i c w where
  holds := h.holds
  unseen k hauthor := (h.unseen k hauthor).1

end Assertions

section Statements

variable {Row V U Tid Conn J ε : Type} [DecidableEq Conn] {S : Schema Row V U}
  {good : J → ℕ → Row → Prop} {rows₀ : Rows Row} {i : Tid} {j : J} {c : Conn} {p : Rows Row}
  {l : ℕ} {w w' : World Tid Conn J Row}

theorem step_error {op : SqlOp Conn V U} {e : ε} (hop : op.Refusable)
    (h : Step S i w op (.error e) w') : ∃ n, w.nextKey ≤ n ∧
      (w' = { w with nextKey := n } ∨ ∃ c p l, op.conn = some c ∧ w.session c = .active p l ∧
        w' = { w with nextKey := n }.setSession c (.idle l)) := by
  cases h with
  | refused _ hn => exact ⟨_, hn, .inl rfl⟩
  | aborted _ hc hs hn => exact ⟨_, hn, .inr ⟨_, _, _, hc, hs, rfl⟩⟩
  | rollbackLost => exact hop.elim

theorem acts_setSession (i : Tid) (w : World Tid Conn J Row) (c : Conn) (s : Session Row)
    (n : ℕ) : Acts i c w ({ w with nextKey := n }.setSession c s) where
  session _ hd := World.setSession_of_ne _ _ hd
  holder := rfl
  asked := rfl
  author _ _ _ := Iff.rfl
  rows _ _ _ _ := rfl

theorem gives_up {s : Session Row} {n : ℕ} (h : Sound S good rows₀ w) (hc : Holds i c w)
    (hn : w.nextKey ≤ n) (hs : ∀ k, s.writes k = none) :
    (protocol Tid Conn S good rows₀).Allows i w ({ w with nextKey := n }.setSession c s) :=
  (acts_setSession i w c s n).allows ((hc c).mpr rfl) (h.setSession hn hs fun hfree =>
    absurd (((hc c).mpr rfl).symm.trans hfree) (Option.some_ne_none i))

omit [DecidableEq Conn] in
theorem counts {n : ℕ} (h : Sound S good rows₀ w) (hn : w.nextKey ≤ n) :
    (protocol Tid Conn S good rows₀).Allows i w { w with nextKey := n } := by
  refine ⟨h.shrinks ⟨rfl, rfl, fun _ _ hj => hj, hn, fun _ _ _ hrow => ⟨hrow, rfl⟩, h.resting⟩, ?_⟩
  intro j _
  exact ⟨fun _ => Iff.rfl, fun _ _ => rfl, fun _ => Iff.rfl, fun _ _ => .inl rfl, rfl⟩

/-- What a statement is refused for is the same for all of them. -/
theorem safe_statement {op : SqlOp Conn V U} {F : World Tid Conn J Row → Prop}
    {Q : Except ε (op.Reply Row) → World Tid Conn J Row → Prop} (hop : op.Refusable)
    (hconn : ∀ d, op.conn = some d → d = c)
    (hF : (protocol Tid Conn S good rows₀).Stable i F) (hfailed : ∀ w, F w → Failed i c w)
    (hw : F w)
    (hok : ∀ w₁ r w₂, Sound S good rows₀ w₁ → F w₁ →
      Step S i w₁ op (.ok r : Except ε (op.Reply Row)) w₂ →
      (protocol Tid Conn S good rows₀).Allows i w₁ w₂ ∧ ∀ w₃, Keeps i w₂ w₃ → Q (.ok r) w₃)
    (herr : ∀ e w', Failed i c w' → Q (.error e) w') :
    Safe (protocol Tid Conn S good rows₀) (Step S) i Q
      (call op : Client _ (fun op : SqlOp Conn V U => op.Reply Row) ε _).run w := by
  apply safe_call
  intro w₁ hr hi r w₂ hs
  have h₁ : F w₁ := hF hr hw
  cases r with
  | ok r =>
    obtain ⟨ha, hq⟩ := hok w₁ r w₂ hi h₁ hs
    exact ⟨ha, fun w₃ hk _ => hq w₃ hk⟩
  | error e =>
    have hf := hfailed w₁ h₁
    obtain ⟨n, hn, rfl | ⟨d, q, m, hd, hactive, rfl⟩⟩ := step_error hop hs
    · have hf₂ : Failed i c { w₁ with nextKey := n } := ⟨hf.holds, hf.unseen⟩
      exact ⟨counts hi hn, fun w₃ hk _ => herr e w₃ (hf₂.stable hk)⟩
    · obtain rfl := hconn d hd
      have hf₂ : Failed i d ({ w₁ with nextKey := n }.setSession d (.idle m)) :=
        ⟨hf.holds, hf.unseen⟩
      exact ⟨gives_up hi hf.holds hn fun _ => rfl, fun w₃ hk _ => herr e w₃ (hf₂.stable hk)⟩

theorem safe_startTransaction {Q : Except ε Unit → World Tid Conn J Row → Prop}
    (h : Ready i j c w)
    (hok : ∀ l w', Within i j c (fun _ => none) l w' → Q (.ok ()) w')
    (herr : ∀ e w', Failed i c w' → Q (.error e) w') :
    Safe (protocol Tid Conn S good rows₀) (Step S) i Q
      (startTransaction c : SqlClient Conn V U Row ε Unit).run w := by
  refine safe_statement (c := c) trivial (fun d hd => (Option.some.inj hd).symm)
    (fun hk hw => Ready.stable hw hk) (fun w hw => Ready.failed hw) h ?_ herr
  intro w₁ r w₂ hi h₁ hs
  cases hs with
  | @start _ l hidle =>
    have hnext : Within i j c (fun _ => none) l (w₁.setSession c (.active (fun _ => none) l)) :=
      ⟨h₁.asked, h₁.holds, .inl (World.setSession_self ..),
        fun k hauthor => absurd hauthor (h₁.untouched k)⟩
    exact ⟨gives_up (s := .active (fun _ => none) l) hi h₁.holds (Nat.le_refl _) fun _ => rfl,
      fun w₃ hk => hok l w₃ (hnext.stable hk)⟩
  | restart hactive =>
    have hresting := h₁.resting
    rw [hactive] at hresting
    cases hresting

omit [DecidableEq Conn] in
theorem Within.active (h : Within i j c p l w) {s : Session Row} (hs : w.session c = s)
    (hlost : s ≠ .lost true) : s = .active p l := by
  rcases h.session with hw | hw
  · exact hs.symm.trans hw
  · exact absurd (hs.symm.trans hw) hlost

theorem safe_within {op : SqlOp Conn V U}
    {Q : Except ε (op.Reply Row) → World Tid Conn J Row → Prop} (hop : op.Refusable)
    (hconn : ∀ d, op.conn = some d → d = c) (hw : Within i j c p l w)
    (hok : ∀ w₁ r w₂, Sound S good rows₀ w₁ → Within i j c p l w₁ →
      Step S i w₁ op (.ok r : Except ε (op.Reply Row)) w₂ →
      (protocol Tid Conn S good rows₀).Allows i w₁ w₂ ∧ ∀ w₃, Keeps i w₂ w₃ → Q (.ok r) w₃)
    (herr : ∀ e w', Failed i c w' → Q (.error e) w') :
    Safe (protocol Tid Conn S good rows₀) (Step S) i Q
      (call op : Client _ (fun op : SqlOp Conn V U => op.Reply Row) ε _).run w :=
  safe_statement hop hconn (fun hk hw => Within.stable hw hk) (fun _ hw => hw.failed) hw hok herr

theorem update_ne_none {k k' : ℕ} (row : Row) (h : k' = k ∨ p k' ≠ none) :
    Function.update p k (some row) k' ≠ none := by
  by_cases hk : k' = k
  · subst hk
    simp
  · rw [Function.update_of_ne hk]
    exact h.resolve_left hk

/-- Only call i takes the new key. -/
theorem acts_insert {k : ℕ} (s : Session Row) (h : Sound S good rows₀ w) (hk : w.nextKey ≤ k) :
    Acts i c w ((w.issue i k).setSession c s) := by
  refine ⟨fun d hd => World.setSession_of_ne _ _ hd, rfl, rfl, ?_, fun _ _ _ _ => rfl⟩
  intro k' i' hi'
  by_cases hk' : k' = k
  · subst hk'
    have hnone := (h.fresh k' hk).2
    have hsame : (w.issue i k').author k' = some i := Function.update_self ..
    simp [hnone, hsame, hi'.symm]
  · exact iff_of_eq (congrArg (· = some i') (Function.update_of_ne hk' _ _))

theorem Within.insert {k : ℕ} (h : Within i j c p l w) (hs : Sound S good rows₀ w)
    (hk : w.nextKey ≤ k) (row : Row) : Within i j c (Function.update p k (some row)) k
      ((w.issue i k).setSession c (.active (Function.update p k (some row)) k)) := by
  refine ⟨h.asked, h.holds, .inl (World.setSession_self ..), ?_⟩
  intro k' hauthor
  by_cases hk' : k' = k
  · subst hk'
    exact ⟨(hs.fresh k' hk).1, update_ne_none row (.inl rfl)⟩
  · have hauthor : w.author k' = some i := (Function.update_of_ne hk' _ _).symm.trans hauthor
    obtain ⟨hrows, hp⟩ := h.unseen k' hauthor
    exact ⟨hrows, update_ne_none row (.inr hp)⟩

theorem Within.update {k : ℕ} (h : Within i j c p l w) (row : Row) :
    Within i j c (Function.update p k (some row)) l
      (w.setSession c (.active (Function.update p k (some row)) l)) := by
  refine ⟨h.asked, h.holds, .inl (World.setSession_self ..), ?_⟩
  intro k' hauthor
  obtain ⟨hrows, hp⟩ := h.unseen k' hauthor
  exact ⟨hrows, update_ne_none row (.inr hp)⟩

theorem safe_insert {values : V} {Q : Except ε Unit → World Tid Conn J Row → Prop}
    (h : Within i j c p l w)
    (hok : ∀ k row w', S.inserts values k row →
      Within i j c (Function.update p k (some row)) k w' → Q (.ok ()) w')
    (herr : ∀ e w', Failed i c w' → Q (.error e) w') :
    Safe (protocol Tid Conn S good rows₀) (Step S) i Q
      (insert c values : SqlClient Conn V U Row ε Unit).run w := by
  refine safe_within trivial (fun d hd => (Option.some.inj hd).symm) h ?_ herr
  intro w₁ r w₂ hi h₁ hs
  have hc := (h₁.holds c).mpr rfl
  cases hs with
  | @insert _ q m _ k row hsession hk hinserts hadmits =>
    obtain ⟨rfl, rfl⟩ := Session.active.inj (h₁.active hsession (by simp))
    have hissued : ∀ k', Function.update w₁.author k (some i) k' = w₁.author k' ∨
        w₁.nextKey ≤ k' ∧ k' < k + 1 := by
      intro k'
      by_cases hk' : k' = k
      · subst hk'
        exact .inr ⟨hk, Nat.lt_succ_self k'⟩
      · exact .inl (Function.update_of_ne hk' _ _)
    have hsound := hi.write (m := k) hc hsession hadmits (Nat.le_succ_of_le hk) hissued
      (Function.update_self ..)
    exact ⟨(acts_insert _ hi hk).allows hc hsound,
      fun w₃ hkeeps => hok _ row w₃ hinserts ((h₁.insert hi hk row).stable hkeeps)⟩
  | insertNow hsession => cases h₁.active hsession (by simp)

theorem safe_lastInsertId {Q : Except ε (Option ℕ) → World Tid Conn J Row → Prop}
    (h : Within i j c p l w)
    (hok : ∀ w', Within i j c p l w' → Q (.ok (some l)) w' ∧ Q (.ok none) w')
    (herr : ∀ e w', Failed i c w' → Q (.error e) w') :
    Safe (protocol Tid Conn S good rows₀) (Step S) i Q
      (lastInsertId c : SqlClient Conn V U Row ε (Option ℕ)).run w := by
  refine safe_within trivial (fun d hd => (Option.some.inj hd).symm) h ?_ herr
  intro w₁ r w₂ hi h₁ hs
  cases hs with
  | lastInsertId hsession =>
    obtain ⟨rfl, rfl⟩ := Session.active.inj (h₁.active hsession (by simp))
    exact ⟨counts hi (Nat.le_refl _), fun w₃ hk => (hok w₃ (h₁.stable hk)).1⟩
  | lastInsertIdNow hsession => cases h₁.active hsession (by simp)
  | noLastInsertId =>
    exact ⟨counts hi (Nat.le_refl _), fun w₃ hk => (hok w₃ (h₁.stable hk)).2⟩

theorem safe_update {change : U} {k : ℕ} {row : Row}
    {Q : Except ε Unit → World Tid Conn J Row → Prop} (h : Within i j c p l w)
    (hk : p k = some row)
    (hok : ∀ row' w', S.updates change row row' →
      Within i j c (Function.update p k (some row')) l w' → Q (.ok ()) w')
    (herr : ∀ e w', Failed i c w' → Q (.error e) w') :
    Safe (protocol Tid Conn S good rows₀) (Step S) i Q
      (update c change k : SqlClient Conn V U Row ε Unit).run w := by
  refine safe_within trivial (fun d hd => (Option.some.inj hd).symm) h ?_ herr
  intro w₁ r w₂ hi h₁ hs
  have hc := (h₁.holds c).mpr rfl
  cases hs with
  | @update _ q m _ _ old row' hsession hrow hupdates hadmits =>
    obtain ⟨rfl, rfl⟩ := Session.active.inj (h₁.active hsession (by simp))
    obtain rfl : row = old := by simpa [written, hk] using hrow
    have hsound := hi.write (m := m) hc hsession hadmits (Nat.le_refl _) (fun _ => .inl rfl)
      (hi.author_of_write hc hsession hk)
    exact ⟨(acts_setSession i w₁ c _ _).allows hc hsound,
      fun w₃ hkeeps => hok row' w₃ hupdates ((h₁.update row').stable hkeeps)⟩
  | updateNow hsession => cases h₁.active hsession (by simp)
  | updateNone hsession hrow =>
    obtain ⟨rfl, rfl⟩ := Session.active.inj (h₁.active hsession (by simp))
    simp [written, hk] at hrow
  | updateNoneNow hsession => cases h₁.active hsession (by simp)

theorem safe_select {k : ℕ} {row : Row} {Q : Except ε (Option Row) → World Tid Conn J Row → Prop}
    (h : Within i j c p l w) (hk : p k = some row)
    (hok : ∀ w', Within i j c p l w' → Q (.ok (some row)) w')
    (herr : ∀ e w', Failed i c w' → Q (.error e) w') :
    Safe (protocol Tid Conn S good rows₀) (Step S) i Q
      (select c k : SqlClient Conn V U Row ε (Option Row)).run w := by
  refine safe_within trivial (fun d hd => (Option.some.inj hd).symm) h ?_ herr
  intro w₁ r w₂ hi h₁ hs
  cases hs with
  | select hsession hr =>
    obtain ⟨rfl, rfl⟩ := Session.active.inj (h₁.active hsession (by simp))
    obtain rfl := hr row hk
    exact ⟨counts hi (Nat.le_refl _), fun w₃ hk => hok w₃ (h₁.stable hk)⟩
  | selectNow hsession => cases h₁.active hsession (by simp)

theorem safe_fetch {Q : Except ε Unit → World Tid Conn J Row → Prop} (h : Within i j c p l w)
    (hok : ∀ w', Within i j c p l w' → Q (.ok ()) w')
    (herr : ∀ e w', Failed i c w' → Q (.error e) w') :
    Safe (protocol Tid Conn S good rows₀) (Step S) i Q
      (fetch : SqlClient Conn V U Row ε Unit).run w := by
  refine safe_within trivial (fun d hd => by cases hd) h ?_ herr
  intro w₁ r w₂ hi h₁ hs
  cases hs with
  | fetch => exact ⟨counts hi (Nat.le_refl _), fun w₃ hk => hok w₃ (h₁.stable hk)⟩

/-- COMMIT must find every row as was asked for. -/
theorem safe_commit {Q : Except ε Unit → World Tid Conn J Row → Prop} (h : Within i j c p l w)
    (hgood : ∀ k row, p k = some row → good j k row)
    (hok : ∀ w', Closed i c p w' → Q (.ok ()) w')
    (herr : ∀ e w', Failed i c w' → Q (.error e) w') :
    Safe (protocol Tid Conn S good rows₀) (Step S) i Q
      (commit c : SqlClient Conn V U Row ε Unit).run w := by
  refine safe_within trivial (fun d hd => (Option.some.inj hd).symm) h ?_ herr
  intro w₁ r w₂ hi h₁ hs
  have hc := (h₁.holds c).mpr rfl
  cases hs with
  | @commit _ q m hsession =>
    obtain ⟨rfl, rfl⟩ := Session.active.inj (h₁.active hsession (by simp))
    have hacts : Acts i c w₁ ({ w₁ with rows := written w₁.rows q }.setSession c (.idle m)) := by
      refine ⟨fun d hd => World.setSession_of_ne _ _ hd, rfl, rfl, fun _ _ _ => Iff.rfl, ?_⟩
      intro k i' hi' hauthor
      cases hq : q k with
      | none => simp [written, hq]
      | some row =>
        have hmine := hi.author_of_write hc hsession hq
        exact absurd (Option.some.inj (hauthor.symm.trans hmine)) hi'
    have hnext : Closed i c q ({ w₁ with rows := written w₁.rows q }.setSession c (.idle m)) := by
      refine ⟨h₁.holds, by rw [World.setSession_self]; rfl, fun k => ⟨fun hauthor => ?_, ?_⟩⟩
      · have hq := (h₁.unseen k hauthor).2
        obtain ⟨row, hrow⟩ := Option.ne_none_iff_exists'.mp hq
        simp [written, hrow]
      · intro hq
        obtain ⟨row, hrow⟩ := Option.ne_none_iff_exists'.mp hq
        exact hi.author_of_write hc hsession hrow
    exact ⟨hacts.allows hc (hi.commit hc hsession h₁.asked hgood),
      fun w₃ hk => hok w₃ (hnext.stable hk)⟩
  | commitNothing hsession => cases h₁.active hsession (by simp)

/-- After ROLLBACK nothing of the call is left, however it ends. -/
theorem safe_rollback {Q : Except ε Unit → World Tid Conn J Row → Prop} (h : Failed i c w)
    (hq : ∀ r w', Closed i c (fun _ => none) w' → Q r w') :
    Safe (protocol Tid Conn S good rows₀) (Step S) i Q
      (rollback c : SqlClient Conn V U Row ε Unit).run w := by
  apply safe_call
  intro w₁ hr hi r w₂ hs
  have h₁ := h.stable hr
  have hwrote : Wrote i (fun _ => none) w₁ := fun k => ⟨h₁.unseen k, fun hne => absurd rfl hne⟩
  cases hs with
  | refused hop => exact hop.elim
  | aborted hop => exact hop.elim
  | @rollback _ _ m hsession =>
    have hnext : Closed i c (fun _ => none) (w₁.setSession c (.idle m)) :=
      ⟨h₁.holds, by rw [World.setSession_self]; rfl, hwrote⟩
    exact ⟨gives_up (s := .idle m) hi h₁.holds (Nat.le_refl _) fun _ => rfl,
      fun w₃ hk _ => hq _ w₃ (hnext.stable hk)⟩
  | rollbackNothing hsession =>
    have hnext : Closed i c (fun _ => none) w₁ := ⟨h₁.holds, by rw [hsession]; rfl, hwrote⟩
    exact ⟨counts hi (Nat.le_refl _), fun w₃ hk _ => hq _ w₃ (hnext.stable hk)⟩
  | rollbackLost =>
    have hnext : Closed i c (fun _ => none) (w₁.setSession c (.lost false)) :=
      ⟨h₁.holds, by rw [World.setSession_self]; rfl, hwrote⟩
    exact ⟨gives_up (s := .lost false) hi h₁.holds (Nat.le_refl _) fun _ => rfl,
      fun w₃ hk _ => hq _ w₃ (hnext.stable hk)⟩

theorem safe_release {Q : Except ε Unit → World Tid Conn J Row → Prop} (h : Closed i c p w)
    (hq : ∀ r w', Wrote i p w' → Q r w') :
    Safe (protocol Tid Conn S good rows₀) (Step S) i Q
      (release c : SqlClient Conn V U Row ε Unit).run w := by
  apply safe_call
  intro w₁ hr hi r w₂ hs
  have h₁ := h.stable hr
  cases hs with
  | refused hop => exact hop.elim
  | aborted hop => exact hop.elim
  | release =>
    have hc := (h₁.holds c).mpr rfl
    have hnext : Wrote i p { w₁ with holder := Function.update w₁.holder c none } := h₁.wrote
    refine ⟨⟨hi.setHolder h₁.resting none, fun i' hi' => ?_⟩,
      fun w₃ hk _ => hq _ w₃ (wrote_stable hnext hk)⟩
    exact keeps_setHolder (by simp [hc, hi'.symm]) (by simp)

theorem step_acquire {r : Except ε Conn} (h : Step S i w .acquire r w') :
    (∃ c, r = .ok c ∧ w.holder c = none ∧
      w' = { w with holder := Function.update w.holder c (some i) }) ∨
    ∃ e n, r = .error e ∧ w.nextKey ≤ n ∧ w' = { w with nextKey := n } := by
  cases h with
  | refused _ hn => exact .inr ⟨_, _, rfl, hn, rfl⟩
  | aborted _ hconn => cases hconn
  | acquire hfree => exact .inl ⟨_, rfl, hfree, rfl⟩

theorem safe_acquire {Q : Except ε Conn → World Tid Conn J Row → Prop} (h : Idle i w)
    (hj : w.asked i = some j) (hok : ∀ c w', Ready i j c w' → Q (.ok c) w')
    (herr : ∀ e w', Wrote i (fun _ => none) w' → Q (.error e) w') :
    Safe (protocol Tid Conn S good rows₀) (Step S) i Q
      (acquire : SqlClient Conn V U Row ε Conn).run w := by
  apply safe_call
  intro w₁ hr hi r w₂ hs
  have h₁ := idle_stable h hr
  rcases step_acquire hs with ⟨c, rfl, hfree, rfl⟩ | ⟨e, n, rfl, hn, rfl⟩
  · have hnext : Ready i j c { w₁ with holder := Function.update w₁.holder c (some i) } := by
      refine ⟨hr.asked.trans hj, fun d => ?_, hi.resting c hfree, h₁.untouched⟩
      by_cases hd : d = c
      · subst hd
        simp
      · simp [hd, h₁.holds d]
    refine ⟨⟨hi.setHolder (hi.resting c hfree) _, fun i' hi' => ?_⟩,
      fun w₃ hk _ => hok c w₃ (hnext.stable hk)⟩
    exact keeps_setHolder (by simp [hfree]) (by simp [hi'.symm])
  · have hnext : Wrote i (fun _ => none) { w₁ with nextKey := n } := fun k =>
      ⟨fun hauthor => absurd hauthor (h₁.untouched k), fun hne => absurd rfl hne⟩
    exact ⟨counts hi hn, fun w₃ hk _ => herr e w₃ (wrote_stable hnext hk)⟩

end Statements

section Machines

variable {Row V U Tid Conn J ε A : Type} [DecidableEq Conn] {S : Schema Row V U}
  {good : J → ℕ → Row → Prop} {rows₀ : Rows Row} {w w' : World Tid Conn J Row}

/-- The calls of a program, each once. -/
def machine [DecidableEq Tid] (S : Schema Row V U) (prog : J → SqlClient Conn V U Row ε A)
    (replaces : Session Row → Prop) :
    Machine Tid (World Tid Conn J Row) (SqlOp Conn V U) (fun op => Except ε (op.Reply Row))
      (Except ε A) J where
  step := Step S
  prog _ j := (prog j).run
  start i j w w' := w.asked i = none ∧ w' = { w with asked := Function.update w.asked i (some j) }
  finish _ _ _ _ := False
  crash _ _ _ := False
  outside := Outside replaces

omit [DecidableEq Conn] in
theorem idle_world {S : Schema Row V U} (t : Table S) (i : Tid) :
    Idle i (t.world : World Tid Conn J Row) where
  holds _ hd := by cases hd
  untouched _ hk := by cases hk

/-- It is enough to look at one call, where no session that was lost in a transaction is
replaced. -/
theorem verified [DecidableEq Tid] {prog : J → SqlClient Conn V U Row ε A}
    {post : Tid → Except ε A → World Tid Conn J Row → Prop}
    (h : ∀ i j w, Idle i w → w.asked i = some j →
      Safe (protocol Tid Conn S good rows₀) (Step S) i (post i) (prog j).run w) :
    (machine S prog AtRest).Verified (protocol Tid Conn S good rows₀) Idle post where
  idle_stable := idle_stable
  start := by
    rintro i j w _ hi hidle ⟨hasked, rfl⟩
    have hlater : ∀ i' j', w.asked i' = some j' →
        Function.update w.asked i (some j) i' = some j' := by
      intro i' j' hj'
      rw [Function.update_of_ne, hj']
      rintro rfl
      rw [hasked] at hj'
      cases hj'
    refine ⟨⟨hi.shrinks ⟨rfl, rfl, hlater, Nat.le_refl _, fun _ _ _ hrow => ⟨hrow, rfl⟩,
      hi.resting⟩, fun i' hi' => ?_⟩, h i j _ ⟨hidle.holds, hidle.untouched⟩ (by simp)⟩
    exact ⟨fun _ => Iff.rfl, fun _ _ => rfl, fun _ => Iff.rfl, fun _ _ => .inl rfl,
      Function.update_of_ne hi' _ _⟩
  finish _ _ hf := hf.elim
  crash _ hc := hc.elim
  outside := outside_keeps

end Machines

end SessionCalls
