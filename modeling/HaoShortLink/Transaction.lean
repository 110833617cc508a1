import HaoShortLink.Program

/-! Serializable SQL transactions of many sessions over one database.
An open transaction is the list of its statements with the results its client saw. COMMIT
takes effect only where replaying that list on the committed database gives the same
results, so commit order is a serial order. Nothing is assumed about the results seen by a
transaction that never commits. -/
namespace Transaction

open Program

section Statements

variable {Stmt : Type*} {Res : Stmt → Type*} {D : Type*}

abbrev Entry (Res : Stmt → Type*) := (s : Stmt) × Res s

/-- What a statement returns and how it changes the database; none is a refused statement. -/
abbrev Exec (D : Type*) (Res : Stmt → Type*) := (s : Stmt) → D → Option (Res s × D)

def Replays (exec : Exec D Res) : List (Entry Res) → D → D → Prop
  | [], d, d' => d' = d
  | e :: l, d, d' => ∃ d₁, exec e.1 d = some (e.2, d₁) ∧ Replays exec l d₁ d'

variable {exec : Exec D Res}

@[simp] theorem replays_nil {d d' : D} : Replays exec [] d d' ↔ d' = d := Iff.rfl

@[simp] theorem replays_cons {e : Entry Res} {l : List (Entry Res)} {d d' : D} :
    Replays exec (e :: l) d d' ↔ ∃ d₁, exec e.1 d = some (e.2, d₁) ∧ Replays exec l d₁ d' :=
  Iff.rfl

inductive SqlOp (Stmt : Type*) where
  | startTransaction
  | commit
  | rollback
  | exec (s : Stmt)

end Statements

variable {Stmt D ε : Type} {Res : Stmt → Type} {Tid : Type} [DecidableEq Tid]

def SqlOp.Reply (Res : Stmt → Type) : SqlOp Stmt → Type
  | .exec s => Res s
  | _ => Unit

abbrev SqlClient (Res : Stmt → Type) (ε : Type) := Client (SqlOp Stmt) (SqlOp.Reply Res) ε

def startTransaction : SqlClient Res ε Unit := call SqlOp.startTransaction
def commit : SqlClient Res ε Unit := call SqlOp.commit
def rollback : SqlClient Res ε Unit := call SqlOp.rollback
def execute (s : Stmt) : SqlClient Res ε (Res s) := call (SqlOp.exec s)

structure Store (Tid D : Type) (Res : Stmt → Type) where
  db : D
  session : Tid → Option (List (Entry Res))

def Store.setSession (s : Store Tid D Res) (i : Tid) (t : Option (List (Entry Res))) :
    Store Tid D Res :=
  { s with session := Function.update s.session i t }

@[simp] theorem setSession_db (s : Store Tid D Res) (i : Tid) (t) : (s.setSession i t).db = s.db :=
  rfl
@[simp] theorem setSession_self (s : Store Tid D Res) (i : Tid) (t) :
    (s.setSession i t).session i = t := by simp [Store.setSession]
theorem setSession_of_ne (s : Store Tid D Res) {i j : Tid} (t) (h : j ≠ i) :
    (s.setSession i t).session j = s.session j := by simp [Store.setSession, h]

/-- One call of session i. The flag says whether the call made changes durable. A failed call
leaves the transaction open or loses it with its connection; a failed ROLLBACK loses it; a
COMMIT may take effect although its reply is lost. -/
inductive SqlStep (exec : Exec D Res) (i : Tid) :
    Store Tid D Res → (op : SqlOp Stmt) → Except ε (op.Reply Res) → Bool → Store Tid D Res → Prop
  | start {s} : s.session i = none →
      SqlStep exec i s .startTransaction (.ok ()) false (s.setSession i (some []))
  | restart {s l d} : s.session i = some l → Replays exec l s.db d →
      SqlStep exec i s .startTransaction (.ok ()) true
        ({ s with db := d }.setSession i (some []))
  | statement {s l st r} : s.session i = some l →
      SqlStep exec i s (.exec st) (.ok r) false (s.setSession i (some (l ++ [⟨st, r⟩])))
  | autocommit {s st r d} : s.session i = none → exec st s.db = some (r, d) →
      SqlStep exec i s (.exec st) (.ok r) true { s with db := d }
  | commit {s l d} : s.session i = some l → Replays exec l s.db d →
      SqlStep exec i s .commit (.ok ()) true ({ s with db := d }.setSession i none)
  | commitUnseen {s l d e} : s.session i = some l → Replays exec l s.db d →
      SqlStep exec i s .commit (.error e) true ({ s with db := d }.setSession i none)
  | commitNothing {s} : s.session i = none → SqlStep exec i s .commit (.ok ()) false s
  | rollback {s} : SqlStep exec i s .rollback (.ok ()) false (s.setSession i none)
  | lost {s op e} : SqlStep exec i s op (.error e) false (s.setSession i none)
  | failed {s op e} : op ≠ .rollback → SqlStep exec i s op (.error e) false s

section Steps

variable {exec : Exec D Res} {i : Tid} {s s' : Store Tid D Res} {c : Bool}

theorem SqlStep.other_session {op : SqlOp Stmt} {r : Except ε (op.Reply Res)}
    (h : SqlStep exec i s op r c s') {j : Tid} (hj : j ≠ i) : s'.session j = s.session j := by
  cases h <;> simp [Store.setSession, hj]

theorem SqlStep.db_eq {op : SqlOp Stmt} {r : Except ε (op.Reply Res)}
    (h : SqlStep exec i s op r false s') : s'.db = s.db := by
  cases h <;> rfl

theorem step_start {r : Except ε Unit} (hn : s.session i = none)
    (h : SqlStep exec i s .startTransaction r c s') :
    c = false ∧ s'.db = s.db ∧ ((r = .ok () ∧ s'.session i = some []) ∨
      ((∃ e, r = .error e) ∧ s'.session i = none)) := by
  cases h with
  | start => exact ⟨rfl, rfl, .inl ⟨rfl, setSession_self ..⟩⟩
  | restart hl => simp [hn] at hl
  | lost => exact ⟨rfl, rfl, .inr ⟨⟨_, rfl⟩, setSession_self ..⟩⟩
  | failed => exact ⟨rfl, rfl, .inr ⟨⟨_, rfl⟩, hn⟩⟩

theorem step_execute {st : Stmt} {l : List (Entry Res)} {r : Except ε (Res st)}
    (hl : s.session i = some l) (h : SqlStep exec i s (.exec st) r c s') :
    c = false ∧ s'.db = s.db ∧
      ((∃ a, r = .ok a ∧ s'.session i = some (l ++ [⟨st, a⟩])) ∨ ∃ e, r = .error e) := by
  cases h with
  | statement hl' =>
    obtain rfl : l = _ := by simpa [hl] using hl'
    exact ⟨rfl, rfl, .inl ⟨_, rfl, setSession_self ..⟩⟩
  | autocommit hn => simp [hl] at hn
  | lost => exact ⟨rfl, rfl, .inr ⟨_, rfl⟩⟩
  | failed => exact ⟨rfl, rfl, .inr ⟨_, rfl⟩⟩

theorem step_commit {l : List (Entry Res)} {r : Except ε Unit} (hl : s.session i = some l)
    (h : SqlStep exec i s .commit r c s') :
    (c = true ∧ Replays exec l s.db s'.db ∧ s'.session i = none) ∨
      (c = false ∧ s'.db = s.db ∧ ∃ e, r = .error e) := by
  cases h with
  | commit hl' hr =>
    obtain rfl : l = _ := by simpa [hl] using hl'
    exact .inl ⟨rfl, hr, setSession_self ..⟩
  | commitUnseen hl' hr =>
    obtain rfl : l = _ := by simpa [hl] using hl'
    exact .inl ⟨rfl, hr, setSession_self ..⟩
  | commitNothing hn => simp [hl] at hn
  | lost => exact .inr ⟨rfl, rfl, _, rfl⟩
  | failed => exact .inr ⟨rfl, rfl, _, rfl⟩

theorem step_rollback {r : Except ε Unit} (h : SqlStep exec i s .rollback r c s') :
    c = false ∧ s'.db = s.db ∧ s'.session i = none := by
  cases h with
  | rollback => exact ⟨rfl, rfl, setSession_self ..⟩
  | lost => exact ⟨rfl, rfl, setSession_self ..⟩
  | failed hne => exact absurd rfl hne

end Steps

/-- A store with an observation G that every durable call of a session updates. -/
structure World (Tid D : Type) (Res : Stmt → Type) (G : Type) where
  store : Store Tid D Res
  ghost : G

def World.snap {G : Type} (w : World Tid D Res G) : D × G := (w.store.db, w.ghost)

def WorldStep {G : Type} (exec : Exec D Res) (note : Tid → G → G) (i : Tid) (w : World Tid D Res G)
    (op : SqlOp Stmt) (r : Except ε (op.Reply Res)) (w' : World Tid D Res G) : Prop :=
  ∃ c, SqlStep exec i w.store op r c w'.store ∧
    w'.ghost = if c then note i w.ghost else w.ghost

theorem WorldStep.of {G : Type} {exec : Exec D Res} {note : Tid → G → G} {i : Tid}
    {s s' : Store Tid D Res} {g : G} {op : SqlOp Stmt} {r : Except ε (op.Reply Res)} {c : Bool}
    (h : SqlStep exec i s op r c s') :
    WorldStep exec note i ⟨s, g⟩ op r ⟨s', if c then note i g else g⟩ :=
  ⟨c, h, rfl⟩

/-- What is promised about committed data and the observation. Sessions are private. -/
structure Discipline (Tid D G : Type) where
  inv : D × G → Prop
  rely : Tid → D × G → D × G → Prop
  guar : Tid → D × G → D × G → Prop
  refl : ∀ i x, rely i x x
  trans : ∀ i {x y z}, rely i x y → rely i y z → rely i x z
  quiet : ∀ i x, guar i x x
  compatible : ∀ {i j x y}, j ≠ i → guar i x y → rely j x y

section Rules

variable {G : Type} {exec : Exec D Res} {note : Tid → G → G} {i : Tid}
  {w : World Tid D Res G} (C : Discipline Tid D G)

def Discipline.protocol (C : Discipline Tid D G) (Res : Stmt → Type) :
    Protocol Tid (World Tid D Res G) where
  inv w := C.inv w.snap
  rely i w w' := w'.store.session i = w.store.session i ∧ C.rely i w.snap w'.snap
  guar i w w' := (∀ j, j ≠ i → w'.store.session j = w.store.session j) ∧
    C.guar i w.snap w'.snap
  refl i _ := ⟨rfl, C.refl i _⟩
  trans i _ _ _ h k := ⟨k.1.trans h.1, C.trans i h.2 k.2⟩
  compatible hj h := ⟨h.1 _ hj, C.compatible hj h.2⟩

private theorem quiet_allows {w' : World Tid D Res G} {op : SqlOp Stmt}
    {r : Except ε (op.Reply Res)} (hi : C.inv w.snap)
    (h : SqlStep exec i w.store op r false w'.store) (hg : w'.ghost = w.ghost) :
    w'.snap = w.snap ∧ (C.protocol Res).Allows i w w' := by
  have hw : w'.snap = w.snap := by simp [World.snap, h.db_eq, hg]
  refine ⟨hw, by simpa [Discipline.protocol, hw] using hi, fun j hj => h.other_session hj, ?_⟩
  rw [hw]
  exact C.quiet i _

variable {C}

theorem safe_startTransaction {Q : Except ε Unit → World Tid D Res G → Prop}
    (hn : w.store.session i = none)
    (hok : ∀ w', w'.store.session i = some [] → C.rely i w.snap w'.snap → Q (.ok ()) w')
    (herr : ∀ e w', w'.store.session i = none → Q (.error e) w') :
    Safe (C.protocol Res) (WorldStep exec note) i Q
      (startTransaction : SqlClient Res ε Unit).run w := by
  apply safe_call
  rintro w₁ ⟨hs₁, hr₁⟩ hi r w₂ ⟨c, hstep, hg⟩
  obtain ⟨rfl, _, hcase⟩ := step_start (hs₁.trans hn) hstep
  obtain ⟨hw, ha⟩ := quiet_allows C hi hstep hg
  refine ⟨ha, ?_⟩
  rintro w₃ ⟨hs₃, hr₃⟩ _
  rcases hcase with ⟨rfl, hs⟩ | ⟨⟨e, rfl⟩, hs⟩
  · exact hok w₃ (hs₃.trans hs) (C.trans i hr₁ (hw ▸ hr₃))
  · exact herr e w₃ (hs₃.trans hs)

theorem safe_execute {st : Stmt} {l : List (Entry Res)}
    {Q : Except ε (Res st) → World Tid D Res G → Prop} (hl : w.store.session i = some l)
    (hok : ∀ a w', w'.store.session i = some (l ++ [⟨st, a⟩]) → C.rely i w.snap w'.snap →
      Q (.ok a) w')
    (herr : ∀ e w', Q (.error e) w') :
    Safe (C.protocol Res) (WorldStep exec note) i Q (execute st).run w := by
  apply safe_call
  rintro w₁ ⟨hs₁, hr₁⟩ hi r w₂ ⟨c, hstep, hg⟩
  obtain ⟨rfl, _, hcase⟩ := step_execute (hs₁.trans hl) hstep
  obtain ⟨hw, ha⟩ := quiet_allows C hi hstep hg
  refine ⟨ha, ?_⟩
  rintro w₃ ⟨hs₃, hr₃⟩ _
  rcases hcase with ⟨a, rfl, hs⟩ | ⟨e, rfl⟩
  · exact hok a w₃ (hs₃.trans hs) (C.trans i hr₁ (hw ▸ hr₃))
  · exact herr e w₃

/-- COMMIT is the one call that must justify itself: wherever the transaction replays, its
effect keeps the invariant and the guarantee. -/
theorem safe_commit {l : List (Entry Res)} {Q : Except ε Unit → World Tid D Res G → Prop}
    (hl : w.store.session i = some l)
    (heff : ∀ x d, C.rely i w.snap x → C.inv x → Replays exec l x.1 d →
      C.inv (d, note i x.2) ∧ C.guar i x (d, note i x.2))
    (hok : ∀ x d w', C.rely i w.snap x → C.inv x → Replays exec l x.1 d →
      w'.store.session i = none → C.rely i (d, note i x.2) w'.snap → Q (.ok ()) w')
    (herr : ∀ e w', Q (.error e) w') :
    Safe (C.protocol Res) (WorldStep exec note) i Q (commit : SqlClient Res ε Unit).run w := by
  apply safe_call
  rintro w₁ ⟨hs₁, hr₁⟩ hi r w₂ ⟨c, hstep, hg⟩
  rcases step_commit (hs₁.trans hl) hstep with ⟨rfl, hrep, hs⟩ | ⟨rfl, _, e, rfl⟩
  · have hw : w₂.snap = (w₂.store.db, note i w₁.ghost) := by simp [World.snap, hg]
    obtain ⟨hinv, hguar⟩ := heff w₁.snap w₂.store.db hr₁ hi hrep
    refine ⟨⟨?_, fun j hj => hstep.other_session hj, ?_⟩, ?_⟩
    · exact (congrArg C.inv hw).mpr hinv
    · rw [hw]
      exact hguar
    · rintro w₃ ⟨hs₃, hr₃⟩ _
      cases r with
      | ok _ => exact hok w₁.snap w₂.store.db w₃ hr₁ hi hrep (hs₃.trans hs) (hw ▸ hr₃)
      | error e => exact herr e w₃
  · obtain ⟨_, ha⟩ := quiet_allows C hi hstep hg
    exact ⟨ha, fun w₃ _ _ => herr e w₃⟩

theorem safe_rollback {Q : Except ε Unit → World Tid D Res G → Prop}
    (h : ∀ r w', w'.store.session i = none → Q r w') :
    Safe (C.protocol Res) (WorldStep exec note) i Q (rollback : SqlClient Res ε Unit).run w := by
  apply safe_call
  rintro w₁ _ hi r w₂ ⟨c, hstep, hg⟩
  obtain ⟨rfl, _, hs⟩ := step_rollback hstep
  obtain ⟨_, ha⟩ := quiet_allows C hi hstep hg
  exact ⟨ha, fun w₃ hr₃ _ => h r w₃ (hr₃.1.trans hs)⟩

end Rules

end Transaction
