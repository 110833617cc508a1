import HaoShortLink.Program
import Mathlib.Data.Nat.Notation

/-! Sessions of a table with an AUTO_INCREMENT key, on pooled connections to its server.
Outside a transaction a statement takes effect at once; in one, its writes are the session's own
until COMMIT. A session can end at any time: the server forgets its transaction, and the
connection may be given a new session. -/
namespace SqlSessions

open Program

abbrev Rows (Row : Type) := ℕ → Option Row

/-- The flag of a lost session tells that it ended in a transaction which its client has neither
committed nor rolled back. -/
inductive Session (Row : Type) where
  | lost (begun : Bool)
  | idle (lastId : ℕ)
  | active (writes : Rows Row) (lastId : ℕ)

/-- What the server puts in a new row and makes of an old one, and which rows no unique key holds
apart. -/
structure Schema (Row V U : Type) where
  inserts : V → ℕ → Row → Prop
  updates : U → Row → Row → Prop
  Apart : Row → Row → Prop
  apart_symm : ∀ {a b}, Apart a b → Apart b a

inductive SqlOp (Conn V U : Type) where
  | acquire
  | release (c : Conn)
  | startTransaction (c : Conn)
  | insert (c : Conn) (values : V)
  | lastInsertId (c : Conn)
  | update (c : Conn) (change : U) (key : ℕ)
  | select (c : Conn) (key : ℕ)
  /-- A read of a result that the client already has. -/
  | fetch
  | commit (c : Conn)
  | rollback (c : Conn)

section Worlds

variable {Row V U Tid Conn J ε : Type}

def SqlOp.Reply (Row : Type) : SqlOp Conn V U → Type
  | .acquire => Conn
  | .lastInsertId _ => Option ℕ
  | .select .. => Option Row
  | _ => Unit

abbrev SqlClient (Conn V U Row ε : Type) :=
  Client (SqlOp Conn V U) (fun op => op.Reply Row) ε

def acquire : SqlClient Conn V U Row ε Conn := call SqlOp.acquire
def release (c : Conn) : SqlClient Conn V U Row ε Unit := call (SqlOp.release c)
def startTransaction (c : Conn) : SqlClient Conn V U Row ε Unit := call (SqlOp.startTransaction c)
def insert (c : Conn) (values : V) : SqlClient Conn V U Row ε Unit := call (SqlOp.insert c values)
def lastInsertId (c : Conn) : SqlClient Conn V U Row ε (Option ℕ) := call (SqlOp.lastInsertId c)
def update (c : Conn) (change : U) (key : ℕ) : SqlClient Conn V U Row ε Unit :=
  call (SqlOp.update c change key)
def select (c : Conn) (key : ℕ) : SqlClient Conn V U Row ε (Option Row) :=
  call (SqlOp.select c key)
def fetch : SqlClient Conn V U Row ε Unit := call SqlOp.fetch
def commit (c : Conn) : SqlClient Conn V U Row ε Unit := call (SqlOp.commit c)
def rollback (c : Conn) : SqlClient Conn V U Row ε Unit := call (SqlOp.rollback c)

def Session.begun : Session Row → Bool
  | .lost begun => begun
  | .idle _ => false
  | .active .. => true

def Session.writes : Session Row → Rows Row
  | .active writes _ => writes
  | _ => fun _ => none

def written (rows writes : Rows Row) : Rows Row := fun k => (writes k).or (rows k)

/-- The committed rows, the sessions, and who has checked out a connection. asked and author tell
what a call was asked for and which call inserted a key. -/
structure World (Tid Conn J Row : Type) where
  rows : Rows Row
  nextKey : ℕ
  session : Conn → Session Row
  holder : Conn → Option Tid
  asked : Tid → Option J
  author : ℕ → Option Tid

namespace World

variable (w : World Tid Conn J Row)

def setSession [DecidableEq Conn] (c : Conn) (s : Session Row) : World Tid Conn J Row :=
  { w with session := Function.update w.session c s }

def issue (i : Tid) (k : ℕ) : World Tid Conn J Row :=
  { w with nextKey := k + 1, author := Function.update w.author k (some i) }

/-- A row that is committed, or will be if a transaction is. -/
def Version (k : ℕ) (row : Row) : Prop :=
  w.rows k = some row ∨ ∃ c, (w.session c).writes k = some row

/-- No unique key refuses the row. -/
def Admits (S : Schema Row V U) (k : ℕ) (row : Row) : Prop :=
  ∀ l a, l ≠ k → w.Version l a → S.Apart a row

@[simp] theorem setSession_rows [DecidableEq Conn] (c : Conn) (s : Session Row) :
    (w.setSession c s).rows = w.rows := rfl
@[simp] theorem setSession_author [DecidableEq Conn] (c : Conn) (s : Session Row) :
    (w.setSession c s).author = w.author := rfl
@[simp] theorem setSession_self [DecidableEq Conn] (c : Conn) (s : Session Row) :
    (w.setSession c s).session c = s := by simp [setSession]
theorem setSession_of_ne [DecidableEq Conn] {c d : Conn} (s : Session Row) (h : d ≠ c) :
    (w.setSession c s).session d = w.session d := by simp [setSession, h]

end World

/-- ROLLBACK and the return of a connection are not refused. -/
def SqlOp.Refusable : SqlOp Conn V U → Prop
  | .release _ | .rollback _ => False
  | _ => True

def SqlOp.conn : SqlOp Conn V U → Option Conn
  | .acquire | .fetch => none
  | .release c | .startTransaction c | .insert c _ | .lastInsertId c | .update c _ _ | .select c _
  | .commit c | .rollback c => some c

variable [DecidableEq Conn]

/-- One call of i. A refused statement changes nothing but the counter, or the server gives up the
transaction of its session; on a lost session every statement is refused. A ROLLBACK fails where
the session is lost. -/
inductive Step (S : Schema Row V U) (i : Tid) : World Tid Conn J Row →
    (op : SqlOp Conn V U) → Except ε (op.Reply Row) → World Tid Conn J Row → Prop where
  | refused {w op n e} : op.Refusable → w.nextKey ≤ n →
      Step S i w op (.error e) { w with nextKey := n }
  | aborted {w op c p l n e} : op.Refusable → op.conn = some c → w.session c = .active p l →
      w.nextKey ≤ n → Step S i w op (.error e) ({ w with nextKey := n }.setSession c (.idle l))
  | acquire {w c} : w.holder c = none →
      Step S i w .acquire (.ok c) { w with holder := Function.update w.holder c (some i) }
  | release {w c} :
      Step S i w (.release c) (.ok ()) { w with holder := Function.update w.holder c none }
  | start {w c l} : w.session c = .idle l →
      Step S i w (.startTransaction c) (.ok ()) (w.setSession c (.active (fun _ => none) l))
  | restart {w c p l} : w.session c = .active p l →
      Step S i w (.startTransaction c) (.ok ())
        ({ w with rows := written w.rows p }.setSession c (.active (fun _ => none) l))
  | insert {w c p l values k row} : w.session c = .active p l → w.nextKey ≤ k →
      S.inserts values k row → w.Admits S k row →
      Step S i w (.insert c values) (.ok ())
        ((w.issue i k).setSession c (.active (Function.update p k (some row)) k))
  | insertNow {w c l values k row} : w.session c = .idle l → w.nextKey ≤ k →
      S.inserts values k row → w.Admits S k row →
      Step S i w (.insert c values) (.ok ())
        ({ w.issue i k with rows := Function.update w.rows k (some row) }.setSession c (.idle k))
  | lastInsertId {w c p l} : w.session c = .active p l →
      Step S i w (.lastInsertId c) (.ok (some l)) w
  | lastInsertIdNow {w c l} : w.session c = .idle l → Step S i w (.lastInsertId c) (.ok (some l)) w
  | noLastInsertId {w c} : Step S i w (.lastInsertId c) (.ok none) w
  | update {w c p l change k row row'} : w.session c = .active p l →
      written w.rows p k = some row → S.updates change row row' → w.Admits S k row' →
      Step S i w (.update c change k) (.ok ())
        (w.setSession c (.active (Function.update p k (some row')) l))
  | updateNow {w c l change k row row'} : w.session c = .idle l → w.rows k = some row →
      S.updates change row row' → w.Admits S k row' →
      Step S i w (.update c change k) (.ok ())
        { w with rows := Function.update w.rows k (some row') }
  | updateNone {w c p l change k} : w.session c = .active p l → written w.rows p k = none →
      Step S i w (.update c change k) (.ok ()) w
  | updateNoneNow {w c l change k} : w.session c = .idle l → w.rows k = none →
      Step S i w (.update c change k) (.ok ()) w
  -- a row that the transaction did not write may be read as its snapshot has it
  | select {w c p l k r} : w.session c = .active p l → (∀ row, p k = some row → r = some row) →
      Step S i w (.select c k) (.ok r) w
  | selectNow {w c l k} : w.session c = .idle l → Step S i w (.select c k) (.ok (w.rows k)) w
  | fetch {w} : Step S i w .fetch (.ok ()) w
  | commit {w c p l} : w.session c = .active p l →
      Step S i w (.commit c) (.ok ())
        ({ w with rows := written w.rows p }.setSession c (.idle l))
  | commitNothing {w c l} : w.session c = .idle l → Step S i w (.commit c) (.ok ()) w
  | rollback {w c p l} : w.session c = .active p l →
      Step S i w (.rollback c) (.ok ()) (w.setSession c (.idle l))
  | rollbackNothing {w c l} : w.session c = .idle l → Step S i w (.rollback c) (.ok ()) w
  | rollbackLost {w c e} : Step S i w (.rollback c) (.error e) (w.setSession c (.lost false))

/-- What happens between the calls: a session ends, or a lost one that may be replaced is. -/
inductive Outside (replaces : Session Row → Prop) :
    World Tid Conn J Row → World Tid Conn J Row → Prop where
  | lose {w} (c : Conn) : Outside replaces w (w.setSession c (.lost (w.session c).begun))
  | reconnect {w c b} : w.session c = .lost b → replaces (.lost b) →
      Outside replaces w (w.setSession c (.idle 0))

end Worlds

section Protocols

variable {Row V U Tid Conn J : Type}

/-- What a session may turn into between two calls of its holder. -/
def Drifts (s s' : Session Row) : Prop :=
  s' = s ∨ s.begun = true ∧ s' = .lost true ∨ s.begun = false ∧ s'.begun = false

theorem drifts_trans {s₁ s₂ s₃ : Session Row} (h : Drifts s₁ s₂) (k : Drifts s₂ s₃) :
    Drifts s₁ s₃ := by
  rcases h with rfl | ⟨hs, rfl⟩ | ⟨hs, hs₂⟩
  · exact k
  · rcases k with rfl | ⟨_, rfl⟩ | ⟨hlost, _⟩
    · exact .inr (.inl ⟨hs, rfl⟩)
    · exact .inr (.inl ⟨hs, rfl⟩)
    · cases hlost
  · rcases k with rfl | ⟨hs₃, _⟩ | ⟨_, hs₃⟩
    · exact .inr (.inr ⟨hs, hs₂⟩)
    · rw [hs₂] at hs₃
      cases hs₃
    · exact .inr (.inr ⟨hs, hs₃⟩)

/-- The others leave call i its rows and its connections, whose sessions may be lost. -/
structure Keeps (i : Tid) (w w' : World Tid Conn J Row) : Prop where
  author : ∀ k, w'.author k = some i ↔ w.author k = some i
  rows : ∀ k, w.author k = some i → w'.rows k = w.rows k
  holder : ∀ c, w'.holder c = some i ↔ w.holder c = some i
  session : ∀ c, w.holder c = some i → Drifts (w.session c) (w'.session c)
  asked : w'.asked i = w.asked i

theorem keeps_refl (i : Tid) (w : World Tid Conn J Row) : Keeps i w w :=
  ⟨fun _ => Iff.rfl, fun _ _ => rfl, fun _ => Iff.rfl, fun _ _ => .inl rfl, rfl⟩

theorem keeps_trans {i : Tid} {w₁ w₂ w₃ : World Tid Conn J Row} (h : Keeps i w₁ w₂)
    (k : Keeps i w₂ w₃) : Keeps i w₁ w₃ where
  author n := (k.author n).trans (h.author n)
  rows n hn := (k.rows n ((h.author n).mpr hn)).trans (h.rows n hn)
  holder c := (k.holder c).trans (h.holder c)
  session c hc := drifts_trans (h.session c hc) (k.session c ((h.holder c).mpr hc))
  asked := k.asked.trans h.asked

/-- Rows of the start are not touched; new ones are as was asked for. -/
structure Sound (S : Schema Row V U) (good : J → ℕ → Row → Prop) (rows₀ : Rows Row)
    (w : World Tid Conn J Row) : Prop where
  fresh : ∀ k, w.nextKey ≤ k → w.rows k = none ∧ w.author k = none
  old : ∀ k, w.author k = none → w.rows k = rows₀ k
  owned : ∀ c k row, (w.session c).writes k = some row →
    ∃ i, w.holder c = some i ∧ w.author k = some i
  apart : ∀ k l a b, k ≠ l → w.Version k a → w.Version l b → S.Apart a b
  resting : ∀ c, w.holder c = none → (w.session c).begun = false
  complete : ∀ k i row, w.author k = some i → w.rows k = some row →
    ∃ j, w.asked i = some j ∧ good j k row

def protocol (Tid Conn : Type) (S : Schema Row V U) (good : J → ℕ → Row → Prop)
    (rows₀ : Rows Row) : Protocol Tid (World Tid Conn J Row) where
  inv := Sound S good rows₀
  rely := Keeps
  guar i w w' := ∀ j, j ≠ i → Keeps j w w'
  refl := keeps_refl
  trans _ _ _ _ := keeps_trans
  compatible hj h := h _ hj

end Protocols

section Preservation

variable {Row V U Tid Conn J ε : Type} {S : Schema Row V U} {good : J → ℕ → Row → Prop}
  {rows₀ : Rows Row} {i : Tid} {c : Conn} {w w' : World Tid Conn J Row}

theorem writes_of_not_begun {s : Session Row} (h : s.begun = false) (k : ℕ) :
    s.writes k = none := by
  cases s with
  | lost b => rfl
  | idle l => rfl
  | active p l => cases h

/-- No new row, and no new version of one. -/
structure Shrinks (w w' : World Tid Conn J Row) : Prop where
  rows : w'.rows = w.rows
  author : w'.author = w.author
  asked : ∀ i j, w.asked i = some j → w'.asked i = some j
  nextKey : w.nextKey ≤ w'.nextKey
  writes : ∀ c k row, (w'.session c).writes k = some row →
    (w.session c).writes k = some row ∧ w'.holder c = w.holder c
  resting : ∀ c, w'.holder c = none → (w'.session c).begun = false

theorem Shrinks.version (h : Shrinks w w') {k : ℕ} {row : Row} (hk : w'.Version k row) :
    w.Version k row := by
  rcases hk with hk | ⟨c, hk⟩
  · exact .inl (h.rows ▸ hk)
  · exact .inr ⟨c, (h.writes c k row hk).1⟩

theorem Sound.shrinks (h : Sound S good rows₀ w) (hs : Shrinks w w') :
    Sound S good rows₀ w' where
  fresh k hk := by
    rw [hs.rows, hs.author]
    exact h.fresh k (Nat.le_trans hs.nextKey hk)
  old k hk := by
    rw [hs.rows]
    exact h.old k (hs.author ▸ hk)
  owned c k row hrow := by
    obtain ⟨hwrites, hholder⟩ := hs.writes c k row hrow
    obtain ⟨i, hi, hauthor⟩ := h.owned c k row hwrites
    exact ⟨i, hholder.trans hi, hs.author ▸ hauthor⟩
  apart k l a b hkl ha hb := h.apart k l a b hkl (hs.version ha) (hs.version hb)
  resting := hs.resting
  complete k i row hauthor hrow := by
    rw [hs.author] at hauthor
    rw [hs.rows] at hrow
    obtain ⟨j, hj, hgood⟩ := h.complete k i row hauthor hrow
    exact ⟨j, hs.asked i j hj, hgood⟩

theorem Sound.author_of_write (h : Sound S good rows₀ w) {p : Rows Row} {l k : ℕ} {row : Row}
    (hc : w.holder c = some i) (hs : w.session c = .active p l) (hk : p k = some row) :
    w.author k = some i := by
  obtain ⟨i', hi', hauthor⟩ := h.owned c k row (by rw [hs]; exact hk)
  rw [hc] at hi'
  rw [hauthor, hi']

theorem version_write [DecidableEq Conn] {p : Rows Row} {l m k n k' : ℕ} {row row' : Row}
    {author : ℕ → Option Tid} (hs : w.session c = .active p l)
    (h : ({ w with nextKey := n, author := author }.setSession c
      (.active (Function.update p k (some row)) m)).Version k' row') :
    w.Version k' row' ∨ k' = k ∧ row' = row := by
  rcases h with h | ⟨d, h⟩
  · exact .inl (.inl h)
  · by_cases hd : d = c
    · subst hd
      rw [World.setSession_self] at h
      by_cases hk : k' = k
      · subst hk
        exact .inr ⟨rfl, by simpa [Session.writes] using h.symm⟩
      · refine .inl (.inr ⟨d, ?_⟩)
        rw [hs]
        simpa [Session.writes, hk] using h
    · rw [World.setSession_of_ne _ _ hd] at h
      exact .inl (.inr ⟨d, h⟩)

theorem Sound.write [DecidableEq Conn] (h : Sound S good rows₀ w) {p : Rows Row} {l m k n : ℕ}
    {row : Row} {author : ℕ → Option Tid} (hc : w.holder c = some i)
    (hs : w.session c = .active p l) (hadmits : w.Admits S k row) (hn : w.nextKey ≤ n)
    (hauthor : ∀ k', author k' = w.author k' ∨ w.nextKey ≤ k' ∧ k' < n)
    (hk : author k = some i) :
    Sound S good rows₀ ({ w with nextKey := n, author := author }.setSession c
      (.active (Function.update p k (some row)) m)) where
  fresh k' hk' := by
    obtain ⟨hrows, hnone⟩ := h.fresh k' (Nat.le_trans hn hk')
    rcases hauthor k' with hsame | ⟨_, hlt⟩
    · exact ⟨hrows, hsame.trans hnone⟩
    · exact absurd hlt (Nat.not_lt.mpr hk')
  old k' hnone := by
    rcases hauthor k' with hsame | ⟨hle, _⟩
    · exact h.old k' (hsame.symm.trans hnone)
    · exact h.old k' (h.fresh k' hle).2
  owned d k' row' hrow := by
    have hkept : ∀ {i'}, w.author k' = some i' → author k' = some i' := by
      intro i' hi'
      rcases hauthor k' with hsame | ⟨hle, _⟩
      · exact hsame.trans hi'
      · rw [(h.fresh k' hle).2] at hi'
        cases hi'
    by_cases hd : d = c
    · subst hd
      refine ⟨i, hc, ?_⟩
      rw [World.setSession_self] at hrow
      by_cases hk' : k' = k
      · rw [hk']
        exact hk
      · exact hkept (h.author_of_write hc hs (by simpa [Session.writes, hk'] using hrow))
    · rw [World.setSession_of_ne _ _ hd] at hrow
      obtain ⟨i', hi', hauthor'⟩ := h.owned d k' row' hrow
      exact ⟨i', hi', hkept hauthor'⟩
  apart k₁ k₂ a b hne ha hb := by
    rcases version_write hs ha with ha' | ⟨rfl, rfl⟩
    · rcases version_write hs hb with hb' | ⟨rfl, rfl⟩
      · exact h.apart k₁ k₂ a b hne ha' hb'
      · exact hadmits k₁ a hne ha'
    · rcases version_write hs hb with hb' | ⟨rfl, _⟩
      · exact S.apart_symm (hadmits k₂ b hne.symm hb')
      · exact absurd rfl hne
  resting d hd := by
    have hne : d ≠ c := by
      rintro rfl
      exact Option.some_ne_none i (hc.symm.trans hd)
    rw [World.setSession_of_ne _ _ hne]
    exact h.resting d hd
  complete k' i' row' hi' hrow := by
    rcases hauthor k' with hsame | ⟨hle, _⟩
    · exact h.complete k' i' row' (hsame.symm.trans hi') hrow
    · rw [World.setSession_rows, (h.fresh k' hle).1] at hrow
      cases hrow

theorem Sound.commit [DecidableEq Conn] (h : Sound S good rows₀ w) {p : Rows Row} {l : ℕ} {j : J}
    (hc : w.holder c = some i) (hs : w.session c = .active p l) (hj : w.asked i = some j)
    (hgood : ∀ k row, p k = some row → good j k row) :
    Sound S good rows₀ ({ w with rows := written w.rows p }.setSession c (.idle l)) := by
  have hnone : ∀ {k}, w.author k ≠ some i → written w.rows p k = w.rows k := by
    intro k hk
    cases hp : p k with
    | none => simp [written, hp]
    | some row => exact absurd (h.author_of_write hc hs hp) hk
  have hversion : ∀ {k row}, ({ w with rows := written w.rows p }.setSession c
      (.idle l)).Version k row → w.Version k row := by
    rintro k row (hrow | ⟨d, hrow⟩)
    · rcases Option.or_eq_some_iff.mp hrow with hp | ⟨_, hrow⟩
      · exact .inr ⟨c, by rw [hs]; exact hp⟩
      · exact .inl hrow
    · by_cases hd : d = c
      · subst hd
        rw [World.setSession_self] at hrow
        cases hrow
      · rw [World.setSession_of_ne _ _ hd] at hrow
        exact .inr ⟨d, hrow⟩
  constructor
  case fresh =>
    intro k hk
    obtain ⟨hrows, hauthor⟩ := h.fresh k hk
    exact ⟨(hnone (by simp [hauthor])).trans hrows, hauthor⟩
  case old =>
    intro k hk
    have hk : w.author k = none := hk
    exact (hnone (by simp [hk])).trans (h.old k hk)
  case owned =>
    intro d k row hrow
    by_cases hd : d = c
    · subst hd
      rw [World.setSession_self] at hrow
      cases hrow
    · rw [World.setSession_of_ne _ _ hd] at hrow
      exact h.owned d k row hrow
  case apart =>
    intro k₁ k₂ a b hne ha hb
    exact h.apart k₁ k₂ a b hne (hversion ha) (hversion hb)
  case resting =>
    intro d hd
    by_cases hdc : d = c
    · subst hdc
      rw [World.setSession_self]
      rfl
    · rw [World.setSession_of_ne _ _ hdc]
      exact h.resting d hd
  case complete =>
    intro k i' row hi' hrow
    rcases Option.or_eq_some_iff.mp hrow with hp | ⟨_, hrow⟩
    · have hi := h.author_of_write hc hs hp
      obtain rfl := Option.some.inj (hi.symm.trans hi')
      exact ⟨j, hj, hgood k row hp⟩
    · exact h.complete k i' row hi' hrow

theorem Sound.setSession [DecidableEq Conn] (h : Sound S good rows₀ w) {s : Session Row} {n : ℕ}
    (hn : w.nextKey ≤ n) (hwrites : ∀ k, s.writes k = none)
    (hresting : w.holder c = none → s.begun = false) :
    Sound S good rows₀ ({ w with nextKey := n }.setSession c s) := by
  refine h.shrinks ⟨rfl, rfl, fun _ _ hj => hj, hn, ?_, ?_⟩
  · intro d k row hrow
    by_cases hd : d = c
    · subst hd
      rw [World.setSession_self, hwrites k] at hrow
      cases hrow
    · rw [World.setSession_of_ne _ _ hd] at hrow
      exact ⟨hrow, rfl⟩
  · intro d hd
    by_cases hdc : d = c
    · subst hdc
      rw [World.setSession_self]
      exact hresting hd
    · rw [World.setSession_of_ne _ _ hdc]
      exact h.resting d hd

structure Acts (i : Tid) (c : Conn) (w w' : World Tid Conn J Row) : Prop where
  session : ∀ d, d ≠ c → w'.session d = w.session d
  holder : w'.holder = w.holder
  asked : w'.asked = w.asked
  author : ∀ k j, j ≠ i → (w'.author k = some j ↔ w.author k = some j)
  rows : ∀ k j, j ≠ i → w.author k = some j → w'.rows k = w.rows k

theorem Acts.keeps (h : Acts i c w w') (hc : w.holder c = some i) {j : Tid} (hj : j ≠ i) :
    Keeps j w w' where
  author k := h.author k j hj
  rows k := h.rows k j hj
  holder d := by rw [h.holder]
  session d hd := by
    have hne : d ≠ c := by
      rintro rfl
      rw [hc] at hd
      exact hj (Option.some.inj hd).symm
    exact .inl (h.session d hne)
  asked := by rw [h.asked]

theorem Acts.allows (h : Acts i c w w') (hc : w.holder c = some i)
    (hs : Sound S good rows₀ w') : (protocol Tid Conn S good rows₀).Allows i w w' :=
  ⟨hs, fun _ hj => h.keeps hc hj⟩

/-- A connection is taken or given back while it is not in a transaction. -/
theorem Sound.setHolder [DecidableEq Conn] (h : Sound S good rows₀ w)
    (hc : (w.session c).begun = false) (o : Option Tid) :
    Sound S good rows₀ { w with holder := Function.update w.holder c o } := by
  refine h.shrinks ⟨rfl, rfl, fun _ _ hj => hj, Nat.le_refl _, ?_, ?_⟩
  · intro d k row hrow
    refine ⟨hrow, Function.update_of_ne ?_ _ _⟩
    rintro rfl
    rw [writes_of_not_begun hc] at hrow
    cases hrow
  · intro d hd
    by_cases hdc : d = c
    · subst hdc
      exact hc
    · exact h.resting d ((Function.update_of_ne hdc _ _).symm.trans hd)

theorem keeps_setHolder [DecidableEq Conn] {o : Option Tid} (hc : w.holder c ≠ some i)
    (ho : o ≠ some i) : Keeps i w { w with holder := Function.update w.holder c o } := by
  refine ⟨fun _ => Iff.rfl, fun _ _ => rfl, fun d => ?_, fun _ _ => .inl rfl, rfl⟩
  by_cases hd : d = c
  · subst hd
    simp [hc, ho]
  · simp [hd]

/-- A table as its keys allow it. -/
structure Table (S : Schema Row V U) where
  rows : Rows Row
  nextKey : ℕ
  fresh : ∀ k, nextKey ≤ k → rows k = none
  apart : ∀ k l a b, k ≠ l → rows k = some a → rows l = some b → S.Apart a b

/-- No call yet, and every connection is in the pool. -/
def Table.world (t : Table S) : World Tid Conn J Row :=
  ⟨t.rows, t.nextKey, fun _ => .idle 0, fun _ => none, fun _ => none, fun _ => none⟩

theorem Table.sound (t : Table S) :
    Sound S good t.rows (t.world : World Tid Conn J Row) where
  fresh k hk := ⟨t.fresh k hk, rfl⟩
  old _ _ := rfl
  owned _ _ _ hrow := by cases hrow
  apart k l a b hne ha hb := by
    rcases ha with ha | ⟨c, ha⟩
    · rcases hb with hb | ⟨c, hb⟩
      · exact t.apart k l a b hne ha hb
      · cases hb
    · cases ha
  resting _ _ := rfl
  complete _ _ _ hauthor := by cases hauthor

/-- Not in a transaction, and not lost in one. -/
def AtRest (s : Session Row) : Prop := s.begun = false

theorem keeps_setSession [DecidableEq Conn] {s : Session Row} (h : Drifts (w.session c) s) :
    Keeps i w (w.setSession c s) := by
  refine ⟨fun _ => Iff.rfl, fun _ _ => rfl, fun _ => Iff.rfl, fun d _ => ?_, rfl⟩
  by_cases hd : d = c
  · subst hd
    rw [World.setSession_self]
    exact h
  · rw [World.setSession_of_ne _ _ hd]
    exact .inl rfl

theorem outside_keeps [DecidableEq Conn] (h : Sound S good rows₀ w) (ho : Outside AtRest w w') :
    Sound S good rows₀ w' ∧ ∀ i, Keeps i w w' := by
  cases ho with
  | lose c =>
    refine ⟨h.setSession (Nat.le_refl _) (fun _ => rfl) (h.resting c), fun i => keeps_setSession ?_⟩
    cases hbegun : (w.session c).begun with
    | true => exact .inr (.inl ⟨hbegun, rfl⟩)
    | false => exact .inr (.inr ⟨hbegun, rfl⟩)
  | @reconnect c b hlost hb =>
    have hbegun : (w.session c).begun = false := by
      rw [hlost]
      exact hb
    exact ⟨h.setSession (Nat.le_refl _) (fun _ => rfl) fun _ => rfl,
      fun i => keeps_setSession (.inr (.inr ⟨hbegun, rfl⟩))⟩

end Preservation

end SqlSessions
