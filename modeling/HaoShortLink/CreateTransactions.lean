import HaoShortLink.MySqlRepository
import HaoShortLink.SessionCalls

/-! MySqlShortLinkRepository::create in MySQL: calls side by side, each in a transaction of its own
on a pooled connection whose session can be lost at any time. -/
namespace CreateTransactions

open Cpp ShortLinks ShortCodes Program SqlSessions SessionCalls MySqlShortLinks
open MySqlRepository (newRow setCode isDuplicate)

/-- What the database throws. Whether it was the unique key of the column that refused a statement
shows in the message only. -/
structure DbError where
  message : Bytes
  violation : Bool
  named : violation = true → contains message (ascii "Duplicate entry") = true

inductive Thrown where
  | database (error : DbError)
  | repository (e : RepositoryException)

/-- e.what(), where it is caught as a std::exception. -/
def what : Thrown → Option Bytes
  | .database error => some error.message
  | .repository e => MySqlRepository.what e

structure CreateRequest where
  originalUrl : Bytes
  expiresAt : Option ℤ
  ownerId : ℕ
  customCode : Option Bytes
  deriving DecidableEq, Repr

/-- short_links, with the times that the server puts in a row. -/
def shortLinks : Schema LinkRow CreateRequest Bytes where
  inserts request id row :=
    ∃ now, row = newRow id now request.ownerId request.customCode request.originalUrl
      request.expiresAt
  updates code row row' := ∃ now, row' = setCode now code row.id row
  Apart := Distinct
  apart_symm h := ⟨h.1.symm, fun c d hc hd => by
    rw [StatisticsSchema.ShortLinksTable.sameCode_comm]
    exact h.2 d c hd hc⟩

abbrev CreateClient := SqlClient ℕ CreateRequest Bytes LinkRow Thrown

def recordIn (row : LinkRow) : Option ShortLinkRecord :=
  (parseStatus row.status).map fun status =>
    ⟨row.id, row.ownerId, row.code.getD [], row.originalUrl, status, row.expiresAt,
      row.createdAt, row.updatedAt⟩

def runtimeError (message : String) : Thrown := .repository (.std (.runtimeError (ascii message)))

def readRecord (row : LinkRow) : CreateClient ShortLinkRecord := do
  fetch
  match recordIn row with
  | none => throw (runtimeError "Unknown short link status")
  | some record => pure record

def codeFor (request : CreateRequest) (id : ℕ) : Bytes :=
  request.customCode.getD (encodeBase62 id)

def readBack (conn : ℕ) (id : ℕ) : CreateClient ShortLinkRecord := do
  let recordResult ← select conn id
  fetch
  match recordResult with
  | none => throw (runtimeError "Failed to read created short link")
  | some row =>
    let record ← readRecord row
    commit conn
    pure record

def createBody (conn : ℕ) (request : CreateRequest) : CreateClient ShortLinkRecord := do
  startTransaction conn
  insert conn request
  let idResult ← lastInsertId conn
  fetch
  match idResult with
  | none => throw (runtimeError "Failed to read last insert id")
  | some id =>
    if request.customCode.isNone then update conn (codeFor request id) id
    readBack conn id

def rethrow {α : Type} (request : CreateRequest) (e : Thrown) : CreateClient α :=
  if request.customCode.isSome && (what e).any isDuplicate then
    throw (.repository .shortCodeConflict)
  else throw e

/-- A connection that could not be had is not rolled back; one that was goes back to the pool
when the call ends. -/
def create (request : CreateRequest) : CreateClient ShortLinkRecord := do
  let conn ← tryCatch acquire (rethrow request)
  ensuring
    (tryCatch (createBody conn request) fun e => do
      tryCatch (rollback conn) fun _ => pure ()
      rethrow request e)
    (release conn)

structure AsAsked (request : CreateRequest) (id : ℕ) (row : LinkRow) : Prop where
  id_eq : row.id = id
  ownerId : row.ownerId = request.ownerId
  code : row.code = some (codeFor request id)
  originalUrl : row.originalUrl = request.originalUrl
  status : row.status = ascii "active"
  expiresAt : row.expiresAt = request.expiresAt

section Calls

variable {Tid : Type} {rows₀ : Rows LinkRow} {i : Tid} {request : CreateRequest} {conn id l : ℕ}
  {p : Rows LinkRow} {w : World Tid ℕ CreateRequest LinkRow} {row : LinkRow}

def Holding (p : Rows LinkRow) (record : ShortLinkRecord) : Prop :=
  (∃ row, p record.id = some row ∧ recordIn row = some record) ∧
    ∀ k, p k ≠ none → k = record.id

def AfterBody (i : Tid) (conn : ℕ) :
    Except Thrown ShortLinkRecord → World Tid ℕ CreateRequest LinkRow → Prop
  | .ok record, w => ∃ p, Closed i conn p w ∧ Holding p record
  | .error _, w => Failed i conn w

theorem fails (h : Failed i conn w) (e : Thrown) :
    Safe (protocol Tid ℕ shortLinks AsAsked rows₀) (Step shortLinks) i (AfterBody i conn)
      (throw e : CreateClient ShortLinkRecord).run w :=
  safe_throw fun _ hk _ => h.stable hk

theorem recordIn_id {record : ShortLinkRecord} (h : recordIn row = some record) :
    record.id = row.id := by
  obtain ⟨status, _, rfl⟩ := Option.map_eq_some_iff.mp h
  rfl

theorem safe_readRecord
    {Q : Except Thrown ShortLinkRecord → World Tid ℕ CreateRequest LinkRow → Prop}
    (h : Within i request conn p l w)
    (hok : ∀ record w', recordIn row = some record → Within i request conn p l w' →
      Q (.ok record) w')
    (herr : ∀ e w', Failed i conn w' → Q (.error e) w') :
    Safe (protocol Tid ℕ shortLinks AsAsked rows₀) (Step shortLinks) i Q
      (readRecord row).run w := by
  apply safe_client_bind
  refine safe_fetch h (fun w₁ h₁ => ?_) fun e w' hf =>
    safe_throw fun w₂ hk _ => herr e w₂ (hf.stable hk)
  cases hrecord : recordIn row with
  | none => exact safe_throw fun w₂ hk _ => herr _ w₂ (h₁.failed.stable hk)
  | some record => exact safe_pure fun w₂ hk _ => hok record w₂ hrecord (h₁.stable hk)

theorem safe_readBack (h : Within i request conn p l w) (hrow : p id = some row)
    (honly : ∀ k, p k ≠ none → k = id) (hasked : AsAsked request id row) :
    Safe (protocol Tid ℕ shortLinks AsAsked rows₀) (Step shortLinks) i (AfterBody i conn)
      (readBack conn id).run w := by
  have hgood : ∀ k other, p k = some other → AsAsked request k other := by
    intro k other hk
    obtain rfl := honly k (by simp [hk])
    obtain rfl := Option.some.inj (hrow.symm.trans hk)
    exact hasked
  apply safe_client_bind
  refine safe_select h hrow (fun w₁ h₁ => ?_) fun e w' hf => fails hf e
  apply safe_client_bind
  refine safe_fetch h₁ (fun w₂ h₂ => ?_) fun e w' hf => fails hf e
  apply safe_client_bind
  refine safe_readRecord h₂ (fun record w₃ hrecord h₃ => ?_) fun e w' hf => fails hf e
  apply safe_client_bind
  refine safe_commit h₃ hgood (fun w₄ h₄ => ?_) fun e w' hf => fails hf e
  have hid : record.id = id := (recordIn_id hrecord).trans hasked.id_eq
  refine safe_pure fun w₅ hk _ => ⟨p, h₄.stable hk, ⟨row, ?_, hrecord⟩, ?_⟩
  · rw [hid]
    exact hrow
  · rw [hid]
    exact honly

theorem asAsked_newRow {now : ℤ} {code : Bytes} (h : request.customCode = some code) :
    AsAsked request id (newRow id now request.ownerId request.customCode request.originalUrl
      request.expiresAt) :=
  ⟨rfl, rfl, by simp [newRow, codeFor, h], rfl, rfl, rfl⟩

theorem asAsked_setCode {now now' : ℤ} :
    AsAsked request id (setCode now' (codeFor request id) id (newRow id now request.ownerId none
      request.originalUrl request.expiresAt)) := by
  refine ⟨?_, ?_, ?_, ?_, ?_, ?_⟩ <;> simp [newRow, setCode]

theorem only_inserted (id : ℕ) (row : LinkRow) (k : ℕ)
    (h : Function.update (fun _ => none) id (some row) k ≠ none) : k = id := by
  by_contra hne
  exact h (Function.update_of_ne hne _ _)

theorem safe_createBody (h : Ready i request conn w) :
    Safe (protocol Tid ℕ shortLinks AsAsked rows₀) (Step shortLinks) i (AfterBody i conn)
      (createBody conn request).run w := by
  apply safe_client_bind
  refine safe_startTransaction h (fun l w₁ h₁ => ?_) fun e w' hf => fails hf e
  apply safe_client_bind
  refine safe_insert h₁ ?_ fun e w' hf => fails hf e
  rintro id _ w₂ ⟨now, rfl⟩ h₂
  apply safe_client_bind
  refine safe_lastInsertId h₂ (fun w₃ h₃ => ⟨?_, ?_⟩) fun e w' hf => fails hf e
  · apply safe_client_bind
    refine safe_fetch h₃ (fun w₄ h₄ => ?_) fun e w' hf => fails hf e
    cases hcode : request.customCode with
    | none =>
      simp only [hcode, Option.isNone_none, if_true] at h₄ ⊢
      apply safe_client_bind
      refine safe_update h₄ (Function.update_self ..) ?_ fun e w' hf => fails hf e
      rintro _ w₅ ⟨now', rfl⟩ h₅
      rw [Function.update_idem] at h₅
      exact safe_readBack h₅ (Function.update_self ..) (only_inserted id _) asAsked_setCode
    | some code =>
      simp only [hcode, Option.isNone_some, Bool.false_eq_true, if_false] at h₄ ⊢
      exact safe_readBack h₄ (Function.update_self ..) (only_inserted id _)
        (hcode ▸ asAsked_newRow hcode)
  · apply safe_client_bind
    refine safe_fetch h₃ (fun w₄ h₄ => fails h₄.failed _) fun e w' hf => fails hf e

def AfterCall (i : Tid) :
    Except Thrown ShortLinkRecord → World Tid ℕ CreateRequest LinkRow → Prop
  | .ok record, w => ∃ p, Wrote i p w ∧ Holding p record
  | .error _, w => Wrote i (fun _ => none) w

theorem afterCall_stable (r : Except Thrown ShortLinkRecord) :
    (protocol Tid ℕ shortLinks AsAsked rows₀).Stable i (AfterCall i r) := by
  intro w w' hk h
  cases r with
  | ok record =>
    obtain ⟨p, hwrote, hholding⟩ := h
    exact ⟨p, wrote_stable hwrote hk, hholding⟩
  | error e => exact wrote_stable h hk

theorem safe_rethrow {α : Type} {Q : Except Thrown α → World Tid ℕ CreateRequest LinkRow → Prop}
    {e : Thrown} (h : ∀ e w', Keeps i w w' → Q (.error e) w') :
    Safe (protocol Tid ℕ shortLinks AsAsked rows₀) (Step shortLinks) i Q
      (rethrow request e : CreateClient α).run w := by
  unfold rethrow
  split
  · exact safe_throw fun w' hk _ => h _ w' hk
  · exact safe_throw fun w' hk _ => h _ w' hk

theorem safe_handler (h : Failed i conn w) (e : Thrown) :
    Safe (protocol Tid ℕ shortLinks AsAsked rows₀) (Step shortLinks) i
      (fun r w => Safe (protocol Tid ℕ shortLinks AsAsked rows₀) (Step shortLinks) i
        (fun _ w => AfterCall i r w) (release conn : CreateClient Unit).run w)
      (do tryCatch (rollback conn) fun _ => pure ()
          rethrow request e : CreateClient ShortLinkRecord).run w := by
  have hend : ∀ w, Closed i conn (fun _ => none) w →
      Safe (protocol Tid ℕ shortLinks AsAsked rows₀) (Step shortLinks) i
        (fun r w => Safe (protocol Tid ℕ shortLinks AsAsked rows₀) (Step shortLinks) i
          (fun _ w => AfterCall i r w) (release conn : CreateClient Unit).run w)
        (rethrow request e : CreateClient ShortLinkRecord).run w := fun w hw =>
    safe_rethrow fun e w' hk => safe_release (hw.stable hk) fun _ _ hwrote => hwrote
  apply safe_client_bind
  apply safe_catch
  refine safe_rollback h fun r w₁ h₁ => ?_
  cases r with
  | ok _ => exact safe_pure fun w₂ hk _ => hend w₂ (h₁.stable hk)
  | error _ => exact safe_pure fun w₂ hk _ => hend w₂ (h₁.stable hk)

theorem safe_create (h : Idle i w) (hasked : w.asked i = some request) :
    Safe (protocol Tid ℕ shortLinks AsAsked rows₀) (Step shortLinks) i (AfterCall i)
      (create request).run w := by
  apply safe_client_bind
  apply safe_catch
  refine safe_acquire h hasked (fun conn w₁ h₁ => ?_) fun e w₁ h₁ => ?_
  · refine safe_pure fun w₂ hk _ => ?_
    apply safe_ensuring afterCall_stable
    apply safe_catch
    apply safe_mono (safe_createBody (h₁.stable hk))
    rintro (e | record) w₃ _ hq
    · exact safe_handler hq e
    · obtain ⟨p, hclosed, hholding⟩ := hq
      exact safe_pure fun w₄ hk _ =>
        safe_release (hclosed.stable hk) fun _ _ hwrote => ⟨p, hwrote, hholding⟩
  · exact safe_rethrow fun e w₂ hk => safe_throw fun w₃ hk' _ =>
      wrote_stable (wrote_stable h₁ hk) hk'

end Calls

section Runs

variable {Tid : Type} [DecidableEq Tid]

abbrev CallPool (Tid : Type) :=
  Pool Tid (World Tid ℕ CreateRequest LinkRow) (SqlOp ℕ CreateRequest Bytes)
    (fun op => Except Thrown (op.Reply LinkRow)) (Except Thrown ShortLinkRecord)

/-- Concurrent creates, where the sessions that replaces allows may be replaced. -/
def creates (Tid : Type) [DecidableEq Tid] (replaces : Session LinkRow → Prop) :
    Machine Tid (World Tid ℕ CreateRequest LinkRow) (SqlOp ℕ CreateRequest Bytes)
      (fun op => Except Thrown (op.Reply LinkRow)) (Except Thrown ShortLinkRecord) CreateRequest :=
  machine shortLinks create replaces

/-- What a caller may expect: a call that threw has left nothing; one that returned has left one
row, the record; only rows of old have no code; and codes differ. -/
structure AllOrNothing (t : Table shortLinks) (s : CallPool Tid) : Prop where
  thrown : ∀ i e, s.thread i = some (.ret (.error e)) →
    ∀ k, s.world.author k = some i → s.world.rows k = none
  returned : ∀ i record, s.thread i = some (.ret (.ok record)) →
    ∃ row request, s.world.asked i = some request ∧ s.world.author record.id = some i ∧
      s.world.rows record.id = some row ∧ recordIn row = some record ∧
      AsAsked request record.id row ∧
      ∀ k, s.world.author k = some i → k ≠ record.id → s.world.rows k = none
  kept : ∀ k, s.world.author k = none → s.world.rows k = t.rows k
  coded : ∀ k row, s.world.rows k = some row → row.code = none → t.rows k = some row
  distinct : ∀ k l a b, k ≠ l → s.world.rows k = some a → s.world.rows l = some b → Distinct a b

/-- Creation is all or nothing in every run in which no session that was lost in a transaction
is replaced before its call has rolled back. -/
theorem creates_all_or_nothing (t : Table shortLinks) (s : CallPool Tid)
    (h : (creates Tid AtRest).Reachable t.world s) : AllOrNothing t s := by
  have hverified : (creates Tid AtRest).Verified (protocol Tid ℕ shortLinks AsAsked t.rows) Idle
      AfterCall := verified fun i request w hidle hasked => safe_create hidle hasked
  obtain ⟨hsound, hthreads⟩ := hverified.reachable t.sound (idle_world t) h
  have hended : ∀ i r, s.thread i = some (.ret r) → AfterCall i r s.world := by
    intro i r hr
    have hi := hthreads i
    rw [hr] at hi
    exact hi s.world (keeps_refl i _) hsound
  constructor
  case thrown =>
    intro i e hr k hauthor
    exact (hended i _ hr k).1 hauthor
  case returned =>
    intro i record hr
    obtain ⟨p, hwrote, ⟨row, hrow, hrecord⟩, honly⟩ := hended i _ hr
    have hauthor := (hwrote record.id).2 (by simp [hrow])
    have hcommitted := ((hwrote record.id).1 hauthor).trans hrow
    obtain ⟨request, hasked, has⟩ := hsound.complete _ i row hauthor hcommitted
    refine ⟨row, request, hasked, hauthor, hcommitted, hrecord, has, fun k hk hne => ?_⟩
    rw [(hwrote k).1 hk]
    by_contra hp
    exact hne (honly k hp)
  case kept => exact hsound.old
  case coded =>
    intro k row hrow hcode
    cases hauthor : s.world.author k with
    | none => exact (hsound.old k hauthor).symm.trans hrow
    | some i =>
      obtain ⟨request, _, has⟩ := hsound.complete k i row hauthor hrow
      rw [has.code] at hcode
      cases hcode
  case distinct =>
    intro k l a b hne ha hb
    exact hsound.apart k l a b hne (.inl ha) (.inl hb)

def emptyLinks : Table shortLinks := ⟨fun _ => none, 1, fun _ _ => rfl, by simp⟩

def demoRequest : CreateRequest := ⟨ascii "https://a", none, 7, none⟩

def demoRow (code : Option Bytes) : LinkRow :=
  newRow 1 0 demoRequest.ownerId code demoRequest.originalUrl demoRequest.expiresAt

def demoRecord : ShortLinkRecord :=
  ⟨1, 7, encodeBase62 1, ascii "https://a", .active, none, 0, 0⟩

def demoWorld : World Unit ℕ CreateRequest LinkRow :=
  ⟨emptyLinks.rows, 1, fun _ => .idle 0, fun _ => none,
    Function.update (fun _ => none) () (some demoRequest), fun _ => none⟩

theorem create_started (replaces : Session LinkRow → Prop) :
    (creates Unit replaces).Reachable emptyLinks.world
      ⟨demoWorld, Function.update (fun _ => none) () (some (create demoRequest).run)⟩ :=
  .next .init (.start _ () demoRequest _ rfl ⟨rfl, rfl⟩)

theorem admits_alone {w : World Unit ℕ CreateRequest LinkRow} {id : ℕ} {row : LinkRow}
    (hrows : ∀ k, w.rows k = none) (hothers : ∀ c, c ≠ 0 → w.session c = .idle 0)
    (hwrites : ∀ k, k ≠ id → (w.session 0).writes k = none) : w.Admits shortLinks id row := by
  rintro k a hk (ha | ⟨c, ha⟩)
  · rw [hrows k] at ha
    cases ha
  · by_cases hc : c = 0
    · rw [hc, hwrites k hk] at ha
      cases ha
    · rw [hothers c hc] at ha
      cases ha

theorem create_returns : ∃ w, CallSeq (Step shortLinks) () (create demoRequest).run demoWorld
    (.ret (.ok demoRecord)) w := by
  refine exists_call (.ok (0 : ℕ)) (.acquire rfl) ?_
  refine exists_call (.ok ()) (.start rfl) ?_
  refine exists_call (.ok ()) (.insert (k := 1) rfl (le_refl 1) ⟨0, rfl⟩ ?_) ?_
  · exact admits_alone (fun _ => rfl) (fun c hc => Function.update_of_ne hc _ _) fun _ _ => rfl
  refine exists_call (.ok (some (1 : ℕ))) (.lastInsertId rfl) ?_
  refine exists_call (.ok ()) .fetch ?_
  refine exists_call (.ok ()) (.update rfl rfl ⟨0, rfl⟩ ?_) ?_
  · refine admits_alone (fun _ => rfl) (fun c hc => ?_) fun k hk => ?_
    · exact (Function.update_of_ne hc _ _).trans (Function.update_of_ne hc _ _)
    · simp [World.setSession, Session.writes, hk]
  refine exists_call (.ok (some (demoRow (some (encodeBase62 1))))) (.select rfl ?_) ?_
  · intro row hrow
    rw [← hrow]
    rfl
  refine exists_call (.ok ()) .fetch ?_
  refine exists_call (.ok ()) .fetch ?_
  refine exists_call (.ok ()) (.commit rfl) ?_
  refine exists_call (.ok ()) .release ?_
  exact ⟨_, .done _ _⟩

theorem creates_all_or_nothing_one : ∃ s : CallPool Unit,
    s.thread () = some (.ret (.ok demoRecord)) ∧ AllOrNothing emptyLinks s := by
  obtain ⟨w, hw⟩ := create_returns
  exact ⟨_, by simp, creates_all_or_nothing emptyLinks _ ((create_started AtRest).calls rfl hw)⟩

def lostConnection : Thrown :=
  .database ⟨ascii "Lost connection to MySQL server during query", false, by simp⟩

/-- The session is lost and replaced after START TRANSACTION: the INSERT takes effect at once,
without a code, and the ROLLBACK of the failed call finds nothing to roll back. -/
theorem create_leaves_codeless_row : ∃ s : CallPool Unit,
    (creates Unit fun _ => True).Reachable emptyLinks.world s ∧
      s.thread () = some (.ret (.error lostConnection)) ∧
      s.world.rows 1 = some (demoRow none) ∧ ¬ AllOrNothing emptyLinks s := by
  have hcalls : CallSeq (Step shortLinks) () (create demoRequest).run demoWorld _ _ :=
    .call (.ok (0 : ℕ)) (.acquire rfl) (.call (.ok ()) (.start rfl) (.done _ _))
  have hbegun := (create_started fun _ => True).calls rfl hcalls
  have hlost := hbegun.next (.outside _ _ (.lose 0))
  have hreplaced := hlost.next (.outside _ _ (.reconnect (c := 0) (b := true) rfl trivial))
  refine ⟨_, hreplaced.calls (i := ()) rfl
    (.call (.ok ()) (.insertNow (k := 1) rfl (le_refl 1) ⟨0, rfl⟩ ?_)
    (.call (.error lostConnection) (.refused trivial (le_refl _))
    (.call (.ok ()) (.rollbackNothing rfl)
    (.call (.ok ()) .release (.done _ _))))), ?_, rfl, ?_⟩
  · refine admits_alone (fun _ => rfl) (fun c hc => ?_) fun _ _ => rfl
    simp [World.setSession, demoWorld]
  · rfl
  · intro h
    have hnone := h.thrown () lostConnection rfl 1 rfl
    cases hnone

end Runs

end CreateTransactions
