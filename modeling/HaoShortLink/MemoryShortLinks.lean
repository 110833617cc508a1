import HaoShortLink.ShortCodes
import HaoShortLink.ShortLinks
import Mathlib.Data.List.AList
import Mathlib.Data.List.Induction
import Mathlib.Data.List.Sort

/-! The in-memory link store (MemoryShortLinkRepository.cpp). -/
namespace MemoryShortLinks

open Cpp ShortLinks ShortCodes

/-- links_ by code, and the 64-bit counter nextId_. -/
structure MemoryShortLinkRepository where
  links : AList fun _ : Bytes => ShortLinkRecord
  nextId : ℕ

def MemoryShortLinkRepository.empty : MemoryShortLinkRepository := ⟨∅, 1⟩

def codeFor (customCode : Option Bytes) (id : ℕ) : Bytes := customCode.getD (encodeBase62 id)

def create (originalUrl : Bytes) (expiresAt : Option ℤ) (ownerId : ℕ) (customCode : Option Bytes)
    (now : ℤ) (r : MemoryShortLinkRepository) :
    Except RepositoryException (Option ShortLinkRecord) × MemoryShortLinkRepository :=
  let id := r.nextId
  let r := { r with nextId := (r.nextId + 1) % 2 ^ 64 }
  let code := codeFor customCode id
  if code ∈ r.links then (.error .shortCodeConflict, r)
  else
    let record : ShortLinkRecord :=
      ⟨id, ownerId, code, originalUrl, .active, expiresAt, now, now⟩
    (.ok (some record), { r with links := r.links.insert code record })

def findByCodeForOwner (code : Bytes) (ownerId : ℕ) (r : MemoryShortLinkRepository) :
    Option ShortLinkRecord :=
  (r.links.lookup code).filter fun record => record.ownerId == ownerId

def findByCode (code : Bytes) (r : MemoryShortLinkRepository) : LookupResult :=
  ⟨r.links.lookup code, .memory⟩

def selects (query : ListQuery) (record : ShortLinkRecord) : Bool :=
  !(record.id ≤ query.cursor ||
    query.ownerId.any (record.ownerId != ·) || query.status.any (record.status != ·))

def list (query : ListQuery) (r : MemoryShortLinkRepository) : List ShortLinkRecord :=
  let records := (r.links.entries.map Sigma.snd).filter (selects query)
  (records.mergeSort fun left right => left.id ≤ right.id).take query.limit

def updateLifecycle (code : Bytes) (update : LifecycleUpdate) (now : ℤ)
    (r : MemoryShortLinkRepository) : Option ShortLinkRecord × MemoryShortLinkRepository :=
  match r.links.lookup code with
  | none => (none, r)
  | some record =>
    if update.ownerId.any (record.ownerId != ·) then (none, r)
    else
      let record := { record with
        status := update.status.getD record.status
        expiresAt := if update.expiresAtProvided then update.expiresAt else record.expiresAt
        updatedAt := now }
      (some record, { r with links := r.links.insert code record })

/-- None of its methods throws anything but a conflict. -/
def repository : ShortLinkRepository MemoryShortLinkRepository where
  create := create
  findByCode code r := .ok (findByCode code r)
  findByCodeForOwner code ownerId r := .ok (findByCodeForOwner code ownerId r)
  defaultLookupSource := .memory
  list query r := .ok (list query r)
  updateLifecycle code update now r :=
    let (record, r) := updateLifecycle code update now r
    (.ok record, r)

structure CreateCall where
  originalUrl : Bytes
  expiresAt : Option ℤ
  ownerId : ℕ
  customCode : Option Bytes
  now : ℤ

def CreateCall.run (c : CreateCall) (r : MemoryShortLinkRepository) :
    Except RepositoryException (Option ShortLinkRecord) × MemoryShortLinkRepository :=
  create c.originalUrl c.expiresAt c.ownerId c.customCode c.now r

def storeAfter (calls : List CreateCall) : MemoryShortLinkRepository :=
  calls.foldl (fun r c => (c.run r).2) .empty

@[simp] theorem storeAfter_snoc (calls : List CreateCall) (c : CreateCall) :
    storeAfter (calls ++ [c]) = (c.run (storeAfter calls)).2 := by simp [storeAfter]

theorem create_nextId (c : CreateCall) (r : MemoryShortLinkRepository) :
    (c.run r).2.nextId = (r.nextId + 1) % 2 ^ 64 := by
  unfold CreateCall.run create
  dsimp only
  split <;> rfl

/-- Failed or not, after a create call its code is taken. -/
theorem create_mem (c : CreateCall) (r : MemoryShortLinkRepository) (code : Bytes) :
    code ∈ (c.run r).2.links ↔ code = codeFor c.customCode r.nextId ∨ code ∈ r.links := by
  unfold CreateCall.run create
  dsimp only
  split
  · next h => exact ⟨.inr, fun h' => h'.elim (· ▸ h) id⟩
  · simp

theorem create_ok (c : CreateCall) (r : MemoryShortLinkRepository) :
    (∃ record, (c.run r).1 = .ok (some record)) ↔ codeFor c.customCode r.nextId ∉ r.links := by
  unfold CreateCall.run create
  dsimp only
  split
  · next h => simp [h]
  · next h => simp [h]

theorem storeAfter_nextId {calls : List CreateCall} (h : calls.length + 1 < 2 ^ 64) :
    (storeAfter calls).nextId = calls.length + 1 := by
  induction calls using List.reverseRecOn with
  | nil => rfl
  | append_singleton calls c ih =>
    simp only [List.length_append, List.length_singleton] at h ⊢
    rw [storeAfter_snoc, create_nextId, ih (by omega), Nat.mod_eq_of_lt h]

/-- The codes in the store are those of the calls made, each with its own id. -/
theorem mem_storeAfter {calls : List CreateCall} (h : calls.length < 2 ^ 64) (code : Bytes) :
    code ∈ (storeAfter calls).links ↔
      ∃ before c after, calls = before ++ c :: after ∧
        codeFor c.customCode (before.length + 1) = code := by
  induction calls using List.reverseRecOn with
  | nil => simp [storeAfter, MemoryShortLinkRepository.empty]
  | append_singleton calls c ih =>
    simp only [List.length_append, List.length_singleton] at h
    rw [storeAfter_snoc, create_mem, ih (by omega), storeAfter_nextId h]
    constructor
    · rintro (rfl | ⟨before, d, after, rfl, rfl⟩)
      · exact ⟨calls, c, [], rfl, rfl⟩
      · exact ⟨before, d, after ++ [c], by simp, rfl⟩
    · rintro ⟨before, d, after, heq, rfl⟩
      rcases after.eq_nil_or_concat with rfl | ⟨after, e, rfl⟩
      · obtain ⟨rfl, hcd⟩ := List.append_inj' heq rfl
        obtain rfl : c = d := by simpa using hcd
        exact .inl rfl
      · refine .inr ⟨before, d, after, ?_, rfl⟩
        have hsnoc : calls ++ [c] = (before ++ d :: after) ++ [e] := by simpa using heq
        exact (List.append_inj' hsnoc rfl).1

/-- A call without a custom code succeeds unless someone chose the Base62 form of its id. -/
theorem codeless_ok_iff {before : List CreateCall} {c : CreateCall}
    (h : before.length + 1 < 2 ^ 64) (hc : c.customCode = none) :
    (∃ record, (c.run (storeAfter before)).1 = .ok (some record)) ↔
      ∀ d ∈ before, d.customCode ≠ some (encodeBase62 (before.length + 1)) := by
  rw [create_ok, mem_storeAfter (by omega), storeAfter_nextId h, hc]
  constructor
  · intro hfree d hd hchosen
    obtain ⟨p, q, rfl⟩ := List.append_of_mem hd
    exact hfree ⟨p, d, q, rfl, by simp [codeFor, hchosen]⟩
  · rintro hchosen ⟨p, d, q, rfl, hcode⟩
    cases hd : d.customCode with
    | some code =>
      apply hchosen d (by simp)
      simpa [codeFor, hd] using hcode
    | none =>
      -- two ids never share a Base62 form
      have hids : p.length + 1 = (p ++ d :: q).length + 1 :=
        encodeBase62_injective (by simpa [codeFor, hd] using hcode)
      simp only [List.length_append, List.length_cons] at hids
      omega

def CodelessCallsSucceed (calls : List CreateCall) : Prop :=
  ∀ before c after, calls = before ++ c :: after → c.customCode = none →
    ∃ record, (c.run (storeAfter before)).1 = .ok (some record)

/-- Nobody asked for the code that a later codeless call derives from its id. -/
def NoGeneratedCodeChosen (calls : List CreateCall) : Prop :=
  ∀ before c after, calls = before ++ c :: after → c.customCode = none →
    ∀ d ∈ before, d.customCode ≠ some (encodeBase62 (before.length + 1))

theorem codeless_calls_succeed_iff (calls : List CreateCall) (h : calls.length < 2 ^ 64) :
    CodelessCallsSucceed calls ↔ NoGeneratedCodeChosen calls := by
  have hpoint : ∀ before c after, calls = before ++ c :: after → c.customCode = none →
      ((∃ record, (c.run (storeAfter before)).1 = .ok (some record)) ↔
        ∀ d ∈ before, d.customCode ≠ some (encodeBase62 (before.length + 1))) := by
    rintro before c after rfl hc
    simp only [List.length_append, List.length_cons] at h
    exact codeless_ok_iff (by omega) hc
  constructor
  · exact fun hs before c after heq hc => (hpoint before c after heq hc).mp (hs _ _ _ heq hc)
  · exact fun hn before c after heq hc => (hpoint before c after heq hc).mpr (hn _ _ _ heq hc)

def demoCall (ownerId : ℕ) (customCode : Option Bytes) : CreateCall :=
  ⟨ascii "https://a.example", none, ownerId, customCode, 0⟩

theorem encodeBase62_two : encodeBase62 2 = ascii "000002" := by
  have hloop : encodeLoop 2 = [50] := by
    rw [encodeLoop_eq]
    decide
  simp only [encodeBase62, hloop]
  decide

theorem codeless_calls_succeed_demo :
    CodelessCallsSucceed [demoCall 1 (some (ascii "mine")), demoCall 2 none] := by
  apply (codeless_calls_succeed_iff _ (by decide)).mpr
  intro before c after heq hc d hd
  match before with
  | [] => cases hd
  | [e] =>
    obtain rfl := List.mem_singleton.mp hd
    obtain rfl := (List.cons.inj heq).1
    change some (ascii "mine") ≠ some (encodeBase62 2)
    rw [encodeBase62_two]
    decide
  | e :: f :: before => simp at heq

/-- User 1 takes the code of id 2, and the codeless call of user 2 is refused. -/
theorem generated_code_chosen :
    ∃ calls : List CreateCall, calls.length < 2 ^ 64 ∧
      (∀ c ∈ calls, ∀ code, c.customCode = some code → isValidCustomCode code = true) ∧
      ¬ CodelessCallsSucceed calls := by
  refine ⟨[demoCall 1 (some (ascii "000002")), demoCall 2 none], by decide, by decide, ?_⟩
  intro h
  have hok := h [demoCall 1 (some (ascii "000002"))] (demoCall 2 none) [] rfl rfl
  exact (codeless_ok_iff (by decide) rfl).mp hok _ (List.mem_singleton_self _)
    (congrArg some encodeBase62_two.symm)

end MemoryShortLinks
