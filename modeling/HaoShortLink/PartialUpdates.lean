import HaoShortLink.CreateCounts
import HaoShortLink.JsonContracts
import HaoShortLink.LinkHistories
import HaoShortLink.Sessions

/-! PUT /api/short-links/:code over the in-memory store: which bodies it takes and what they
change. -/
namespace PartialUpdates

open Cpp Actions HttpRequests JsonValues JsonContracts ShortLinks ServerStates
open ServerStates.Server ApiHandlers
open AuthHttp (hasJsonContentType)
open MemoryShortLinks (MemoryShortLinkRepository codeFor)
open OwnedLinks (updated)
open OwnerIsolation (overMemory)
open UtcTimestamps (parseUtcTimestamp formatUtcTimestamp)

/-- The values for the fields that are given. An expiry that is given may be none. -/
structure Change where
  status : Option Status
  expiresAt : Option (Option ℤ)
  deriving DecidableEq

def Change.apply (change : Change) (now : ℤ) (record : ShortLinkRecord) : ShortLinkRecord :=
  { record with
    status := change.status.getD record.status
    expiresAt := change.expiresAt.getD record.expiresAt
    updatedAt := now }

inductive StatusField : Option Json → Option Status → Prop where
  | absent : StatusField none none
  | given (status : Status) : StatusField (some (.string (statusToString status))) (some status)

inductive ExpiryField : Option Json → Option (Option ℤ) → Prop where
  | absent : ExpiryField none none
  | cleared : ExpiryField (some .null) (some none)
  | given (text : Bytes) (t : ℤ) : parseUtcTimestamp text = some t →
      ExpiryField (some (.string text)) (some (some t))

/-- One or both of the fields, and no other member. -/
structure Describes (object : Json) (change : Change) : Prop where
  known : ∀ m ∈ object.items, m.1 = ascii "status" ∨ m.1 = ascii "expires_at"
  status : StatusField (object.find (ascii "status")) change.status
  expiresAt : ExpiryField (object.find (ascii "expires_at")) change.expiresAt
  some : change.status.isSome ∨ change.expiresAt.isSome

variable {A L : Type} (api : ShortLinkHttpApi A L)

/-- The body is an object that asks for the change. -/
structure Asks (request : HttpRequest) (change : Change) : Prop where
  contentType : hasJsonContentType request
  size : request.body.length ≤ 16384
  body : ∃ object, api.json.parseIgnoringComments request.body = some object ∧ object.isObject ∧
    Describes object change

/-- The update that handleUpdate makes of it. -/
def Change.update (change : Change) (ownerId : ℕ) : LifecycleUpdate :=
  ⟨change.status, change.expiresAt.isSome, change.expiresAt.join, some ownerId⟩

theorem updated_update (change : Change) (ownerId : ℕ) (now : ℤ) (record : ShortLinkRecord) :
    updated (change.update ownerId) now record = change.apply now record := by
  obtain ⟨status, expiresAt⟩ := change
  rcases expiresAt with _ | expiresAt
  · simp [updated, Change.update, Change.apply]
  · simp [updated, Change.update, Change.apply]

theorem parseStatus_eq_some {value : Bytes} {status : Status} :
    parseStatus value = some status ↔ value = statusToString status := by
  constructor
  · intro h
    unfold parseStatus at h
    split_ifs at h with hactive hdisabled
    · rw [hactive, ← Option.some.inj h]
      decide
    · rw [hdisabled, ← Option.some.inj h]
      decide
  · intro h
    rw [h, parseStatus_statusToString]

theorem updateField_status (update u : LifecycleUpdate) (value : Json) :
    updateField update (ascii "status", value) = .ok u ↔
      ∃ status, StatusField (some value) (some status) ∧
        u = { update with status := some status } := by
  have hother : ascii "status" ≠ ascii "expires_at" := by decide
  cases value with
  | string s =>
    simp only [updateField, Json.asString, Option.isSome_some, and_self, if_true,
      Option.bind_some]
    constructor
    · intro h
      cases hparse : parseStatus s with
      | none =>
        rw [hparse] at h
        cases h
      | some status =>
        rw [hparse] at h
        rw [parseStatus_eq_some.mp hparse]
        exact ⟨status, .given status, (Except.ok.inj h).symm⟩
    · intro ⟨status, hfield, hu⟩
      cases hfield
      rw [parseStatus_statusToString, hu]
  | _ =>
    simp only [updateField, Json.asString, Option.isSome_none, Bool.false_eq_true, and_false,
      if_false, hother]
    constructor
    · intro h
      cases h
    · intro ⟨status, hfield, _⟩
      cases hfield

theorem updateField_expiresAt (update u : LifecycleUpdate) (hnone : update.expiresAt = none)
    (value : Json) : updateField update (ascii "expires_at", value) = .ok u ↔
      ∃ expiresAt, ExpiryField (some value) (some expiresAt) ∧
        u = { update with expiresAtProvided := true, expiresAt := expiresAt } := by
  have hstatus : ascii "expires_at" ≠ ascii "status" := by decide
  cases value with
  | null =>
    simp only [updateField, hstatus, false_and, if_false, if_true, Json.isNull]
    constructor
    · intro h
      refine ⟨none, .cleared, ?_⟩
      rw [← Except.ok.inj h, ← hnone]
    · intro ⟨expiresAt, hfield, hu⟩
      cases hfield
      rw [hu, ← hnone]
  | string s =>
    simp only [updateField, hstatus, false_and, if_false, if_true, Json.isNull, Json.asString,
      Option.bind_some, Bool.false_eq_true]
    constructor
    · intro h
      cases hparse : parseUtcTimestamp s with
      | none =>
        rw [hparse] at h
        cases h
      | some t =>
        rw [hparse] at h
        exact ⟨some t, .given s t hparse, (Except.ok.inj h).symm⟩
    · intro ⟨expiresAt, hfield, hu⟩
      cases hfield with
      | given text t hparse => rw [hparse, hu]
  | _ =>
    simp only [updateField, hstatus, false_and, if_false, if_true, Json.isNull, Json.asString,
      Option.bind_none, Bool.false_eq_true]
    constructor
    · intro h
      cases h
    · intro ⟨expiresAt, hfield, _⟩
      cases hfield

theorem updateField_other (update : LifecycleUpdate) {m : Bytes × Json}
    (hstatus : m.1 ≠ ascii "status") (hexpiry : m.1 ≠ ascii "expires_at") :
    updateField update m = .error notUpdatable := by
  simp [updateField, hstatus, hexpiry]

/-- The bodies whose members are all known. -/
inductive Known : List (Bytes × Json) → Prop where
  | status (v : Json) : Known [(ascii "status", v)]
  | expiresAt (e : Json) : Known [(ascii "expires_at", e)]
  | both (e v : Json) : Known [(ascii "expires_at", e), (ascii "status", v)]

theorem known_of_sorted {members : List (Bytes × Json)}
    (hsorted : members.Pairwise fun a b => a.1 < b.1) (hne : members ≠ [])
    (hknown : ∀ m ∈ members, m.1 = ascii "status" ∨ m.1 = ascii "expires_at") : Known members := by
  have hlt : ¬ ascii "status" < ascii "expires_at" := by decide
  have hirrefl : ∀ name : Bytes, ¬ name < name := fun name => List.lt_irrefl name
  match members with
  | [] => exact absurd rfl hne
  | [(name, v)] =>
    have hname := hknown (name, v) List.mem_cons_self
    dsimp only at hname
    rcases hname with hname | hname
    · rw [hname]
      exact .status v
    · rw [hname]
      exact .expiresAt v
  | (name, e) :: (name', v) :: rest =>
    have hname := hknown (name, e) List.mem_cons_self
    have hname' := hknown (name', v) (List.mem_cons_of_mem _ List.mem_cons_self)
    obtain ⟨hfirst, hrest⟩ := List.pairwise_cons.mp hsorted
    have hbefore := hfirst (name', v) List.mem_cons_self
    dsimp only at hname hname' hbefore
    have hnames : name = ascii "expires_at" ∧ name' = ascii "status" := by
      rcases hname with hname | hname <;> rcases hname' with hname' | hname' <;>
        rw [hname, hname'] at hbefore
      · exact absurd hbefore (hirrefl _)
      · exact absurd hbefore hlt
      · exact ⟨hname, hname'⟩
      · exact absurd hbefore (hirrefl _)
    rw [hnames.1, hnames.2]
    cases rest with
    | nil => exact .both e v
    | cons m rest =>
      -- a third name would come after "status"
      have hafter := (List.pairwise_cons.mp hrest).1 m List.mem_cons_self
      rw [hnames.2] at hafter
      rcases hknown m (by simp) with hm | hm
      · exact absurd (hm ▸ hafter) (hirrefl _)
      · exact absurd (hm ▸ hafter) hlt

/-- The loop over the members. -/
def readMembers (ownerId : ℕ) (members : List (Bytes × Json)) : Except FieldError LifecycleUpdate :=
  members.foldlM updateField ⟨none, false, none, some ownerId⟩

theorem names_of_foldlM {members : List (Bytes × Json)} {update u : LifecycleUpdate}
    (h : members.foldlM updateField update = .ok u) :
    ∀ m ∈ members, m.1 = ascii "status" ∨ m.1 = ascii "expires_at" := by
  induction members generalizing update with
  | nil => simp
  | cons m members ih =>
    rw [List.foldlM_cons] at h
    obtain ⟨update', hm, hrest⟩ := bind_eq_ok.mp h
    intro m' hm'
    rcases List.mem_cons.mp hm' with heq | hmem
    · rw [heq]
      by_contra hnot
      obtain ⟨hstatus, hexpiry⟩ := not_or.mp hnot
      rw [updateField_other update hstatus hexpiry] at hm
      cases hm
    · exact ih hrest m' hmem

theorem find_status (e v : Json) :
    (Json.object [(ascii "expires_at", e), (ascii "status", v)]).find (ascii "status") =
      some v := by
  have hne : (ascii "expires_at" == ascii "status") = false := by decide
  simp [Json.find, hne]

theorem readMembers_iff {members : List (Bytes × Json)} (h : Known members) (ownerId : ℕ)
    (update : LifecycleUpdate) : readMembers ownerId members = .ok update ↔
      ∃ change, Describes (.object members) change ∧ update = change.update ownerId := by
  have hne : (ascii "expires_at" == ascii "status") = false := by decide
  have hne' : (ascii "status" == ascii "expires_at") = false := by decide
  cases h with
  | status v =>
    have hread : readMembers ownerId [(ascii "status", v)] =
      updateField ⟨none, false, none, some ownerId⟩ (ascii "status", v) := by
        simp [readMembers, List.foldlM]
    rw [hread, updateField_status]
    constructor
    · intro h
      obtain ⟨status, hfield, hu⟩ := h
      refine ⟨⟨some status, none⟩, ⟨by simp [Json.items], ?_, ?_, .inl rfl⟩, hu⟩
      · simpa [Json.find] using hfield
      · simpa [Json.find, hne'] using ExpiryField.absent
    · intro h
      obtain ⟨⟨status, expiresAt⟩, hdescribes, hu⟩ := h
      have hstatus := hdescribes.status
      have hexpiry := hdescribes.expiresAt
      simp only [Json.find, List.find?_cons, hne', List.find?_nil, Option.map_none] at hexpiry
      simp only [Json.find, List.find?_cons, beq_self_eq_true, Option.map_some] at hstatus
      cases hexpiry
      cases hstatus with
      | given status => exact ⟨status, .given status, hu⟩
  | expiresAt e =>
    have hread : readMembers ownerId [(ascii "expires_at", e)] =
      updateField ⟨none, false, none, some ownerId⟩ (ascii "expires_at", e) := by
        simp [readMembers, List.foldlM]
    rw [hread, updateField_expiresAt _ _ rfl]
    constructor
    · intro h
      obtain ⟨expiresAt, hfield, hu⟩ := h
      refine ⟨⟨none, some expiresAt⟩, ⟨by simp [Json.items], ?_, ?_, .inr rfl⟩, hu⟩
      · simpa [Json.find, hne] using StatusField.absent
      · simpa [Json.find] using hfield
    · intro h
      obtain ⟨⟨status, expiresAt⟩, hdescribes, hu⟩ := h
      have hstatus := hdescribes.status
      have hexpiry := hdescribes.expiresAt
      simp only [Json.find, List.find?_cons, hne, List.find?_nil, Option.map_none] at hstatus
      simp only [Json.find, List.find?_cons, beq_self_eq_true, Option.map_some] at hexpiry
      cases hstatus
      cases hexpiry with
      | cleared => exact ⟨none, .cleared, hu⟩
      | given text t hparse => exact ⟨some t, .given text t hparse, hu⟩
  | both e v =>
    have hread : readMembers ownerId [(ascii "expires_at", e), (ascii "status", v)] =
      updateField ⟨none, false, none, some ownerId⟩ (ascii "expires_at", e) >>=
        fun update => updateField update (ascii "status", v) := by
          simp [readMembers, List.foldlM]
    rw [hread, bind_eq_ok]
    constructor
    · intro h
      obtain ⟨u, he, hv⟩ := h
      obtain ⟨expiresAt, hexpiry, hu⟩ := (updateField_expiresAt _ _ rfl e).mp he
      obtain ⟨status, hstatus, hupdate⟩ := (updateField_status _ _ v).mp hv
      refine ⟨⟨some status, some expiresAt⟩, ⟨by simp [Json.items], ?_, ?_, .inl rfl⟩, ?_⟩
      · rw [find_status]
        exact hstatus
      · simpa [Json.find] using hexpiry
      · rw [hupdate, hu]
        rfl
    · intro h
      obtain ⟨⟨status, expiresAt⟩, hdescribes, hu⟩ := h
      have hstatus := hdescribes.status
      have hexpiry := hdescribes.expiresAt
      rw [find_status] at hstatus
      simp only [Json.find, List.find?_cons, beq_self_eq_true, Option.map_some] at hexpiry
      cases hstatus with
      | given status =>
        cases hexpiry with
        | cleared =>
          exact ⟨_, (updateField_expiresAt _ _ rfl _).mpr ⟨none, .cleared, rfl⟩,
            (updateField_status _ _ _).mpr ⟨status, .given status, hu⟩⟩
        | given text t hparse =>
          exact ⟨_, (updateField_expiresAt _ _ rfl _).mpr ⟨some t, .given text t hparse, rfl⟩,
            (updateField_status _ _ _).mpr ⟨status, .given status, hu⟩⟩

variable {api}

theorem parseObject_ok_iff {request : HttpRequest} {object : Json} :
    parseObject api request = .ok object ↔ hasJsonContentType request = true ∧
      request.body.length ≤ 16384 ∧ api.json.parseIgnoringComments request.body = some object ∧
        object.isObject = true := by
  unfold parseObject
  by_cases hlimits : (!hasJsonContentType request || 16384 < request.body.length) = true
  · rw [if_pos hlimits]
    simp only [Bool.or_eq_true, Bool.not_eq_true', decide_eq_true_eq] at hlimits
    constructor
    · intro h
      cases h
    · intro ⟨htype, hsize, _⟩
      rcases hlimits with hlimits | hlimits
      · rw [htype] at hlimits
        cases hlimits
      · omega
  · rw [if_neg hlimits]
    simp only [Bool.or_eq_true, Bool.not_eq_true', decide_eq_true_eq, not_or,
      Bool.not_eq_false, Nat.not_lt] at hlimits
    cases hparse : (api.json.parseIgnoringComments request.body).filter Json.isObject with
    | none =>
      constructor
      · intro h
        cases h
      · intro ⟨_, _, hbody, hobject⟩
        rw [hbody, Option.filter_some, if_pos hobject] at hparse
        cases hparse
    | some parsed =>
      obtain ⟨hbody, hobject⟩ := Option.filter_eq_some_iff.mp hparse
      constructor
      · intro h
        obtain rfl := Except.ok.inj h
        exact ⟨hlimits.1, hlimits.2, hbody, hobject⟩
      · intro ⟨_, _, hbody', _⟩
        rw [Option.some.inj (hbody.symm.trans hbody')]

/-- The updates that handleUpdate makes are those that a body asks for. -/
theorem parseUpdate_ok_iff (hjson : Standard api.json) {request : HttpRequest} {ownerId : ℕ}
    {update : LifecycleUpdate} : parseUpdate api request ownerId = .ok update ↔
      ∃ change, Asks api request change ∧ update = change.update ownerId := by
  unfold parseUpdate
  rw [bind_eq_ok]
  constructor
  · intro ⟨object, hobject, hread⟩
    obtain ⟨htype, hsize, hbody, his⟩ := parseObject_ok_iff.mp hobject
    cases object with
    | object members =>
      split_ifs at hread with hlength
      have hknown := known_of_sorted (hjson.sorted _ _ hbody) (fun hnil => hlength (.inl hnil))
        (names_of_foldlM hread)
      obtain ⟨change, hdescribes, hupdate⟩ := (readMembers_iff hknown ownerId update).mp hread
      exact ⟨change, ⟨htype, hsize, _, hbody, his, hdescribes⟩, hupdate⟩
    | _ => cases his
  · intro ⟨change, ⟨htype, hsize, object, hbody, his, hdescribes⟩, hupdate⟩
    refine ⟨object, parseObject_ok_iff.mpr ⟨htype, hsize, hbody, his⟩, ?_⟩
    cases object with
    | object members =>
      have hne : members ≠ [] := by
        intro hnil
        subst hnil
        obtain ⟨status, expiresAt⟩ := change
        have hstatus := hdescribes.status
        have hexpiry := hdescribes.expiresAt
        have hsome := hdescribes.some
        cases hstatus
        cases hexpiry
        simp at hsome
      have hknown := known_of_sorted (hjson.sorted _ _ hbody) hne hdescribes.known
      have hlength : ¬ ((Json.object members).items = [] ∨
          2 < (Json.object members).items.length) := by
        cases hknown <;> simp [Json.items]
      rw [if_neg hlength]
      exact (readMembers_iff hknown ownerId update).mpr ⟨change, hdescribes, hupdate⟩
    | _ => cases his

/-- Codes are ASCII, and URLs come from parsed bodies. -/
def Texts (links : MemoryShortLinkRepository) : Prop :=
  ∀ code record, links.links.lookup code = some record →
    Ascii record.code ∧ ValidUtf8 record.originalUrl

theorem codeFor_ascii {customCode : Option Bytes}
    (h : customCode.all ShortCodes.isValidCustomCode = true) (id : ℕ) :
    Ascii (codeFor customCode id) := by
  intro c hc
  cases customCode with
  | none => exact isAlnum_ascii (ShortCodes.encodeBase62_char hc)
  | some code =>
    rcases ShortCodes.isValidCustomCode_char h hc with halnum | hc | hc
    · exact isAlnum_ascii halnum
    · rw [hc]
      decide
    · rw [hc]
      decide

theorem Texts.create {links : MemoryShortLinkRepository} (h : Texts links) {originalUrl : Bytes}
    (hurl : ValidUtf8 originalUrl) {customCode : Option Bytes}
    (hcode : customCode.all ShortCodes.isValidCustomCode = true) (expiresAt : Option ℤ)
    (ownerId : ℕ) (now : ℤ) :
    Texts (MemoryShortLinks.create originalUrl expiresAt ownerId customCode now links).2 := by
  unfold MemoryShortLinks.create
  dsimp only
  split
  · exact h
  · intro code record hlookup
    by_cases heq : code = codeFor customCode links.nextId
    · rw [heq, AList.lookup_insert] at hlookup
      rw [← Option.some.inj hlookup]
      exact ⟨codeFor_ascii hcode _, hurl⟩
    · rw [AList.lookup_insert_ne heq] at hlookup
      exact h code record hlookup

theorem Texts.update {links : MemoryShortLinkRepository} (h : Texts links) (code : Bytes)
    (update : LifecycleUpdate) (now : ℤ) :
    Texts (MemoryShortLinks.updateLifecycle code update now links).2 := by
  intro code' record hlookup
  rw [OwnedLinks.updateLifecycle_lookup] at hlookup
  split at hlookup
  · obtain ⟨old, hold, hrecord⟩ := Option.map_eq_some_iff.mp hlookup
    have htexts := h code old hold
    split at hrecord <;> rw [← hrecord] <;> exact htexts
  · exact h code' record hlookup

theorem parseCreate_utf8 (hjson : Standard api.json) {request : HttpRequest}
    {create : CreateRequest} {s s' : ServerState A L}
    (h : (parseCreate api request).run s = (.ok (.ok create), s')) : ValidUtf8 create.url := by
  unfold parseCreate at h
  cases hobject : parseObject api request with
  | error e =>
    rw [hobject] at h
    cases (Prod.mk.inj h).1
  | ok object =>
    have hutf8 := hjson.parses _ _ (parseObject_ok_iff.mp hobject).2.2.1
    rw [hobject] at h
    dsimp only at h
    split at h
    · cases (Prod.mk.inj h).1
    · cases hurl : object.stringAt (ascii "url") with
      | none =>
        rw [hurl] at h
        cases (Prod.mk.inj h).1
      | some url =>
        rw [hurl] at h
        obtain ⟨outcome, clock, hexpiry⟩ :=
          CreateCounts.parseExpiry_run (object.find (ascii "expires_at")) s
        dsimp only at h
        rw [Action.run_bind_ok hexpiry] at h
        cases outcome with
        | error e => cases (Prod.mk.inj h).1
        | ok expiresAt =>
          dsimp only at h
          split at h
          · cases (Prod.mk.inj h).1
          · have hcreate := Except.ok.inj (Except.ok.inj (Prod.mk.inj h).1)
            rw [← hcreate]
            exact validUtf8_stringAt hutf8 hurl

theorem harmless_links {α : Type} {x : Server A L α} (h : Harmless x) (s : ServerState A L) :
    (x.run s).2.links = s.links := congrArg (fun parts : A × L × List Bytes => parts.2.1) (h s)

theorem performCreate_links (create : CreateRequest) (ownerId : ℕ) (s : ServerState A L) :
    ((performCreate api create ownerId).run s).2.links =
      ((ShortLinkServices.createShortLink api create.url create.expiresAt ownerId
        create.customCode).run s).2.links := by
  refine rest_keeps (f := ServerState.links) ?_ ?_ _ s
  · intro created
    refine fun s => harmless_links ?_ s
    cases created with
    | none => exact .bind (.record _) fun _ => refuse_harmless _
    | some created => exact .bind (setJson_harmless api _ _ _) fun _ => .record _
  · intro e
    refine fun s => harmless_links ?_ s
    cases e with
    | shortCodeConflict => exact .bind (.record _) fun _ => .setErrorResponse _ _ _
    | std e => exact .bind (.record _) fun _ => .throw _

section OverMemory

variable (api : ShortLinkHttpApi A MemoryShortLinkRepository)

/-- The links that create and update requests have left. -/
inductive Stored : MemoryShortLinkRepository → Prop where
  | empty : Stored .empty
  | create (request : HttpRequest) (ownerId : ℕ) (s : ServerState A MemoryShortLinkRepository) :
      Stored s.links → Stored ((handleCreate (overMemory api) request ownerId).run s).2.links
  | update (request : HttpRequest) (ownerId : ℕ) (s : ServerState A MemoryShortLinkRepository) :
      Stored s.links → Stored ((handleUpdate (overMemory api) request ownerId).run s).2.links

variable {api}

theorem createShortLink_texts {originalUrl : Bytes} (hurl : ValidUtf8 originalUrl)
    (expiresAt : Option ℤ) (ownerId : ℕ) (customCode : Option Bytes)
    {s : ServerState A MemoryShortLinkRepository} (h : Texts s.links) :
    Texts ((ShortLinkServices.createShortLink (overMemory api) originalUrl expiresAt ownerId
      customCode).run s).2.links := by
  obtain ⟨result, s', hrun, hcases⟩ :=
    LinkHistories.perform_create api originalUrl expiresAt ownerId customCode s
  -- the call of the service ends in the state in which its client does
  have hsame : ((ShortLinkServices.createShortLink (overMemory api) originalUrl expiresAt ownerId
      customCode).run s).2 = s' := by
    have hclient := congrArg Prod.snd hrun
    simp only [LinkHistories.ServiceCall.perform, Action.run_bind] at hclient
    split at hclient
    · next hcreate => rw [hcreate, ← hclient]; rfl
    · next hcreate => rw [hcreate, ← hclient]
  rw [hsame]
  rcases hcases with ⟨_, hlinks⟩ | ⟨hcode, now, hcreate⟩
  · rw [hlinks]
    exact h
  · rw [(Prod.mk.inj hcreate).2]
    exact h.create hurl hcode expiresAt ownerId now

theorem handleCreate_texts (hjson : Standard api.json) (request : HttpRequest) (ownerId : ℕ)
    {s : ServerState A MemoryShortLinkRepository} (h : Texts s.links) :
    Texts ((handleCreate (overMemory api) request ownerId).run s).2.links := by
  have hadmitted : ∀ t : ServerState A MemoryShortLinkRepository, Texts t.links →
      Texts ((CreateCounts.admitted (overMemory api) request ownerId).run t).2.links := by
    intro t ht
    obtain ⟨outcome, clock, hparse⟩ := CreateCounts.parseCreate_run (overMemory api) request t
    rw [CreateCounts.admitted, Action.run_bind_ok hparse]
    cases outcome with
    | error e => exact ht
    | ok create =>
      dsimp only
      rw [performCreate_links]
      exact createShortLink_texts (parseCreate_utf8 hjson hparse) _ _ _ ht
  cases hlimiter : api.hasRateLimiter with
  | false =>
    rw [CreateCounts.handleCreate_unlimited (overMemory api) hlimiter]
    exact hadmitted s h
  | true =>
    by_cases hlimited : (s.limiter 0).status = .limited
    · rw [CreateCounts.handleCreate_limited (overMemory api) hlimiter request ownerId hlimited]
      exact h
    · obtain ⟨counted, hpasses⟩ := CreateCounts.passes_of_ne hlimited
      rw [CreateCounts.handleCreate_passed (overMemory api) hlimiter request ownerId hpasses]
      exact hadmitted _ h

theorem updateLifecycle_run (code : Bytes) (update : LifecycleUpdate)
    (s : ServerState A MemoryShortLinkRepository) :
    (ShortLinkServices.updateLifecycle (overMemory api) code update).run s =
      (.ok (MemoryShortLinks.updateLifecycle code update ((s.clock 0).tdiv 1000) s.links).1,
        { s with
        clock := fun n => s.clock (n + 1)
        links :=
          (MemoryShortLinks.updateLifecycle code update ((s.clock 0).tdiv 1000) s.links).2 }) := rfl

theorem handleUpdate_texts (request : HttpRequest) (ownerId : ℕ)
    {s : ServerState A MemoryShortLinkRepository} (h : Texts s.links) :
    Texts ((handleUpdate (overMemory api) request ownerId).run s).2.links := by
  unfold handleUpdate
  cases parseUpdate (overMemory api) request ownerId with
  | error e => exact h
  | ok update =>
    let code := request.getPathParameters (ascii "param1")
    dsimp only
    rw [Action.run_bind_ok (updateLifecycle_run code update s)]
    have htexts := h.update code update ((s.clock 0).tdiv 1000)
    cases (MemoryShortLinks.updateLifecycle code update ((s.clock 0).tdiv 1000) s.links).1 with
    | none => exact htexts
    | some record =>
      dsimp only
      rw [harmless_links (setJson_harmless _ _ _ _)]
      exact htexts

theorem stored_texts (hjson : Standard api.json) {links : MemoryShortLinkRepository}
    (h : Stored api links) : Texts links := by
  induction h with
  | empty =>
    intro code record hlookup
    simp [MemoryShortLinkRepository.empty] at hlookup
  | create request ownerId s _ ih => exact handleCreate_texts hjson request ownerId ih
  | update request ownerId s _ ih => exact handleUpdate_texts request ownerId ih

theorem toDecimal_ascii (n : ℕ) : Ascii (toDecimal n) := by
  intro c hc
  apply isAlnum_ascii
  rw [isAlnum, Decimals.toDecimal_isDigit n c hc, Bool.or_true]

theorem signedToDecimal_ascii (n : ℤ) : Ascii (signedToDecimal n) := by
  have hminus : Ascii [45] := by decide
  unfold signedToDecimal
  split
  · exact hminus.append (toDecimal_ascii _)
  · exact toDecimal_ascii _

theorem formatUtcTimestamp_ascii (t : ℤ) : Ascii (formatUtcTimestamp t) := by
  have htwo : ∀ n, Ascii (UtcTimestamps.twoDigits n) := fun n =>
    (toDecimal_ascii _).append (toDecimal_ascii _)
  have hdash : Ascii (ascii "-") := by decide
  have hcolon : Ascii (ascii ":") := by decide
  have ht : Ascii (ascii "T") := by decide
  have hz : Ascii (ascii "Z") := by decide
  have hdate := ((((signedToDecimal_ascii (UtcTimestamps.gmtime t).year).append hdash).append
    (htwo (UtcTimestamps.gmtime t).month)).append hdash).append (htwo (UtcTimestamps.gmtime t).day)
  exact ((((((hdate.append ht).append (htwo _)).append hcolon).append (htwo _)).append
    hcolon).append (htwo _)).append hz

theorem statusToString_ascii (status : Status) : Ascii (statusToString status) := by
  cases status <;> decide

theorem recordJson_utf8 {record : ShortLinkRecord} (hcode : Ascii record.code)
    (hurl : ValidUtf8 record.originalUrl) : Utf8 (recordJson record) := by
  have hbaseUrl : Ascii (ascii "/s/") := by decide
  have hexpiry : Utf8 (timestampJson record.expiresAt) := by
    cases record.expiresAt with
    | none => exact .null
    | some t => exact .string (formatUtcTimestamp_ascii t).utf8
  apply utf8_ofMembers
  · have hnames : ∀ name ∈ ["id", "code", "short_url", "original_url", "status", "expires_at",
        "created_at", "updated_at"], Ascii (ascii name) := by decide
    intro m hm
    simp only [List.mem_cons, List.not_mem_nil, or_false] at hm
    apply Ascii.utf8
    rcases hm with hm | hm | hm | hm | hm | hm | hm | hm <;> rw [hm] <;>
      exact hnames _ (by simp)
  · intro m hm
    simp only [List.mem_cons, List.not_mem_nil, or_false] at hm
    rcases hm with hm | hm | hm | hm | hm | hm | hm | hm <;> rw [hm]
    · exact .integer _
    · exact .string hcode.utf8
    · exact .string (hbaseUrl.append hcode).utf8
    · exact .string hurl
    · exact .string (statusToString_ascii _).utf8
    · exact hexpiry
    · exact .string (formatUtcTimestamp_ascii _).utf8
    · exact .string (formatUtcTimestamp_ascii _).utf8

variable {request : HttpRequest} {code : Bytes} {record : ShortLinkRecord}
  {s : ServerState A MemoryShortLinkRepository}

theorem refuse_run (e : FieldError) (s : ServerState A L) :
    Answers 400 ((refuse e).run s) ∧ ((refuse e).run s).2.links = s.links :=
  ⟨⟨rfl, rfl⟩, rfl⟩

theorem handleUpdate_refused (hjson : Standard api.json)
    (h : ∀ change, ¬ Asks api request change) (ownerId : ℕ) :
    Answers 400 ((handleUpdate (overMemory api) request ownerId).run s) ∧
      ((handleUpdate (overMemory api) request ownerId).run s).2.links = s.links := by
  unfold handleUpdate
  cases hparse : parseUpdate (overMemory api) request ownerId with
  | error e => exact refuse_run e s
  | ok update =>
    have hstandard : Standard (overMemory api).json := hjson
    obtain ⟨change, hasks, _⟩ := (parseUpdate_ok_iff hstandard).mp hparse
    exact absurd ⟨hasks.contentType, hasks.size, hasks.body⟩ (h change)

def replaced (links : MemoryShortLinkRepository) (code : Bytes) (record : ShortLinkRecord)
    (code' : Bytes) : Option ShortLinkRecord :=
  if code' = code then some record else links.links.lookup code'

theorem handleUpdate_taken (hjson : Standard api.json) (htexts : Texts s.links)
    (hlookup : s.links.links.lookup code = some record)
    (hcode : request.getPathParameters (ascii "param1") = code) {change : Change}
    (hasks : Asks api request change) :
    Answers 200 ((handleUpdate (overMemory api) request record.ownerId).run s) ∧
      ∀ code', ((handleUpdate (overMemory api) request record.ownerId).run s).2.links.links.lookup
        code' = replaced s.links code (change.apply ((s.clock 0).tdiv 1000) record) code' := by
  let now := (s.clock 0).tdiv 1000
  let update := change.update record.ownerId
  have hstandard : Standard (overMemory api).json := hjson
  have hparse : parseUpdate (overMemory api) request record.ownerId = .ok update :=
    (parseUpdate_ok_iff hstandard).mpr
      ⟨change, ⟨hasks.contentType, hasks.size, hasks.body⟩, rfl⟩
  have hmay : OwnedLinks.mayUpdate update record = true := by
    simp [OwnedLinks.mayUpdate, update, Change.update]
  have hresult : (MemoryShortLinks.updateLifecycle code update now s.links).1 =
      some (change.apply now record) := by
    rw [OwnedLinks.updateLifecycle_result, hlookup, Option.filter_some, if_pos hmay,
      Option.map_some, updated_update]
  have hstored : ∀ code', (MemoryShortLinks.updateLifecycle code update now s.links).2.links.lookup
      code' = replaced s.links code (change.apply now record) code' := by
    intro code'
    rw [OwnedLinks.updateLifecycle_lookup, hlookup, Option.map_some, if_pos hmay, updated_update]
    rfl
  -- the texts of the record are those it was created with
  have hutf8 : Utf8 (recordJson (change.apply now record)) :=
    recordJson_utf8 (htexts code record hlookup).1 (htexts code record hlookup).2
  obtain ⟨body, hdump⟩ := hjson.dumps _ hutf8
  have hrun : (ShortLinkServices.updateLifecycle (overMemory api) code update).run s = _ :=
    updateLifecycle_run code update s
  rw [hresult] at hrun
  have hall : (handleUpdate (overMemory api) request record.ownerId).run s =
      (setJson (overMemory api) 200 "OK" (recordJson (change.apply now record))).run { s with
        clock := fun n => s.clock (n + 1)
        links := (MemoryShortLinks.updateLifecycle code update now s.links).2 } := by
    unfold handleUpdate
    rw [hparse, hcode]
    dsimp only
    rw [Action.run_bind_ok hrun]
  rw [hall, setJson_ok (overMemory api) hdump]
  exact ⟨⟨rfl, rfl⟩, hstored⟩

variable (api request code record s) in
/-- PUT is an exact partial update of the record. -/
structure ExactUpdate (x : Ended A MemoryShortLinkRepository) : Prop where
  answered : Answers 200 x ↔ ∃ change, Asks api request change
  changed : ∀ change, Asks api request change → ∀ code', x.2.links.links.lookup code' =
    replaced s.links code (change.apply ((s.clock 0).tdiv 1000) record) code'
  refused : (∀ change, ¬ Asks api request change) → Answers 400 x ∧ x.2.links = s.links

theorem handleUpdate_exact (hjson : Standard api.json) (hstored : Stored api s.links)
    (hlookup : s.links.links.lookup code = some record)
    (hcode : request.getPathParameters (ascii "param1") = code) :
    ExactUpdate api request code record s
      ((handleUpdate (overMemory api) request record.ownerId).run s) := by
  have htexts := stored_texts hjson hstored
  constructor
  · constructor
    · intro hanswers
      by_contra hnone
      have hrefused := (handleUpdate_refused (s := s) hjson (not_exists.mp hnone) record.ownerId).1
      exact absurd (hrefused.status_eq.mp hanswers) (by decide)
    · intro ⟨change, hasks⟩
      exact (handleUpdate_taken hjson htexts hlookup hcode hasks).1
  · intro change hasks
    exact (handleUpdate_taken hjson htexts hlookup hcode hasks).2
  · intro hnone
    exact handleUpdate_refused hjson hnone record.ownerId

end OverMemory

section Demo

open AuthRepositories (MemoryAuthRepository)
open Sessions (demoApi demoStart)

/-- The compact text of a flat value whose strings need no escape. -/
def valueText : Json → Bytes
  | .null => ascii "null"
  | .integer n => signedToDecimal n
  | .string s => ascii "\"" ++ s ++ ascii "\""
  | _ => []

def objectText (members : List (Bytes × Json)) : Bytes :=
  ascii "\x7b" ++ (ascii ",").intercalate
    (members.map fun m => ascii "\"" ++ m.1 ++ ascii "\":" ++ valueText m.2) ++ ascii "\x7d"

def demoCreateMembers : List (Bytes × Json) :=
  [(ascii "custom_code", .string (ascii "mine")), (ascii "url", .string (ascii "http://a"))]

def demoUpdateMembers : List (Bytes × Json) :=
  [(ascii "expires_at", .null), (ascii "status", .string (ascii "disabled"))]

/-- The library on two bodies and on flat objects. -/
def demoJson : JsonLibrary where
  parse _ := none
  parseIgnoringComments text :=
    if text = objectText demoCreateMembers then some (.object demoCreateMembers)
    else if text = objectText demoUpdateMembers then some (.object demoUpdateMembers)
    else none
  dump j := .ok (objectText j.items)

def demoUpdateApi : ShortLinkHttpApi MemoryAuthRepository MemoryShortLinkRepository :=
  { demoApi with json := demoJson }

def demoRequest (members : List (Bytes × Json)) : HttpRequest where
  headers := .insert .empty (ascii "Content-Type") (ascii "application/json")
  pathParameters := .insert .empty (ascii "param1") (ascii "mine")
  body := objectText members

/-- User 1 has made the link mine. -/
def demoStored : ServerState MemoryAuthRepository MemoryShortLinkRepository :=
  ((handleCreate (overMemory demoUpdateApi) (demoRequest demoCreateMembers) 1).run demoStart).2

theorem demoJson_standard : Standard demoJson where
  parses text j h := by
    have hnames : ∀ m ∈ demoCreateMembers ++ demoUpdateMembers, Ascii m.1 := by decide
    have hparsed : ∃ members, j = .object members ∧
        (members = demoCreateMembers ∨ members = demoUpdateMembers) := by
      simp only [demoJson] at h
      split_ifs at h <;> simp [← Option.some.inj h]
    obtain ⟨members, hj, hmembers⟩ := hparsed
    rw [hj]
    refine .object (fun m hm => (hnames m ?_).utf8) ?_
    · rcases hmembers with hmembers | hmembers <;> simp [← hmembers, hm]
    · intro m hm
      rcases hmembers with hmembers | hmembers <;> rw [hmembers] at hm
      all_goals
        simp only [demoCreateMembers, demoUpdateMembers, List.mem_cons, List.not_mem_nil,
          or_false] at hm
        rcases hm with hm | hm <;> rw [hm]
      · exact .string (Ascii.utf8 (by decide))
      · exact .string (Ascii.utf8 (by decide))
      · exact .null
      · exact .string (Ascii.utf8 (by decide))
  sorted text members h := by
    simp only [demoJson] at h
    split_ifs at h <;> obtain rfl := Json.object.inj (Option.some.inj h) <;> decide
  dumps j _ := ⟨_, rfl⟩

def demoRecord : ShortLinkRecord :=
  ⟨1, 1, ascii "mine", ascii "http://a", .active, none, 0, 0⟩

theorem handleUpdate_exact_demo :
    ExactUpdate demoUpdateApi (demoRequest demoUpdateMembers) (ascii "mine") demoRecord demoStored
      ((handleUpdate (overMemory demoUpdateApi) (demoRequest demoUpdateMembers) 1).run
        demoStored) := by
  have hstored : Stored demoUpdateApi demoStored.links :=
    .create (demoRequest demoCreateMembers) 1 demoStart .empty
  have hlookup : demoStored.links.links.lookup (ascii "mine") = some demoRecord := by decide
  exact handleUpdate_exact demoJson_standard hstored hlookup (by decide)

end Demo

end PartialUpdates
