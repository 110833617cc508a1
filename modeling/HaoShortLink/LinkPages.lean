import HaoShortLink.CursorPages
import HaoShortLink.Decimals
import HaoShortLink.Histories
import HaoShortLink.OwnerIsolation

/-! GET /api/short-links page by page, over a store that changes between the pages. -/
namespace LinkPages

open Cpp Actions HttpRequests JsonValues ShortLinks ApiHandlers ServerStates MemoryShortLinks
open OwnedLinks CursorPages Histories
open OwnerIsolation (overMemory)

theorem parseUnsigned_digits (digits : Bytes) (hdigits : ∀ c ∈ digits, isDigit c)
    (h : Decimals.value digits < 2 ^ 64) :
    digits.foldlM (fun result ch =>
      let digit := ch.toNat - 48
      if !isDigit ch || (2 ^ 64 - 1 - digit) / 10 < result then none
      else some (result * 10 + digit)) 0 = some (Decimals.value digits) := by
  induction digits using List.reverseRecOn with
  | nil => rfl
  | append_singleton digits d ih =>
    rw [Decimals.value_snoc] at h
    rw [List.foldlM_append, ih (fun c hc => hdigits c (by simp [hc])) (by omega),
      Decimals.value_snoc]
    have hd : isDigit d := hdigits d (by simp)
    simp only [List.foldlM_cons, List.foldlM_nil, Option.bind_eq_bind, Option.bind_some, hd,
      Bool.not_true, Bool.false_or, decide_eq_true_eq]
    rw [if_neg (by omega)]
    rfl

theorem parseUnsigned_toDecimal {n : ℕ} (h : n < 2 ^ 64) :
    parseUnsigned (toDecimal n) = some n := by
  rw [parseUnsigned, if_neg (Decimals.toDecimal_ne_nil n),
    parseUnsigned_digits _ (Decimals.toDecimal_isDigit n) (by rwa [Decimals.value_toDecimal]),
    Decimals.value_toDecimal]

theorem parseLimit_range {value : Bytes} {limit : ℕ} (h : parseLimit value = .ok limit) :
    1 ≤ limit ∧ limit ≤ 100 := by
  simp only [parseLimit] at h
  split at h
  · obtain rfl := Except.ok.inj h
    exact ⟨by decide, by decide⟩
  · split at h
    · cases h
    · next n hn =>
      obtain rfl := Except.ok.inj h
      simpa using (Option.filter_eq_some_iff.mp hn).2

def listBody (request : HttpRequest) (ownerId : ℕ) (r : MemoryShortLinkRepository) :
    Except FieldError Json := do
  let (query, requestedLimit) ← parseListQuery request ownerId
  pure (listJson (list query r) requestedLimit)

theorem handleList_run {A : Type} (api : ShortLinkHttpApi A MemoryShortLinkRepository)
    {request : HttpRequest} {ownerId : ℕ} {body : Json}
    (s : ServerState A MemoryShortLinkRepository)
    (h : listBody request ownerId s.links = .ok body) :
    (handleList (overMemory api) request ownerId).run s =
      (setJson (overMemory api) 200 "OK" body).run s := by
  simp only [listBody] at h
  rw [handleList]
  cases hquery : parseListQuery request ownerId with
  | error e =>
    rw [hquery] at h
    cases h
  | ok parsed =>
    rw [hquery] at h
    obtain rfl := Except.ok.inj h
    rfl

def itemsOf (body : Json) : List Json :=
  match body.find (ascii "items") with
  | some (.array items) => items
  | _ => []

def nextCursorOf (body : Json) : Option ℤ := body.integerAt (ascii "next_cursor")

def itemId (item : Json) : Option ℤ := item.integerAt (ascii "id")

theorem itemId_recordJson (record : ShortLinkRecord) :
    itemId (recordJson record) = some (record.id : ℤ) := rfl

theorem itemsOf_listJson (records : List ShortLinkRecord) (limit : ℕ) :
    itemsOf (listJson records limit) = (records.take limit).map recordJson := by
  have hpage : (if limit < records.length then records.take limit else records) =
      records.take limit := by
    split
    · rfl
    · next h => rw [List.take_of_length_le (by omega)]
  rw [listJson, hpage]
  rfl

theorem nextCursorOf_listJson (records : List ShortLinkRecord) (limit : ℕ) :
    nextCursorOf (listJson records limit) =
      (if limit < records.length then (records.take limit).getLast? else none).map
        fun last => (last.id : ℤ) := by
  have hnext (items next : Json) : nextCursorOf (.ofMembers
      [member "items" items, member "next_cursor" next]) = next.asInteger := rfl
  rw [listJson, hnext]
  by_cases hmore : limit < records.length
  · simp only [if_pos hmore]
    cases (records.take limit).getLast? <;> rfl
  · simp only [if_neg hmore]
    cases records.getLast? <;> rfl

def Matches (owner : ℕ) (status : Option Status) (record : ShortLinkRecord) : Prop :=
  record.ownerId = owner ∧ ∀ filter ∈ status, record.status = filter

/-- The ids that a listing without a cursor goes through. -/
def listedIds (owner : ℕ) (status : Option Status) (r : MemoryShortLinkRepository) : Set ℕ :=
  {id | ∃ code record, r.links.lookup code = some record ∧ Matches owner status record ∧
    record.id = id}

/-- Ids are distinct 64-bit numbers but not 0, and every record is stored under its code. -/
structure InOrder (r : MemoryShortLinkRepository) : Prop where
  ids : IdsDistinct r
  range : ∀ code record, r.links.lookup code = some record → 0 < record.id ∧ record.id < 2 ^ 64
  codes : ∀ code record, r.links.lookup code = some record → record.code = code

variable {owner cursor limit : ℕ} {status : Option Status} {r : MemoryShortLinkRepository}

theorem selects_iff {bound : ℕ} {record : ShortLinkRecord} :
    selects ⟨cursor, bound, some owner, status⟩ record ↔
      Matches owner status record ∧ cursor < record.id := by
  cases status with
  | none =>
    simp only [selects, Matches, Option.any_some, Option.any_none, Bool.or_false]
    simp [and_comm]
  | some filter =>
    simp only [selects, Matches, Option.any_some, Option.mem_some_iff, forall_eq']
    simp [and_comm, and_left_comm, and_assoc]

/-- The records of a listing, in order, before the limit cuts them. -/
def sortedShown (query : ListQuery) (r : MemoryShortLinkRepository) : List ShortLinkRecord :=
  ((shown query r).map Sigma.snd).mergeSort fun left right => left.id ≤ right.id

theorem mem_sortedShown {query : ListQuery} {record : ShortLinkRecord} :
    record ∈ sortedShown query r ↔
      ∃ code, r.links.lookup code = some record ∧ selects query record := by
  simp only [sortedShown, List.mem_mergeSort, List.mem_map, shown, List.mem_filter]
  constructor
  · rintro ⟨entry, ⟨hmem, hselected⟩, rfl⟩
    exact ⟨entry.1, AList.mem_lookup_iff.mpr hmem, hselected⟩
  · rintro ⟨code, hlookup, hselected⟩
    exact ⟨⟨code, record⟩, ⟨AList.mem_lookup_iff.mp hlookup, hselected⟩, rfl⟩

theorem sortedShown_sorted (h : IdsDistinct r) (query : ListQuery) :
    (sortedShown query r).Pairwise fun left right => left.id < right.id := by
  have hsorted : (sortedShown query r).Pairwise fun left right =>
      decide (left.id ≤ right.id) = true :=
    List.pairwise_mergeSort (fun a b c => by simpa using Nat.le_trans)
      (fun a b => by simpa using Nat.le_total a.id b.id) _
  have hdistinct : (sortedShown query r).Pairwise fun left right => left.id ≠ right.id := by
    refine (List.mergeSort_perm _ _).symm.pairwise (List.pairwise_map.mpr ?_) fun h => Ne.symm h
    refine List.Pairwise.imp_of_mem ?_ (List.Nodup.filter _ r.links.nodupKeys.nodup)
    intro a b ha hb hne hid
    have hkey := h _ _ _ _ (AList.mem_lookup_iff.mpr (List.mem_filter.mp ha).1)
      (AList.mem_lookup_iff.mpr (List.mem_filter.mp hb).1) hid
    exact hne (r.links.nodupKeys.eq_of_fst_eq (List.mem_filter.mp ha).1 (List.mem_filter.mp hb).1
      hkey)
  refine (hsorted.and hdistinct).imp fun {a b} both => ?_
  have hle : a.id ≤ b.id := by simpa using both.1
  exact lt_of_le_of_ne hle both.2

def pageRecords (owner : ℕ) (status : Option Status) (cursor limit : ℕ)
    (r : MemoryShortLinkRepository) : List ShortLinkRecord :=
  (sortedShown ⟨cursor, limit + 1, some owner, status⟩ r).take limit

def nextCursor (owner : ℕ) (status : Option Status) (cursor limit : ℕ)
    (r : MemoryShortLinkRepository) : Option ℕ :=
  if limit < (sortedShown ⟨cursor, limit + 1, some owner, status⟩ r).length then
    (pageRecords owner status cursor limit r).getLast?.map ShortLinkRecord.id
  else none

theorem page_isPage (h : IdsDistinct r) (hlimit : 0 < limit) :
    IsPage (listedIds owner status r) cursor
      ((pageRecords owner status cursor limit r).map ShortLinkRecord.id)
      (nextCursor owner status cursor limit r) := by
  have hsorted := List.pairwise_map.mpr
    (sortedShown_sorted h ⟨cursor, limit + 1, some owner, status⟩)
  have hmem : ∀ k, k ∈ (sortedShown ⟨cursor, limit + 1, some owner, status⟩ r).map
      ShortLinkRecord.id ↔ k ∈ listedIds owner status r ∧ cursor < k := by
    intro k
    simp only [List.mem_map, mem_sortedShown, selects_iff, listedIds, Set.mem_ofPred_eq]
    constructor
    · rintro ⟨record, ⟨code, hlookup, hmatches, habove⟩, rfl⟩
      exact ⟨⟨code, record, hlookup, hmatches, rfl⟩, habove⟩
    · rintro ⟨⟨code, record, hlookup, hmatches, rfl⟩, habove⟩
      exact ⟨record, ⟨code, hlookup, hmatches, habove⟩, rfl⟩
  have hpage := isPage_take hsorted hmem hlimit
  rw [List.length_map, ← List.map_take, List.getLast?_map] at hpage
  exact hpage

theorem listBody_eq (owner : ℕ) (r : MemoryShortLinkRepository) {request : HttpRequest}
    (hcursor : parseCursor (request.getQueryParameters (ascii "cursor")) = .ok cursor)
    (hlimit : parseLimit (request.getQueryParameters (ascii "limit")) = .ok limit)
    (hstatus : parseStatusFilter (request.getQueryParameters (ascii "status")) = .ok status) :
    ∃ body, listBody request owner r = .ok body ∧
      itemsOf body = (pageRecords owner status cursor limit r).map recordJson ∧
      nextCursorOf body = (nextCursor owner status cursor limit r).map Nat.cast := by
  have hquery : parseListQuery request owner =
      .ok (⟨cursor, limit + 1, some owner, status⟩, limit) := by
    rw [parseListQuery, hcursor, hlimit, hstatus]
    rfl
  have hrecords : list ⟨cursor, limit + 1, some owner, status⟩ r =
      (sortedShown ⟨cursor, limit + 1, some owner, status⟩ r).take (limit + 1) := list_eq _ _
  have htake :
      ((sortedShown ⟨cursor, limit + 1, some owner, status⟩ r).take (limit + 1)).take limit =
        pageRecords owner status cursor limit r := by
    rw [List.take_take, min_eq_left (by omega), pageRecords]
  have hmore : limit < ((sortedShown ⟨cursor, limit + 1, some owner, status⟩ r).take
      (limit + 1)).length ↔
        limit < (sortedShown ⟨cursor, limit + 1, some owner, status⟩ r).length := by
    rw [List.length_take]
    omega
  refine ⟨listJson (list ⟨cursor, limit + 1, some owner, status⟩ r) limit, ?_, ?_, ?_⟩
  · rw [listBody, hquery]
    rfl
  · rw [itemsOf_listJson, hrecords, htake]
  · rw [nextCursorOf_listJson, hrecords, htake, nextCursor]
    simp only [hmore]
    split
    · rw [Option.map_map]
      rfl
    · rfl

/-- cursor is the parameter of the next request, and there is none after the last page. -/
structure Scan where
  links : MemoryShortLinkRepository
  cursor : Option Bytes
  items : List Json

inductive Event where
  | page (request : HttpRequest)
  | create (c : CreateCall)
  | update (code : Bytes) (update : LifecycleUpdate) (now : ℤ)

def Event.isCreate : Event → Bool
  | .create _ => true
  | _ => false

/-- The request has these parameters; one that is left out is empty. -/
def Asks (request : HttpRequest) (cursor limit status : Bytes) : Prop :=
  request.getQueryParameters (ascii "cursor") = cursor ∧
    request.getQueryParameters (ascii "limit") = limit ∧
    request.getQueryParameters (ascii "status") = status

instance (request : HttpRequest) (cursor limit status : Bytes) :
    Decidable (Asks request cursor limit status) := inferInstanceAs (Decidable (_ ∧ _))

def next (owner : ℕ) (limitValue statusValue : Bytes) (s : Scan) : Event → Option Scan
  | .page request =>
    match s.cursor with
    | none => none
    | some cursor =>
      if Asks request cursor limitValue statusValue then
        match listBody request owner s.links with
        | .ok body => some { s with
            cursor := (nextCursorOf body).map signedToDecimal
            items := s.items ++ itemsOf body }
        | .error _ => none
      else none
  | .create c => some { s with links := (c.run s.links).2 }
  | .update code update now => some { s with links := (updateLifecycle code update now s.links).2 }

def Step (owner : ℕ) (limitValue statusValue : Bytes) (s : Scan) (e : Event) (s' : Scan) : Prop :=
  next owner limitValue statusValue s e = some s'

def Selected (owner : ℕ) (status : Option Status) (r : MemoryShortLinkRepository)
    (code : Bytes) : Prop :=
  ∃ record, r.links.lookup code = some record ∧ Matches owner status record

variable {limitValue statusValue : Bytes} {s s' : Scan} {e : Event}

theorem step_cases (h : Step owner limitValue statusValue s e s') :
    (∃ request cursor body, e = .page request ∧ s.cursor = some cursor ∧
      Asks request cursor limitValue statusValue ∧ listBody request owner s.links = .ok body ∧
      s' = ⟨s.links, (nextCursorOf body).map signedToDecimal, s.items ++ itemsOf body⟩) ∨
    ((∀ request, e ≠ .page request) ∧ s'.cursor = s.cursor ∧ s'.items = s.items ∧
      ((∃ c, e.isCreate ∧ s'.links = (CreateCall.run c s.links).2) ∨
        ∃ code update now, s'.links = (updateLifecycle code update now s.links).2)) := by
  cases e with
  | page request =>
    simp only [Step, next] at h
    split at h
    · cases h
    · next cursor hcursor =>
      split_ifs at h with hasks
      split at h
      · next body hbody =>
        exact .inl ⟨request, cursor, body, rfl, hcursor, hasks, hbody, (Option.some.inj h).symm⟩
      · cases h
  | create c =>
    obtain rfl := Option.some.inj h
    exact .inr ⟨by simp, rfl, rfl, .inl ⟨c, rfl, rfl⟩⟩
  | update code update now =>
    obtain rfl := Option.some.inj h
    exact .inr ⟨by simp, rfl, rfl, .inr ⟨code, update, now, rfl⟩⟩

/-- No step takes a record away, or gives its code another id. -/
theorem step_keeps (h : Step owner limitValue statusValue s e s') {code : Bytes}
    {record : ShortLinkRecord} (hrecord : s.links.links.lookup code = some record) :
    ∃ later, s'.links.links.lookup code = some later ∧ later.id = record.id := by
  rcases step_cases h with ⟨_, _, _, _, _, _, _, rfl⟩ | ⟨_, _, _, ⟨c, _, hlinks⟩ |
    ⟨code', update, now, hlinks⟩⟩
  · exact ⟨record, hrecord, rfl⟩
  · rw [hlinks]
    rcases create_lookup c s.links code with hsame | ⟨_, hfree, _⟩
    · exact ⟨record, hsame.trans hrecord, rfl⟩
    · cases hfree.symm.trans hrecord
  · rw [hlinks, updateLifecycle_lookup]
    split
    · next hcode =>
      subst hcode
      rw [hrecord, Option.map_some]
      exact ⟨_, rfl, by split <;> rfl⟩
    · exact ⟨record, hrecord, rfl⟩

/-- The create calls among the steps, failed ones too. -/
def creates (steps : List (Scan × Event × Scan)) : ℕ := steps.countP fun t => t.2.1.isCreate

theorem step_reachable (h : Step owner limitValue statusValue s e s') {n : ℕ}
    (hs : Reachable n s.links) : ∃ m ≤ n + creates [(s, e, s')], Reachable m s'.links := by
  rcases step_cases h with ⟨_, _, _, _, _, _, _, rfl⟩ | ⟨_, _, _, ⟨c, hcreate, hlinks⟩ |
    ⟨code, update, now, hlinks⟩⟩
  · exact ⟨n, by omega, hs⟩
  · rw [hlinks]
    refine ⟨n + 1, ?_, hs.create c⟩
    rw [creates, List.countP_singleton, if_pos hcreate]
  · rw [hlinks]
    exact ⟨n, by omega, hs.update code update now⟩

theorem inOrder_of_reachable {n : ℕ} (h : Reachable n r) (hn : n < 2 ^ 64) : InOrder r := by
  have hids := idsFromCounter_of_reachable h hn
  refine ⟨hids.distinct, fun code record hrecord => ?_, hids.codes⟩
  obtain ⟨hpositive, hgiven⟩ := hids.given code record hrecord
  exact ⟨hpositive, hgiven.trans_lt hn⟩

/-- The ids of the records that were there at the start and have been listed ever since. -/
def alwaysListed (owner : ℕ) (status : Option Status) (s₀ : Scan)
    (steps : List (Scan × Event × Scan)) : Set ℕ :=
  {id | ∃ code record, s₀.links.links.lookup code = some record ∧ record.id = id ∧
    ∀ t ∈ steps, Selected owner status t.1.links code}

structure Progress (owner : ℕ) (status : Option Status) (s₀ : Scan)
    (steps : List (Scan × Event × Scan)) (s : Scan) (cursor : Option ℕ)
    (records : List ShortLinkRecord) : Prop where
  items : s.items = records.map recordJson
  cursorValue : (s.cursor = none ∧ cursor = none) ∨
    ∃ value c, s.cursor = some value ∧ cursor = some c ∧ parseCursor value = .ok c
  shown : ∀ record ∈ records, Matches owner status record ∧
    (∃ t ∈ steps, t.1.links.links.lookup record.code = some record) ∧
    ∃ later, s.links.links.lookup record.code = some later ∧ later.id = record.id
  origin : ∀ code record, s₀.links.links.lookup code = some record →
    ∃ later, s.links.links.lookup code = some later ∧ later.id = record.id
  scanned : Scanned 0 (alwaysListed owner status s₀ steps) cursor
    (records.map ShortLinkRecord.id)

variable {s₀ : Scan} {steps : List (Scan × Event × Scan)} {next : Option ℕ}
  {records : List ShortLinkRecord}

theorem alwaysListed_snoc (t : Scan × Event × Scan) :
    ∀ k ∈ alwaysListed owner status s₀ (steps ++ [t]), k ∈ alwaysListed owner status s₀ steps := by
  rintro k ⟨code, record, hlookup, hid, hall⟩
  exact ⟨code, record, hlookup, hid, fun u hu => hall u (List.mem_append_left _ hu)⟩

theorem Progress.isPage {c : ℕ} (hs : Progress owner status s₀ steps s (some c) records)
    (horder : InOrder s.links) (hlimit : 0 < limit) (e : Event) (s' : Scan) :
    Scanned 0 (alwaysListed owner status s₀ (steps ++ [(s, e, s')]))
      (nextCursor owner status c limit s.links)
      ((records ++ pageRecords owner status c limit s.links).map ShortLinkRecord.id) := by
  rw [List.map_append]
  refine (hs.scanned.mono (alwaysListed_snoc (s, e, s'))).page
    (page_isPage horder.ids hlimit) ?_
  rintro k ⟨code, record, hlookup, rfl, hall⟩
  obtain ⟨listed, hlisted, hmatches⟩ := hall (s, e, s') (by simp)
  obtain ⟨later, hlater, hid⟩ := hs.origin code record hlookup
  obtain rfl := Option.some.inj (hlisted.symm.trans hlater)
  exact ⟨code, listed, hlisted, hmatches, hid⟩

theorem parseCursor_toDecimal {n : ℕ} (h : n < 2 ^ 64) : parseCursor (toDecimal n) = .ok n := by
  rw [parseCursor, if_neg (Decimals.toDecimal_ne_nil n), parseUnsigned_toDecimal h]

theorem mem_pageRecords {c : ℕ} {record : ShortLinkRecord} (horder : InOrder r)
    (h : record ∈ pageRecords owner status c limit r) :
    Matches owner status record ∧ r.links.lookup record.code = some record := by
  obtain ⟨code, hlookup, hselected⟩ := mem_sortedShown.mp (List.mem_of_mem_take h)
  rw [horder.codes code record hlookup]
  exact ⟨(selects_iff.mp hselected).1, hlookup⟩

theorem nextCursor_lt {c k : ℕ} (horder : InOrder r)
    (h : nextCursor owner status c limit r = some k) : k < 2 ^ 64 := by
  simp only [nextCursor] at h
  split_ifs at h
  obtain ⟨record, hlast, rfl⟩ := Option.map_eq_some_iff.mp h
  have hlookup := (mem_pageRecords horder (List.mem_of_getLast? hlast)).2
  exact (horder.range _ _ hlookup).2

theorem page_step (owner : ℕ) {c : ℕ} {value : Bytes} {request : HttpRequest}
    (hlimit : parseLimit limitValue = .ok limit)
    (hstatus : parseStatusFilter statusValue = .ok status) (hvalue : parseCursor value = .ok c)
    (hcursor : s.cursor = some value) (hasks : Asks request value limitValue statusValue) :
    Step owner limitValue statusValue s (.page request)
      ⟨s.links, (nextCursor owner status c limit s.links).map fun k => toDecimal k,
        s.items ++ (pageRecords owner status c limit s.links).map recordJson⟩ := by
  have hasked := hasks
  obtain ⟨hcursorAsked, hlimitAsked, hstatusAsked⟩ := hasks
  rw [← hcursorAsked] at hvalue
  rw [← hlimitAsked] at hlimit
  rw [← hstatusAsked] at hstatus
  obtain ⟨body, hbody, hitems, hnext⟩ := listBody_eq owner s.links hvalue hlimit hstatus
  have hdecimal : (signedToDecimal ∘ Nat.cast : ℕ → Bytes) = fun k => toDecimal k :=
    funext Decimals.signedToDecimal_natCast
  simp only [Step, LinkPages.next, hcursor, if_pos hasked, hbody, hitems, hnext, Option.map_map,
    hdecimal]

theorem page_progress {c : ℕ} {value : Bytes} {request : HttpRequest}
    (hs : Progress owner status s₀ steps s (some c) records) (horder : InOrder s.links)
    (hlimit : parseLimit limitValue = .ok limit)
    (hstatus : parseStatusFilter statusValue = .ok status) (hvalue : parseCursor value = .ok c)
    (hcursor : s.cursor = some value) (hasks : Asks request value limitValue statusValue)
    (h : Step owner limitValue statusValue s (.page request) s') :
    Progress owner status s₀ (steps ++ [(s, .page request, s')]) s'
      (nextCursor owner status c limit s.links)
      (records ++ pageRecords owner status c limit s.links) := by
  have hpage := hs.isPage horder (parseLimit_range hlimit).1 (.page request) s'
  obtain rfl := Option.some.inj (h.symm.trans (page_step owner hlimit hstatus hvalue hcursor hasks))
  refine ⟨?_, ?_, fun record hrecord => ?_, hs.origin, hpage⟩
  · rw [List.map_append, ← hs.items]
  · cases hnext : nextCursor owner status c limit s.links with
    | none => exact .inl ⟨rfl, rfl⟩
    | some k =>
      exact .inr ⟨toDecimal k, k, rfl, rfl, parseCursor_toDecimal (nextCursor_lt horder hnext)⟩
  · rcases List.mem_append.mp hrecord with hold | hnew
    · obtain ⟨hmatches, ⟨t, ht, hheld⟩, hlater⟩ := hs.shown record hold
      exact ⟨hmatches, ⟨t, List.mem_append_left _ ht, hheld⟩, hlater⟩
    · obtain ⟨hmatches, hlookup⟩ := mem_pageRecords horder hnew
      exact ⟨hmatches, ⟨_, List.mem_append_right _ (List.mem_singleton_self _), hlookup⟩, record,
        hlookup, rfl⟩

theorem step_progress {cursor : Option ℕ}
    (hs : Progress owner status s₀ steps s cursor records) (horder : InOrder s.links)
    (hlimit : parseLimit limitValue = .ok limit)
    (hstatus : parseStatusFilter statusValue = .ok status)
    (h : Step owner limitValue statusValue s e s') :
    ∃ cursor records, Progress owner status s₀ (steps ++ [(s, e, s')]) s' cursor records := by
  have hkeeps {code : Bytes} {record : ShortLinkRecord}
      (hrecord : s.links.links.lookup code = some record) := step_keeps h hrecord
  rcases step_cases h with ⟨request, value, _, rfl, hcursor, hasks, _, _⟩ |
    ⟨_, hcursor, hitems, _⟩
  · rcases hs.cursorValue with ⟨hnone, _⟩ | ⟨value', c, hvalue, rfl, hparse⟩
    · cases hcursor.symm.trans hnone
    · obtain rfl := Option.some.inj (hcursor.symm.trans hvalue)
      exact ⟨_, _, page_progress hs horder hlimit hstatus hparse hcursor hasks h⟩
  · refine ⟨cursor, records, hitems.trans hs.items, by rw [hcursor]; exact hs.cursorValue,
      fun record hrecord => ?_, fun code record hrecord => ?_,
      hs.scanned.mono (alwaysListed_snoc _)⟩
    · obtain ⟨hmatches, ⟨t, ht, hheld⟩, later, hlater, hid⟩ := hs.shown record hrecord
      obtain ⟨last, hlast, hid'⟩ := hkeeps hlater
      exact ⟨hmatches, ⟨t, List.mem_append_left _ ht, hheld⟩, last, hlast, hid'.trans hid⟩
    · obtain ⟨later, hlater, hid⟩ := hs.origin code record hrecord
      obtain ⟨last, hlast, hid'⟩ := hkeeps hlater
      exact ⟨last, hlast, hid'.trans hid⟩

theorem path_progress {n : ℕ} {r₀ : MemoryShortLinkRepository}
    (hlimit : parseLimit limitValue = .ok limit)
    (hstatus : parseStatusFilter statusValue = .ok status) (hreach : Reachable n r₀)
    (h : Path (Step owner limitValue statusValue) ⟨r₀, some [], []⟩ steps s)
    (hbound : n + creates steps < 2 ^ 64) :
    InOrder s.links ∧ (∃ m ≤ n + creates steps, Reachable m s.links) ∧
      ∃ cursor records, Progress owner status ⟨r₀, some [], []⟩ steps s cursor records := by
  induction h with
  | start =>
    have horder := inOrder_of_reachable hreach hbound
    refine ⟨horder, ⟨n, le_rfl, hreach⟩, some 0, [], rfl, .inr ⟨[], 0, rfl, rfl, rfl⟩,
      fun record hrecord => (by cases hrecord), fun code record hrecord => ⟨record, hrecord, rfl⟩,
      scanned_start ?_⟩
    rintro k ⟨code, record, hlookup, rfl, _⟩
    exact (horder.range code record hlookup).1
  | @snoc steps s e s' _ hlast ih =>
    rw [creates, List.countP_append] at hbound ⊢
    rw [← creates, ← creates] at hbound ⊢
    obtain ⟨horder, ⟨m, hm, hreach'⟩, cursor, records, hs⟩ := ih (by omega)
    obtain ⟨m', hm', hlater⟩ := step_reachable hlast hreach'
    exact ⟨inOrder_of_reachable hlater (by omega), ⟨m', by omega, hlater⟩,
      step_progress hs horder hlimit hstatus hlast⟩

/-- A record of the listing that comes after everything shown so far. -/
def Further (owner : ℕ) (status : Option Status) (r : MemoryShortLinkRepository)
    (items : List Json) : Prop :=
  ∃ code record, r.links.lookup code = some record ∧ Matches owner status record ∧
    ∀ item ∈ items, ∀ id, itemId item = some id → id < record.id

theorem further_iff : Further owner status r (records.map recordJson) ↔
    ∃ k ∈ listedIds owner status r, ∀ k' ∈ records.map ShortLinkRecord.id, k' < k := by
  simp only [Further, listedIds, Set.mem_ofPred_eq, List.forall_mem_map, itemId_recordJson,
    Option.some.injEq, forall_eq', Nat.cast_lt]
  constructor
  · rintro ⟨code, record, hlookup, hmatches, hlast⟩
    exact ⟨record.id, ⟨code, record, hlookup, hmatches, rfl⟩, hlast⟩
  · rintro ⟨_, ⟨code, record, hlookup, hmatches, rfl⟩, hlast⟩
    exact ⟨code, record, hlookup, hmatches, hlast⟩

theorem page_last {cursor : Option ℕ} {request : HttpRequest}
    (hs : Progress owner status s₀ steps s cursor records) (horder : InOrder s.links)
    (hlimit : parseLimit limitValue = .ok limit)
    (hstatus : parseStatusFilter statusValue = .ok status)
    (h : Step owner limitValue statusValue s (.page request) s') :
    s'.cursor = none ↔ ¬ Further owner status s.links s'.items := by
  rcases step_cases h with ⟨request', value, _, hpage, hcursor, hasks, _, _⟩ | ⟨hno, _⟩
  swap
  · exact absurd rfl (hno request)
  obtain rfl := Event.page.inj hpage
  rcases hs.cursorValue with ⟨hnone, _⟩ | ⟨value', c, hvalue, rfl, hparse⟩
  · cases hcursor.symm.trans hnone
  obtain rfl := Option.some.inj (hcursor.symm.trans hvalue)
  have hprogress := page_progress hs horder hlimit hstatus hparse hcursor hasks h
  have hcursors : s'.cursor = none ↔ nextCursor owner status c limit s.links = none := by
    rcases hprogress.cursorValue with ⟨hnone, hnone'⟩ | ⟨value', c', hsome, hsome', _⟩
    · exact iff_of_true hnone hnone'
    · exact iff_of_false (fun hnone => by cases hsome.symm.trans hnone)
        (fun hnone => by cases hsome'.symm.trans hnone)
  rw [hcursors, hprogress.items, further_iff, List.map_append]
  apply next_none_iff hs.scanned (page_isPage horder.ids (parseLimit_range hlimit).1)
  rintro k ⟨code, record, hlookup, _, rfl⟩
  exact (horder.range code record hlookup).1

/-- The handler answers the request with a page, and the client reads it. -/
def Answered (owner : ℕ) (request : HttpRequest) (s s' : Scan) : Prop :=
  ∃ body, s'.cursor = (nextCursorOf body).map signedToDecimal ∧
    s'.items = s.items ++ itemsOf body ∧
    ∀ (A : Type) (api : ShortLinkHttpApi A MemoryShortLinkRepository)
      (state : ServerState A MemoryShortLinkRepository), state.links = s.links →
      (handleList (overMemory api) request owner).run state =
        (setJson (overMemory api) 200 "OK" body).run state

theorem page_answered {request : HttpRequest}
    (h : Step owner limitValue statusValue s (.page request) s') : Answered owner request s s' := by
  rcases step_cases h with ⟨request', _, body, hpage, _, _, hbody, rfl⟩ | ⟨hno, _⟩
  · obtain rfl := Event.page.inj hpage
    refine ⟨body, rfl, rfl, ?_⟩
    intro A api state hlinks
    rw [← hlinks] at hbody
    exact handleList_run api state hbody
  · exact absurd rfl (hno request)

/-- What a client has read that followed next_cursor through these steps. -/
structure ScannedRight (owner : ℕ) (status : Option Status) (limitValue statusValue : Bytes)
    (s₀ : Scan) (steps : List (Scan × Event × Scan)) (s : Scan)
    (records : List ShortLinkRecord) : Prop where
  answered : ∀ t ∈ steps, ∀ request, t.2.1 = .page request → Answered owner request t.1 t.2.2
  items : s.items = records.map recordJson
  increasing : records.Pairwise fun left right => left.id < right.id
  owned : ∀ record ∈ records, record.ownerId = owner
  listed : ∀ record ∈ records, Matches owner status record ∧
    ∃ t ∈ steps, t.1.links.links.lookup record.code = some record
  exactlyOnce : s.cursor = none → ∀ code, (s₀.links.links.lookup code).isSome →
    (∀ t ∈ steps, Selected owner status t.1.links code) →
      ∃! record, record ∈ records ∧ record.code = code
  lastPage : ∀ t ∈ steps, ∀ request, t.2.1 = .page request →
    (t.2.2.cursor = none ↔ ¬ Further owner status t.1.links t.2.2.items)
  goesOn : ∀ cursor, s.cursor = some cursor → ∀ request,
    Asks request cursor limitValue statusValue → ∃ body, listBody request owner s.links = .ok body

theorem progress_exactlyOnce (hs : Progress owner status s₀ steps s none records)
    (horder : InOrder s.links) {code : Bytes} (hthere : (s₀.links.links.lookup code).isSome)
    (hall : ∀ t ∈ steps, Selected owner status t.1.links code) :
    ∃! record, record ∈ records ∧ record.code = code := by
  obtain ⟨first, hfirst⟩ := Option.isSome_iff_exists.mp hthere
  obtain ⟨now, hnow, hid⟩ := hs.origin code first hfirst
  have hseen := hs.scanned.complete first.id ⟨code, first, hfirst, rfl, hall⟩ (by simp)
  obtain ⟨record, hrecord, hrecordId⟩ := List.mem_map.mp hseen
  obtain ⟨_, _, later, hlater, hlaterId⟩ := hs.shown record hrecord
  have hcode : record.code = code := horder.ids _ _ _ _ hlater hnow (by omega)
  refine ⟨record, ⟨hrecord, hcode⟩, ?_⟩
  rintro other ⟨hother, rfl⟩
  obtain ⟨_, _, later', hlater', hlaterId'⟩ := hs.shown other hother
  rw [hcode] at hlater
  obtain rfl := Option.some.inj (hlater.symm.trans hlater')
  -- ids increase, so they are distinct
  have hnodup : (records.map ShortLinkRecord.id).Nodup := hs.scanned.sorted.imp fun h => h.ne
  exact List.inj_on_of_nodup_map hnodup hother hrecord (hlaterId'.symm.trans hlaterId)

/-- Pages are complete and free of duplicates, whatever is created and updated between them. -/
theorem following_next_cursor {n : ℕ} {r₀ : MemoryShortLinkRepository}
    (hlimit : parseLimit limitValue = .ok limit)
    (hstatus : parseStatusFilter statusValue = .ok status) (hreach : Reachable n r₀)
    (h : Path (Step owner limitValue statusValue) ⟨r₀, some [], []⟩ steps s)
    (hbound : n + creates steps < 2 ^ 64) :
    ∃ records, ScannedRight owner status limitValue statusValue ⟨r₀, some [], []⟩ steps s
      records := by
  obtain ⟨horder, _, cursor, records, hs⟩ := path_progress hlimit hstatus hreach h hbound
  have hstep : ∀ t ∈ steps, ∀ request, t.2.1 = .page request → ∃ before after,
      steps = before ++ t :: after ∧ Path (Step owner limitValue statusValue) ⟨r₀, some [], []⟩
        before t.1 ∧ Step owner limitValue statusValue t.1 (.page request) t.2.2 := by
    intro t ht request hpage
    obtain ⟨before, after, rfl⟩ := List.append_of_mem ht
    obtain ⟨hpath, hstep⟩ := h.of_append
    rw [hpage] at hstep
    exact ⟨before, after, rfl, hpath, hstep⟩
  refine ⟨records, fun t ht request hpage => ?_, hs.items, List.pairwise_map.mp hs.scanned.sorted,
    fun record hrecord => (hs.shown record hrecord).1.1,
    fun record hrecord => ⟨(hs.shown record hrecord).1, (hs.shown record hrecord).2.1⟩,
    fun hdone code hthere hall => ?_, fun t ht request hpage => ?_,
    fun value hvalue request hasks => ?_⟩
  · obtain ⟨_, _, _, _, hlast⟩ := hstep t ht request hpage
    exact page_answered hlast
  · rcases hs.cursorValue with ⟨_, rfl⟩ | ⟨value, _, hvalue, _, _⟩
    · exact progress_exactlyOnce hs horder hthere hall
    · cases hdone.symm.trans hvalue
  · obtain ⟨before, after, rfl, hpath, hlast⟩ := hstep t ht request hpage
    rw [creates, List.countP_append, ← creates] at hbound
    obtain ⟨horder', _, _, _, hs'⟩ := path_progress hlimit hstatus hreach hpath (by omega)
    exact page_last hs' horder' hlimit hstatus hlast
  · rcases hs.cursorValue with ⟨hnone, _⟩ | ⟨value', c, hvalue', _, hparse⟩
    · cases hvalue.symm.trans hnone
    · obtain rfl := Option.some.inj (hvalue.symm.trans hvalue')
      obtain ⟨hcursorAsked, hlimitAsked, hstatusAsked⟩ := hasks
      rw [← hcursorAsked] at hparse
      rw [← hlimitAsked] at hlimit
      rw [← hstatusAsked] at hstatus
      obtain ⟨body, hbody, _⟩ := listBody_eq owner s.links hparse hlimit hstatus
      exact ⟨body, hbody⟩

section Demo

theorem sortedShown_eq {query : ListQuery} {sorted : List ShortLinkRecord}
    (hperm : sorted.Perm ((shown query r).map Sigma.snd))
    (hsorted : sorted.Pairwise fun left right => left.id < right.id) :
    sortedShown query r = sorted := by
  have hle : sorted.Pairwise fun left right => decide (left.id ≤ right.id) = true :=
    hsorted.imp fun h => by simpa using h.le
  have hsame : (sortedShown query r).Perm sorted := (List.mergeSort_perm _ _).trans hperm.symm
  refine hsame.eq_of_pairwise (fun a b ha hb hab hba => ?_)
    (List.pairwise_mergeSort (fun a b c => by simpa using Nat.le_trans)
      (fun a b => by simpa using Nat.le_total a.id b.id) _) hle
  have hid : a.id = b.id := Nat.le_antisymm (by simpa using hab) (by simpa using hba)
  refine List.inj_on_of_nodup_map ?_ (hsame.mem_iff.mp ha) hb hid
  exact (List.pairwise_map.mpr hsorted).imp fun h => h.ne

def demoCreate (code : String) : CreateCall :=
  ⟨ascii "https://a.example", none, 7, some (ascii code), 0⟩

def demoRecord (id : ℕ) (code : String) : ShortLinkRecord :=
  ⟨id, 7, ascii code, ascii "https://a.example", .active, none, 0, 0⟩

def demoLinks : MemoryShortLinkRepository :=
  ((demoCreate "two").run ((demoCreate "one").run .empty).2).2

def demoUpdated : MemoryShortLinkRepository :=
  (updateLifecycle (ascii "one") ⟨some .disabled, false, none, some 7⟩ 5 demoLinks).2

def demoRequest (cursor : Bytes) : HttpRequest where
  queryParameters := .insert (.insert .empty (ascii "limit") (ascii "1")) (ascii "cursor") cursor

theorem demoLinks_reachable : Reachable 2 demoLinks := (Reachable.empty.create _).create _

/-- Two pages of one link each; the first link is disabled after it was shown. -/
theorem following_next_cursor_demo : ∃ steps s records,
    Path (Step 7 (ascii "1") []) ⟨demoLinks, some [], []⟩ steps s ∧ s.cursor = none ∧
      ScannedRight 7 none (ascii "1") [] ⟨demoLinks, some [], []⟩ steps s records := by
  have hlimit : parseLimit (ascii "1") = .ok 1 := rfl
  have hstatus : parseStatusFilter [] = .ok none := rfl
  have hfirst : sortedShown ⟨0, 2, some 7, none⟩ demoLinks =
      [demoRecord 1 "one", demoRecord 2 "two"] := sortedShown_eq (by decide) (by decide)
  have hsecond : sortedShown ⟨1, 2, some 7, none⟩ demoUpdated = [demoRecord 2 "two"] :=
    sortedShown_eq (by decide) (by decide)
  have hpage : Step 7 (ascii "1") [] ⟨demoLinks, some [], []⟩ (.page (demoRequest []))
      ⟨demoLinks, some (ascii "1"), [recordJson (demoRecord 1 "one")]⟩ := by
    have h := page_step 7 (s := ⟨demoLinks, some [], []⟩) hlimit hstatus
      (show parseCursor [] = .ok 0 from rfl) rfl
      (show Asks (demoRequest []) [] (ascii "1") [] by decide)
    rw [nextCursor, pageRecords, hfirst] at h
    exact h
  have hlast : Step 7 (ascii "1") [] ⟨demoUpdated, some (ascii "1"),
      [recordJson (demoRecord 1 "one")]⟩ (.page (demoRequest (ascii "1")))
      ⟨demoUpdated, none, [recordJson (demoRecord 1 "one"), recordJson (demoRecord 2 "two")]⟩ := by
    have h := page_step 7 (s := ⟨demoUpdated, some (ascii "1"), [recordJson (demoRecord 1 "one")]⟩)
      hlimit hstatus (show parseCursor (ascii "1") = .ok 1 from rfl) rfl
      (show Asks (demoRequest (ascii "1")) (ascii "1") (ascii "1") [] by decide)
    rw [nextCursor, pageRecords, hsecond] at h
    exact h
  have hupdate : Step 7 (ascii "1") [] ⟨demoLinks, some (ascii "1"),
      [recordJson (demoRecord 1 "one")]⟩
      (.update (ascii "one") ⟨some .disabled, false, none, some 7⟩ 5)
      ⟨demoUpdated, some (ascii "1"), [recordJson (demoRecord 1 "one")]⟩ := rfl
  have hpath := ((Path.start.snoc hpage).snoc hupdate).snoc hlast
  obtain ⟨records, hscanned⟩ := following_next_cursor hlimit hstatus demoLinks_reachable hpath
    (by decide)
  exact ⟨_, _, records, hpath, rfl, hscanned⟩

/-- Each create of a code that is taken fails and burns an id. -/
theorem burnt_reachable (k : ℕ) : Reachable (k + 1)
    ⟨((demoCreate "one").run .empty).2.links, (k + 2) % 2 ^ 64⟩ := by
  induction k with
  | zero => exact Reachable.empty.create (demoCreate "one")
  | succ k ih =>
    have htaken (n : ℕ) : ((demoCreate "one").run
        ⟨((demoCreate "one").run .empty).2.links, n⟩).2 =
          ⟨((demoCreate "one").run .empty).2.links, (n + 1) % 2 ^ 64⟩ := by
      have hmem : ascii "one" ∈ ((demoCreate "one").run .empty).2.links := by decide
      simp only [CreateCall.run, create]
      exact congrArg Prod.snd (if_pos hmem)
    have hnext := ih.create (demoCreate "one")
    rwa [htaken, Nat.mod_add_mod] at hnext

/-- The counter has come round to 0. -/
def demoWrapped : MemoryShortLinkRepository :=
  ((demoCreate "zero").run ⟨((demoCreate "one").run .empty).2.links, 0⟩).2

theorem demoWrapped_reachable : Reachable (2 ^ 64) demoWrapped :=
  (burnt_reachable (2 ^ 64 - 2)).create (demoCreate "zero")

/-- The link that the 2^64-th create makes has the id 0, which no page shows. -/
theorem wrapped_id_never_shown : ∃ steps s, Reachable (2 ^ 64) demoWrapped ∧
    Path (Step 7 (ascii "1") []) ⟨demoWrapped, some [], []⟩ steps s ∧ s.cursor = none ∧
      ¬ ∃ records,
        ScannedRight 7 none (ascii "1") [] ⟨demoWrapped, some [], []⟩ steps s records := by
  have hlinks : demoWrapped.links.lookup (ascii "zero") = some (demoRecord 0 "zero") := by decide
  have hsorted : sortedShown ⟨0, 2, some 7, none⟩ demoWrapped = [demoRecord 1 "one"] :=
    sortedShown_eq (by decide) (by decide)
  have hpage : Step 7 (ascii "1") [] ⟨demoWrapped, some [], []⟩ (.page (demoRequest []))
      ⟨demoWrapped, none, [recordJson (demoRecord 1 "one")]⟩ := by
    have h := page_step 7 (s := ⟨demoWrapped, some [], []⟩) (show parseLimit (ascii "1") = .ok 1
      from rfl) (show parseStatusFilter [] = .ok none from rfl)
      (show parseCursor [] = .ok 0 from rfl) rfl
      (show Asks (demoRequest []) [] (ascii "1") [] by decide)
    rw [nextCursor, pageRecords, hsorted] at h
    exact h
  refine ⟨_, _, demoWrapped_reachable, .snoc .start hpage, rfl, ?_⟩
  rintro ⟨records, hscanned⟩
  have hselected : Selected 7 none demoWrapped (ascii "zero") := ⟨_, hlinks, rfl, by simp⟩
  obtain ⟨record, ⟨hrecord, hcode⟩, -⟩ := hscanned.exactlyOnce rfl (ascii "zero")
    (Option.isSome_of_eq_some hlinks) (by simpa using hselected)
  obtain ⟨-, t, ht, hlookup⟩ := hscanned.listed record hrecord
  obtain rfl := List.mem_singleton.mp ht
  obtain rfl := Option.some.inj (hlookup.symm.trans (hcode ▸ hlinks))
  have hitem : recordJson (demoRecord 0 "zero") ∈ records.map recordJson :=
    List.mem_map_of_mem hrecord
  rw [← hscanned.items, List.mem_singleton] at hitem
  exact absurd (congrArg itemId hitem) (by decide)

end Demo

end LinkPages
