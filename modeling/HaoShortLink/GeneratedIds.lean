import HaoShortLink.AtomicCounters
import HaoShortLink.Positionals
import HaoShortLink.RedirectEvents

/-! generateRequestId and generateAccessEventId, called by any threads at once. -/
namespace GeneratedIds

open Cpp Actions Histories AtomicCounters ServerStates RequestIds
open AccessEvents (isLowercaseHex isSafeRequestId)
open RedirectHandlers (generateAccessEventId)

/-- %016llx as printf prints it: no fewer than 16 digits, zeros in front. -/
def printf016llx (n : ℕ) : Bytes :=
  let digits := ascii (String.ofList (Nat.toDigits 16 n))
  List.replicate (16 - digits.length) 48 ++ digits

/-- snprintf into the buffer of 33 characters, the last one for the end of the string. -/
def snprintfId (processNonce next : UInt64) : Bytes :=
  (printf016llx processNonce.toNat ++ printf016llx next.toNat).take 32

/-- What one of the two functions returns for the number its fetch_add gives: each has a nonce and a
sequence of its own. -/
abbrev Generates (processNonce : UInt64) := Step (snprintfId processNonce)

theorem hex16_eq_numeral (n : ℕ) : hex16 n = (Positionals.numeral 16 16 n).map hexDigit := by
  rw [hex16, Positionals.numeral_eq_map, List.map_map]
  refine List.map_congr_left ?_
  intro i _
  rw [Function.comp_apply, hexDigit, hexDigit, Nat.mod_mod]

theorem hex16_length (n : ℕ) : (hex16 n).length = 16 := by
  rw [hex16, List.length_map, List.length_range]

theorem hexDigit_digitChar {d : ℕ} (h : d < 16) :
    (Nat.digitChar d).toNat.toUInt8 = hexDigit d := by
  have hall : ∀ i < 16, (Nat.digitChar i).toNat.toUInt8 = hexDigit i := by decide
  exact hall d h

theorem printf016llx_eq {n : ℕ} (h : n < 2 ^ 64) : printf016llx n = hex16 n := by
  have hdigits := Positionals.replicate_toDigits (b := 16) (k := 15) (by decide)
    (show n < 16 ^ (15 + 1) by omega)
  have hascii : ∀ chars : List Char, ascii (String.ofList chars) =
      chars.map fun c => c.toNat.toUInt8 := by simp [ascii]
  have hprinted : printf016llx n = ascii (String.ofList (List.replicate
      (15 + 1 - (Nat.toDigits 16 n).length) '0' ++ Nat.toDigits 16 n)) := by
    simp only [printf016llx, hascii, List.map_append, List.map_replicate, List.length_map]
    rfl
  rw [hprinted, hdigits, hascii, List.map_map, hex16_eq_numeral]
  refine List.map_congr_left ?_
  intro d hd
  exact hexDigit_digitChar (Positionals.numeral_lt (by decide) d hd)

theorem snprintfId_eq (processNonce next : UInt64) :
    snprintfId processNonce next = generateRequestId processNonce.toNat next.toNat := by
  rw [snprintfId, printf016llx_eq processNonce.toNat_lt, printf016llx_eq next.toNat_lt]
  exact List.take_of_length_le (by simp [hex16_length])

theorem idxOf_hexDigit {d : ℕ} (h : d < 16) :
    (ascii "0123456789abcdef").idxOf (hexDigit d) = d := by
  have hall : ∀ i < 16, (ascii "0123456789abcdef").idxOf (hexDigit i) = i := by decide
  exact hall d h

theorem map_idxOf_hex16 (n : ℕ) :
    (hex16 n).map (ascii "0123456789abcdef").idxOf = Positionals.numeral 16 16 n := by
  rw [hex16_eq_numeral, List.map_map]
  exact (List.map_congr_left fun d hd =>
    idxOf_hexDigit (Positionals.numeral_lt (by decide) d hd)).trans (List.map_id _)

theorem hex16_inj {m n : ℕ} (hm : m < 2 ^ 64) (hn : n < 2 ^ 64) (h : hex16 m = hex16 n) :
    m = n := by
  refine Positionals.numeral_injOn (b := 16) (k := 16) (by omega) (by omega) ?_
  rw [← map_idxOf_hex16, h, map_idxOf_hex16]

theorem snprintfId_inj {nonce nonce' next next' : UInt64}
    (h : snprintfId nonce next = snprintfId nonce' next') : nonce = nonce' ∧ next = next' := by
  rw [snprintfId_eq, snprintfId_eq, generateRequestId, generateRequestId] at h
  obtain ⟨hnonce, hnext⟩ := List.append_inj h (by rw [hex16_length, hex16_length])
  exact ⟨UInt64.toNat_inj.mp (hex16_inj nonce.toNat_lt nonce'.toNat_lt hnonce),
    UInt64.toNat_inj.mp (hex16_inj next.toNat_lt next'.toNat_lt hnext)⟩

structure WellFormed (id : Bytes) : Prop where
  length : id.length = 32
  digits : ∀ c ∈ id, c ∈ ascii "0123456789abcdef"
  request : isValidRequestId id
  safe : isSafeRequestId id
  event : isLowercaseHex id

theorem hexDigit_mem (n : ℕ) : hexDigit n ∈ ascii "0123456789abcdef" := by
  have hall : ∀ i < 16, hexDigit i ∈ ascii "0123456789abcdef" := by decide
  have hmod : hexDigit n = hexDigit (n % 16) := by rw [hexDigit, hexDigit, Nat.mod_mod]
  rw [hmod]
  exact hall _ (Nat.mod_lt n (by decide))

theorem wellFormed_id (nonce next : UInt64) : WellFormed (snprintfId nonce next) := by
  rw [snprintfId_eq]
  refine ⟨by simp [generateRequestId, hex16_length], ?_, isValidRequestId_generate _ _, ?_,
    RedirectEvents.isLowercaseHex_id _ _⟩
  · intro c hc
    rcases List.mem_append.mp hc with hc | hc
    · obtain ⟨i, -, rfl⟩ := List.mem_map.mp hc
      exact hexDigit_mem _
    · obtain ⟨i, -, rfl⟩ := List.mem_map.mp hc
      exact hexDigit_mem _
  · exact isValidRequestId_generate _ _

/-- One call of generateAccessEventId that nothing comes between draws and returns like this. -/
theorem generateAccessEventId_steps {A L : Type} {api : ShortLinkHttpApi A L} {nonce : UInt64}
    (hnonce : api.eventNonce = nonce.toNat) {s : ServerState A L} {counter : State Bytes}
    (hsequence : s.eventSequence = counter.sequence.toNat) :
    ∃ counter' id, Run (Generates nonce) counter [.fetchAdd, .finish (counter.sequence + 1)]
        counter' ∧ counter'.results = counter.results ++ [id] ∧
      (generateAccessEventId api).run s =
        (.ok id, { s with eventSequence := counter'.sequence.toNat }) := by
  have hnext : (counter.sequence + 1).toNat = (s.eventSequence + 1) % 2 ^ 64 := by
    rw [UInt64.toNat_add, ← hsequence]
    rfl
  refine ⟨_, snprintfId nonce (counter.sequence + 1), .cons (.cons .start (.finish _ _
    (Multiset.mem_cons_self _ _))) (.fetchAdd counter), rfl, ?_⟩
  rw [snprintfId_eq, generateRequestId, hnext, ← hnonce]
  rfl

/-- Fewer than 2 ^ 64 calls from any threads return different well-formed identifiers, and another
process with another nonce returns none of them. -/
theorem generated_distinct {nonce : UInt64} {events : List Event} {s : State Bytes}
    (h : Run (Generates nonce) initial events s) (hcalls : calls events < 2 ^ 64) :
    s.results.Nodup ∧ s.results.length + s.inFlight.card = calls events ∧
    (∀ id ∈ s.results, WellFormed id) ∧
    ∀ nonce' events' s', nonce' ≠ nonce → Run (Generates nonce') initial events' s' →
      ∀ id ∈ s'.results, id ∉ s.results := by
  refine ⟨results_nodup h hcalls fun m n hmn => (snprintfId_inj hmn).2, results_length h, ?_, ?_⟩
  · intro id hid
    obtain ⟨next, rfl⟩ := mem_results h hid
    exact wellFormed_id nonce next
  · intro nonce' events' s' hne h' id hid' hid
    obtain ⟨next', hnext'⟩ := mem_results h' hid'
    obtain ⟨next, hnext⟩ := mem_results h hid
    exact hne (snprintfId_inj (hnext'.symm.trans hnext)).1

/-- Two calls, of which the second to draw returns first. -/
def demoEvents : List Event := [.fetchAdd, .fetchAdd, .finish 2, .finish 1]

def demoState : State Bytes :=
  ⟨2, ((2 ::ₘ 1 ::ₘ 0).erase 2).erase 1, [snprintfId 7 2, snprintfId 7 1]⟩

theorem demoRun : Run (Generates 7) initial demoEvents demoState :=
  .cons (.cons (.cons (.cons .start (.finish ⟨2, (2 ::ₘ 1 ::ₘ 0).erase 2, [snprintfId 7 2]⟩ 1
    (by decide))) (.finish ⟨2, 2 ::ₘ 1 ::ₘ 0, []⟩ 2 (by decide))) (.fetchAdd ⟨1, 1 ::ₘ 0, []⟩))
    (.fetchAdd initial)

theorem demoOther : Run (Generates 8) initial [.fetchAdd, .finish 1]
    ⟨1, (1 ::ₘ 0 : Multiset UInt64).erase 1, [snprintfId 8 1]⟩ :=
  .cons (.cons .start (.finish ⟨1, 1 ::ₘ 0, []⟩ 1 (by decide))) (.fetchAdd initial)

theorem generated_distinct_two : demoState.results.Nodup ∧
    demoState.results.length + demoState.inFlight.card = calls demoEvents ∧
    WellFormed (snprintfId 7 2) ∧ snprintfId 8 1 ∉ demoState.results := by
  obtain ⟨hnodup, hlength, hformed, hother⟩ := generated_distinct demoRun (by decide)
  exact ⟨hnodup, hlength, hformed _ List.mem_cons_self,
    hother 8 _ _ (by decide) demoOther _ List.mem_cons_self⟩

end GeneratedIds
