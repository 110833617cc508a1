import HaoShortLink.ShortLinkExpositions

/-! What a scrape reads of the application's metrics while calls record beside it: each counter as
it was at a moment of the render. -/
namespace ShortLinkScrapes

open Cpp Histories ShortLinkCounters ShortLinkExpositions
open Expositions (valuesOf seriesOf)

def raises (x : Cell) : Event → Bool
  | .record r => r.cell = x
  | _ => false

def setsSize : Event → Option UInt64
  | .setAccessEventQueueSize size => some size
  | _ => none

/-- The counter is what the calls before a moment made it. -/
def counterAfter (before : List Event) (x : Cell) : UInt64 :=
  UInt64.ofNat (before.countP (raises x))

def sizeAfter (before : List Event) : UInt64 := (lastWrite setsSize before).getD 0

/-- So it was at a moment that was not before the render. -/
def AtSomeTime (events : List Event) (began : ℕ) (P : List Event → Prop) : Prop :=
  ∃ before, before <+: events ∧ began ≤ before.length ∧ P before

def Loaded (events : List Event) (began : ℕ) (loaded : List UInt64) : Prop :=
  ∀ (i : ℕ) (v : UInt64) (row : Row), loaded[i]? = some v → rows[i]? = some row →
    AtSomeTime events began fun before => v = counterAfter before row.cell

structure Inv (events : List Event) (s : State) : Prop where
  counters : ∀ x, s.metrics.counters x = counterAfter events x
  size : s.metrics.accessEventQueueSize = sizeAfter events
  happened : s.happened = events.length
  renders : ∀ r ∈ s.renders, r.began ≤ events.length ∧ r.loaded.length ≤ rows.length ∧
    Loaded events r.began r.loaded
  rendered : ∀ out ∈ s.rendered, out.loaded.length = rows.length ∧
    Loaded events out.began out.loaded ∧
    AtSomeTime events out.began fun before => out.accessEventQueueSize = sizeAfter before

variable {events : List Event} {s s' : State} {e : Event}

theorem AtSomeTime.snoc {began : ℕ} {P : List Event → Prop} (h : AtSomeTime events began P)
    (e : Event) : AtSomeTime (events ++ [e]) began P := by
  obtain ⟨before, hbefore, hbegan, hP⟩ := h
  exact ⟨before, hbefore.trans (List.prefix_append _ _), hbegan, hP⟩

theorem Loaded.snoc {began : ℕ} {loaded : List UInt64} (h : Loaded events began loaded)
    (e : Event) : Loaded (events ++ [e]) began loaded :=
  fun i v row hv hrow => (h i v row hv hrow).snoc e

theorem Inv.renders_snoc (h : Inv events s) (e : Event) : ∀ r ∈ s.renders,
    r.began ≤ (events ++ [e]).length ∧ r.loaded.length ≤ rows.length ∧
      Loaded (events ++ [e]) r.began r.loaded := by
  intro r hr
  obtain ⟨hbegan, hlength, hloaded⟩ := h.renders r hr
  exact ⟨by simp; omega, hlength, hloaded.snoc e⟩

theorem Inv.rendered_snoc (h : Inv events s) (e : Event) : ∀ out ∈ s.rendered,
    out.loaded.length = rows.length ∧ Loaded (events ++ [e]) out.began out.loaded ∧
      AtSomeTime (events ++ [e]) out.began fun before =>
        out.accessEventQueueSize = sizeAfter before := by
  intro out hout
  obtain ⟨hlength, hloaded, hsize⟩ := h.rendered out hout
  exact ⟨hlength, hloaded.snoc e, hsize.snoc e⟩

theorem counterAfter_snoc (events : List Event) (e : Event) (x : Cell) :
    counterAfter (events ++ [e]) x =
      counterAfter events x + if raises x e then 1 else 0 := by
  rw [counterAfter, counterAfter, List.countP_append, List.countP_singleton, UInt64.ofNat_add]
  split_ifs <;> rfl

theorem counterAfter_quiet (events : List Event) {x : Cell} (h : raises x e = false) :
    counterAfter (events ++ [e]) x = counterAfter events x := by
  rw [counterAfter_snoc, h]
  simp

theorem sizeAfter_quiet (events : List Event) (h : setsSize e = none) :
    sizeAfter (events ++ [e]) = sizeAfter events := by
  rw [sizeAfter, lastWrite_snoc, h, Option.none_or, sizeAfter]

theorem Loaded.load {began : ℕ} {loaded : List UInt64} {row : Row} {x : UInt64} (e : Event)
    (h : Loaded events began loaded) (hbegan : began ≤ events.length)
    (hrow : rows[loaded.length]? = some row) (hx : x = counterAfter events row.cell) :
    Loaded (events ++ [e]) began (loaded ++ [x]) := by
  intro i v row' hv hrow'
  rcases lt_trichotomy i loaded.length with hlt | rfl | hgt
  · rw [List.getElem?_append_left hlt] at hv
    exact (h i v row' hv hrow').snoc e
  · rw [List.getElem?_concat_length] at hv
    obtain rfl := Option.some.inj hv
    obtain rfl := Option.some.inj (hrow.symm.trans hrow')
    exact ⟨events, List.prefix_append _ _, hbegan, hx⟩
  · rw [List.getElem?_eq_none (by simp; omega)] at hv
    cases hv

theorem Inv.load {rest : Multiset Render} {r : Render} (h : Inv events s)
    (hrenders : s.renders = r ::ₘ rest) :
    Inv (events ++ [.step r]) (load { s with happened := s.happened + 1 } rest r) := by
  have hcounters : ∀ x, s.metrics.counters x = counterAfter (events ++ [.step r]) x := fun x =>
    (h.counters x).trans (counterAfter_quiet events rfl).symm
  have hsize : s.metrics.accessEventQueueSize = sizeAfter (events ++ [.step r]) :=
    h.size.trans (sizeAfter_quiet events rfl).symm
  have hhappened : s.happened + 1 = (events ++ [Event.step r]).length := by
    rw [List.length_append, h.happened]
    rfl
  have hall := h.renders_snoc (.step r)
  rw [hrenders, Multiset.forall_mem_cons] at hall
  obtain ⟨hbegan, hlength, hloaded⟩ := h.renders r (hrenders ▸ Multiset.mem_cons_self r rest)
  rw [ShortLinkCounters.load]
  cases hrow : rows[r.loaded.length]? with
  | some row =>
    refine ⟨hcounters, hsize, hhappened, ?_, h.rendered_snoc _⟩
    rw [Multiset.forall_mem_cons]
    refine ⟨⟨by simp; omega, ?_, ?_⟩, hall.2⟩
    · have hlt := (List.getElem?_eq_some_iff.mp hrow).1
      rwa [List.length_append, List.length_singleton]
    · exact hloaded.load _ hbegan hrow (h.counters _)
  | none =>
    refine ⟨hcounters, hsize, hhappened, hall.2, ?_⟩
    intro out hout
    rcases List.mem_append.mp hout with hout | hout
    · exact h.rendered_snoc _ out hout
    · obtain rfl := List.mem_singleton.mp hout
      refine ⟨Nat.le_antisymm hlength (List.getElem?_eq_none_iff.mp hrow), hloaded.snoc _, ?_⟩
      exact ⟨events, List.prefix_append _ _, hbegan, h.size⟩

theorem Inv.step (h : Step s e s') (hs : Inv events s) : Inv (events ++ [e]) s' := by
  have hhappened : s.happened + 1 = (events ++ [e]).length := by
    rw [List.length_append, hs.happened]
    rfl
  cases e with
  | record r =>
    obtain rfl := Option.some.inj h
    refine ⟨?_, ?_, hhappened, hs.renders_snoc _, hs.rendered_snoc _⟩
    · intro x
      rw [counterAfter_snoc, ← hs.counters]
      by_cases hx : x = r.cell
      · subst hx
        simp [ShortLinkMetrics.record, raises]
      · simp [ShortLinkMetrics.record, raises, hx, Ne.symm hx]
    · exact hs.size.trans (sizeAfter_quiet events rfl).symm
  | setAccessEventQueueSize size =>
    obtain rfl := Option.some.inj h
    refine ⟨?_, ?_, hhappened, hs.renders_snoc _, hs.rendered_snoc _⟩
    · exact fun x => (hs.counters x).trans (counterAfter_quiet events rfl).symm
    · rw [sizeAfter, lastWrite_snoc]
      rfl
  | render =>
    obtain rfl := Option.some.inj h
    refine ⟨?_, ?_, hhappened, ?_, hs.rendered_snoc _⟩
    · exact fun x => (hs.counters x).trans (counterAfter_quiet events rfl).symm
    · exact hs.size.trans (sizeAfter_quiet events rfl).symm
    · rw [Multiset.forall_mem_cons]
      refine ⟨⟨?_, Nat.zero_le _, ?_⟩, hs.renders_snoc _⟩
      · simp [hs.happened]
      · intro i v row hv
        cases hv
  | step r =>
    rw [Step, next, advance_eq_some] at h
    obtain ⟨rest, hrenders, h⟩ := h
    obtain rfl := Option.some.inj h
    exact hs.load hrenders

theorem Inv.run (h : Run Step initial events s) : Inv events s := by
  induction h with
  | start => exact ⟨fun _ => rfl, rfl, rfl, by simp [initial], by simp [initial]⟩
  | snoc _ hlast ih => exact ih.step hlast

theorem counterAfter_cell (before : List Event) (r : Record) :
    counterAfter before r.cell = UInt64.ofNat (before.count (.record r)) := by
  rw [counterAfter, List.count]
  congr 1
  apply List.countP_congr
  intro e _
  cases e with
  | record r' => simp [raises, cell_injective.eq_iff]
  | _ => simp [raises]

theorem load_row {out : Scrape} (hlength : out.loaded.length = rows.length) {row : Row}
    (h : row ∈ rows) :
    ∃ i : ℕ, rows[i]? = some row ∧ out.loaded[i]? = some (out.load row.cell) := by
  have hfind : rows.findIdx (fun row' => row'.cell = row.cell) < rows.length := by
    rw [List.findIdx_lt_length]
    exact ⟨row, h, by simp⟩
  have hcell : rows[rows.findIdx fun row' => row'.cell = row.cell].cell = row.cell := by
    simpa using List.findIdx_getElem (w := hfind)
  have hrow := List.inj_on_of_nodup_map rows_cells_nodup (List.getElem_mem hfind) h hcell
  refine ⟨_, List.getElem?_eq_some_iff.mpr ⟨hfind, hrow⟩, ?_⟩
  rw [Scrape.load, List.getD_eq_getElem?_getD, List.getElem?_eq_getElem (by omega),
    Option.getD_some]

/-- Each scrape shows of each call that it prints how often it was made before some moment of the
render, and of the queue its size at such a moment; nothing else is in the text. -/
theorem scrapes_show_moments {out : Scrape} (h : Run Step initial events s)
    (hout : out ∈ s.rendered) : ∃ lines, Expositions.read out.text = some lines ∧
      (seriesOf lines).Nodup ∧
      (∀ series, series ∈ seriesOf lines ↔
        series = queueSeries ∨ ∃ r, visible r ∧ recordSeries r = series) ∧
      (∀ r, visible r → AtSomeTime events out.began fun before =>
        valuesOf (recordSeries r) lines = [toDecimal (before.count (.record r) % 2 ^ 64)]) ∧
      AtSomeTime events out.began fun before =>
        valuesOf queueSeries lines = [toDecimal (sizeAfter before).toNat] := by
  obtain ⟨hlength, hloaded, before, hbefore, hbegan, hsize⟩ := (Inv.run h).rendered out hout
  refine ⟨linesOf out.load out.accessEventQueueSize, ?_, ?_, ?_, ?_, before, hbefore, hbegan, ?_⟩
  · rw [Scrape.text, renderPrometheus_eq]
    exact Expositions.read_write (lines_wellFormed _ _)
  · rw [seriesOf_linesOf]
    exact rows_nodup
  · intro series
    rw [seriesOf_linesOf, rows_eq, List.map_map]
    simp only [List.mem_append, List.mem_map, List.mem_singleton, mem_printed,
      Function.comp_apply, or_comm]
  · intro r hr
    have hrow : ⟨recordSeries r, r.cell⟩ ∈ rows := by
      rw [rows_eq]
      exact List.mem_map_of_mem (f := fun r => Row.mk (recordSeries r) r.cell)
        ((mem_printed r).mpr hr)
    obtain ⟨i, hi, hv⟩ := load_row hlength hrow
    obtain ⟨before, hbefore, hbegan, hvalue⟩ := hloaded i _ _ hv hi
    refine ⟨before, hbefore, hbegan, ?_⟩
    rw [valuesOf_row _ _ hrow, hvalue, counterAfter_cell, UInt64.toNat_ofNat']
  · rw [valuesOf_queue, hsize]

def demoLoaded : List UInt64 := (List.replicate 45 0).set 37 1

/-- One call of the rate limiter, a render, and another call when that has loaded 40 counters. -/
def demoEvents : List Event :=
  [.record (.rateLimit .allowed), .render] ++
  (List.range 40).map (fun i => .step ⟨demoLoaded.take i, 1⟩) ++
  [.record (.rateLimit .allowed), .setAccessEventQueueSize 3] ++
  (List.range 6).map fun i => .step ⟨demoLoaded.take (40 + i), 1⟩

def demoScrape : Scrape := ⟨demoLoaded, 3, 1⟩

theorem scrapes_show_moments_demo : ∃ lines, Expositions.read demoScrape.text = some lines ∧
    AtSomeTime demoEvents 1 fun before =>
      valuesOf (recordSeries (.rateLimit .allowed)) lines =
        [toDecimal (before.count (.record (.rateLimit .allowed)) % 2 ^ 64)] := by
  have hview : (demoEvents.foldlM next initial).map State.rendered = some [demoScrape] := by
    decide +kernel
  obtain ⟨s, hs, hrendered⟩ := Option.map_eq_some_iff.mp hview
  have hout : demoScrape ∈ s.rendered := by
    rw [hrendered]
    exact List.mem_singleton_self _
  obtain ⟨lines, hread, -, -, hvalues, -⟩ := scrapes_show_moments (Run.of_foldlM hs) hout
  exact ⟨lines, hread, hvalues _ rfl⟩

end ShortLinkScrapes
