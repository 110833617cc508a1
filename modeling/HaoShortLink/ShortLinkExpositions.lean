import HaoShortLink.Decimals
import HaoShortLink.ShortLinkCounters

/-! The text of the application's metrics as a scrape reads it: each record call has a counter of
its own, and each printed counter a series. -/
namespace ShortLinkExpositions

open Cpp Histories ShortLinks ServerStates ShortLinkCounters
open Expositions (Line Series valuesOf seriesOf isName isNameByte isLabelByte writeLabel writeLabels
  escapeByte)

theorem index_injective {n i i' j j' : ℕ} (hj : j < n) (hj' : j' < n)
    (h : i * n + j = i' * n + j') : i = i' ∧ j = j' := by
  have hi : i = i' := by
    have hdiv := congrArg (· / n) h
    simpa [Nat.mul_comm _ n, Nat.mul_add_div (Nat.zero_lt_of_lt hj), Nat.div_eq_of_lt hj,
      Nat.div_eq_of_lt hj'] using hdiv
  subst hi
  exact ⟨rfl, Nat.add_left_cancel h⟩

def labelTables : List (List Bytes) :=
  [kStorageLabels, kCreateResultLabels, kRedirectSourceLabels, kRedirectResultLabels,
    kCacheOperationLabels, kCacheResultLabels, kBackendLabels, kBackendOperationLabels,
    kRateLimitResultLabels, kAccessEventEnqueueResultLabels, kAccessEventDeliveryResultLabels]

/-- The enumerators have indices of their own, within the labels. -/
structure Indexes {A : Type} (index : A → ℕ) (labels : List Bytes) : Prop where
  injective : Function.Injective index
  lt : ∀ a, index a < labels.length
  table : labels ∈ labelTables

theorem indexes_of_enumerators {A : Type} {index : A → ℕ} {labels : List Bytes}
    (enumerators : List A) (hat : ∀ a, enumerators[index a]? = some a)
    (hlength : enumerators.length = labels.length) (htable : labels ∈ labelTables) :
    Indexes index labels := by
  refine ⟨?_, ?_, htable⟩
  · intro a b h
    exact Option.some.inj ((hat a).symm.trans (h ▸ hat b))
  · intro a
    obtain ⟨hlt, _⟩ := List.getElem?_eq_some_iff.mp (hat a)
    exact hlength ▸ hlt

theorem storageIndex_indexes : Indexes storageIndex kStorageLabels :=
  indexes_of_enumerators [.memory, .mysql] (fun a => by cases a <;> rfl) rfl (by simp [labelTables])

theorem createResultIndex_indexes : Indexes createResultIndex kCreateResultLabels :=
  indexes_of_enumerators [.success, .invalid, .error] (fun a => by cases a <;> rfl) rfl
    (by simp [labelTables])

theorem redirectSourceIndex_indexes : Indexes redirectSourceIndex kRedirectSourceLabels :=
  indexes_of_enumerators [.memory, .mysql, .redis] (fun a => by cases a <;> rfl) rfl
    (by simp [labelTables])

theorem redirectResultIndex_indexes : Indexes redirectResultIndex kRedirectResultLabels :=
  indexes_of_enumerators
    [.success, .notFound, .disabled, .expired, .error]
    (fun a => by cases a <;> rfl) rfl (by simp [labelTables])

theorem cacheOperationIndex_indexes : Indexes cacheOperationIndex kCacheOperationLabels :=
  indexes_of_enumerators [.get, .set, .delete] (fun a => by cases a <;> rfl) rfl
    (by simp [labelTables])

theorem cacheResultIndex_indexes : Indexes cacheResultIndex kCacheResultLabels :=
  indexes_of_enumerators [.hit, .miss, .success, .error] (fun a => by cases a <;> rfl) rfl
    (by simp [labelTables])

theorem backendIndex_indexes : Indexes backendIndex kBackendLabels :=
  indexes_of_enumerators [.mysql, .redis] (fun a => by cases a <;> rfl) rfl (by simp [labelTables])

theorem backendOperationIndex_indexes : Indexes backendOperationIndex kBackendOperationLabels :=
  indexes_of_enumerators
    [.create, .find, .list, .update, .statistics, .get, .set, .delete, .rateLimit]
    (fun a => by cases a <;> rfl) rfl (by simp [labelTables])

theorem rateLimitResultIndex_indexes : Indexes rateLimitResultIndex kRateLimitResultLabels :=
  indexes_of_enumerators [.allowed, .limited, .error] (fun a => by cases a <;> rfl) rfl
    (by simp [labelTables])

theorem accessEventEnqueueResultIndex_indexes :
    Indexes accessEventEnqueueResultIndex kAccessEventEnqueueResultLabels :=
  indexes_of_enumerators [.accepted, .queueFull, .error] (fun a => by cases a <;> rfl) rfl
    (by simp [labelTables])

theorem accessEventDeliveryResultIndex_indexes :
    Indexes accessEventDeliveryResultIndex kAccessEventDeliveryResultLabels :=
  indexes_of_enumerators [.success, .failure] (fun a => by cases a <;> rfl) rfl
    (by simp [labelTables])

theorem cell_inBounds (r : Record) : r.cell.InBounds := by
  cases r with
  | create result storage => cases storage <;> cases result <;> decide
  | redirect result source => cases source <;> cases result <;> decide
  | cache operation result => cases operation <;> cases result <;> decide
  | backendError backend operation => cases backend <;> cases operation <;> decide
  | rateLimit result | accessEventEnqueue result | accessEventDelivery result =>
    cases result <;> decide

theorem cell_injective : Function.Injective Record.cell := by
  intro r r' h
  cases r with
  | create result storage =>
    cases r' with
    | create result' storage' =>
      obtain ⟨hs, hr⟩ := index_injective (createResultIndex_indexes.lt result)
        (createResultIndex_indexes.lt result') (Cell.createCounters.inj h)
      rw [storageIndex_indexes.injective hs, createResultIndex_indexes.injective hr]
    | _ => cases h
  | redirect result source =>
    cases r' with
    | redirect result' source' =>
      obtain ⟨hs, hr⟩ := index_injective (redirectResultIndex_indexes.lt result)
        (redirectResultIndex_indexes.lt result') (Cell.redirectCounters.inj h)
      rw [redirectSourceIndex_indexes.injective hs, redirectResultIndex_indexes.injective hr]
    | _ => cases h
  | cache operation result =>
    cases r' with
    | cache operation' result' =>
      obtain ⟨ho, hr⟩ := index_injective (cacheResultIndex_indexes.lt result)
        (cacheResultIndex_indexes.lt result') (Cell.cacheCounters.inj h)
      rw [cacheOperationIndex_indexes.injective ho, cacheResultIndex_indexes.injective hr]
    | _ => cases h
  | backendError backend operation =>
    cases r' with
    | backendError backend' operation' =>
      obtain ⟨hb, ho⟩ := index_injective (backendOperationIndex_indexes.lt operation)
        (backendOperationIndex_indexes.lt operation') (Cell.backendErrorCounters.inj h)
      rw [backendIndex_indexes.injective hb, backendOperationIndex_indexes.injective ho]
    | _ => cases h
  | rateLimit result =>
    cases r' with
    | rateLimit result' =>
      rw [rateLimitResultIndex_indexes.injective (Cell.rateLimitCounters.inj h)]
    | _ => cases h
  | accessEventEnqueue result =>
    cases r' with
    | accessEventEnqueue result' =>
      rw [accessEventEnqueueResultIndex_indexes.injective (Cell.accessEventEnqueueCounters.inj h)]
    | _ => cases h
  | accessEventDelivery result =>
    cases r' with
    | accessEventDelivery result' =>
      rw [accessEventDeliveryResultIndex_indexes.injective
        (Cell.accessEventDeliveryCounters.inj h)]
    | _ => cases h

def recordSeries : Record → Series
  | .create result storage => ⟨ascii "haohttp_shortlink_create_total",
      [(ascii "result", kCreateResultLabels.getD (createResultIndex result) []),
        (ascii "storage", kStorageLabels.getD (storageIndex storage) [])]⟩
  | .redirect result source => ⟨ascii "haohttp_shortlink_redirect_total",
      [(ascii "result", kRedirectResultLabels.getD (redirectResultIndex result) []),
        (ascii "source", kRedirectSourceLabels.getD (redirectSourceIndex source) [])]⟩
  | .cache operation result => ⟨ascii "haohttp_shortlink_cache_operations_total",
      [(ascii "operation", kCacheOperationLabels.getD (cacheOperationIndex operation) []),
        (ascii "result", kCacheResultLabels.getD (cacheResultIndex result) [])]⟩
  | .backendError backend operation => ⟨ascii "haohttp_shortlink_backend_errors_total",
      [(ascii "backend", kBackendLabels.getD (backendIndex backend) []),
        (ascii "operation", kBackendOperationLabels.getD (backendOperationIndex operation) [])]⟩
  | .rateLimit result => ⟨ascii "haohttp_shortlink_rate_limit_checks_total",
      [(ascii "result", kRateLimitResultLabels.getD (rateLimitResultIndex result) [])]⟩
  | .accessEventEnqueue result => ⟨ascii "haohttp_shortlink_access_event_enqueue_total",
      [(ascii "result",
        kAccessEventEnqueueResultLabels.getD (accessEventEnqueueResultIndex result) [])]⟩
  | .accessEventDelivery result => ⟨ascii "haohttp_shortlink_access_event_delivery_total",
      [(ascii "result",
        kAccessEventDeliveryResultLabels.getD (accessEventDeliveryResultIndex result) [])]⟩

def queueSeries : Series := ⟨ascii "haohttp_shortlink_access_event_queue_size", []⟩

/-- The cache results and backend operations that belong together; only these are printed. -/
def visible : Record → Bool
  | .cache operation result => validCache (cacheOperationIndex operation) (cacheResultIndex result)
  | .backendError backend operation =>
    validBackend (backendIndex backend) (backendOperationIndex operation)
  | _ => true

def printed : List Record :=
  [Storage.memory, .mysql].flatMap (fun storage =>
    [CreateResult.success, .invalid, .error].map (.create · storage)) ++
  [LookupSource.memory, .mysql, .redis].flatMap (fun source =>
    [RedirectResult.success, .notFound, .disabled, .expired, .error].map (.redirect · source)) ++
  [CacheResult.hit, .miss, .error].map (.cache .get) ++
  [CacheOperation.set, .delete].flatMap (fun operation =>
    [CacheResult.success, .error].map (.cache operation)) ++
  [BackendOperation.create, .find, .list, .update, .statistics].map (.backendError .mysql) ++
  [BackendOperation.get, .set, .delete, .rateLimit].map (.backendError .redis) ++
  [RateLimitStatus.allowed, .limited, .error].map .rateLimit ++
  [AccessEventEnqueueResult.accepted, .queueFull, .error].map .accessEventEnqueue ++
  [AccessEventDeliveryResult.success, .failure].map .accessEventDelivery

theorem printed_nodup : printed.Nodup := by decide +kernel

theorem mem_printed (r : Record) : r ∈ printed ↔ visible r := by
  cases r with
  | create result storage => cases storage <;> cases result <;> decide
  | redirect result source => cases source <;> cases result <;> decide
  | cache operation result => cases operation <;> cases result <;> decide
  | backendError backend operation => cases backend <;> cases operation <;> decide
  | rateLimit result | accessEventEnqueue result | accessEventDelivery result =>
    cases result <;> decide

theorem rows_eq : rows = printed.map fun r => ⟨recordSeries r, r.cell⟩ := rfl

theorem rows_cells_nodup : (rows.map Row.cell).Nodup := by
  rw [rows_eq, List.map_map]
  exact List.Nodup.map cell_injective printed_nodup

def printedAsIs (value : Bytes) : Bool := value.flatMap escapeByte = value

/-- No label is there twice, and each is printed as it is. -/
def Readable (labels : List Bytes) : Prop := labels.Nodup ∧ ∀ label ∈ labels, printedAsIs label

instance (labels : List Bytes) : Decidable (Readable labels) :=
  inferInstanceAs (Decidable (_ ∧ _))

theorem getD_injective {labels : List Bytes} (h : labels.Nodup) {i j : ℕ} (hi : i < labels.length)
    (hj : j < labels.length) (heq : labels.getD i [] = labels.getD j []) : i = j := by
  rw [List.getD_eq_getElem?_getD, List.getD_eq_getElem?_getD, List.getElem?_eq_getElem hi,
    List.getElem?_eq_getElem hj] at heq
  exact h.getElem_inj_iff.mp heq

theorem Readable.getD_printed {labels : List Bytes} (h : Readable labels) (i : ℕ) :
    printedAsIs (labels.getD i []) := by
  rw [List.getD_eq_getElem?_getD]
  cases hi : labels[i]? with
  | none => rfl
  | some label => exact h.2 label (List.mem_of_getElem? hi)

def names : List Bytes := families.map fun f => ascii f.name

def labelNames : List String := ["result", "storage", "source", "operation", "backend"]

/-- What is to be seen from the texts: the names have different lengths, and no comment has a
newline. -/
theorem texts_checked : (∀ labels ∈ labelTables, Readable labels) ∧
    (names.map List.length).Nodup ∧
    (∀ name ∈ names ++ [queueSeries.name], isName isNameByte name = true) ∧
    (∀ name ∈ labelNames, isName isLabelByte (ascii name) = true) ∧
    (∀ f ∈ families, 10 ∉ ascii f.name ++ ascii f.help ++ ascii "counter") ∧
    10 ∉ ascii "haohttp_shortlink_access_event_queue_size" ++
      ascii "Kafka access events awaiting delivery." ++ ascii "gauge" := by
  decide +kernel

theorem Indexes.readable {A : Type} {index : A → ℕ} {labels : List Bytes}
    (h : Indexes index labels) : Readable labels :=
  texts_checked.1 labels h.table

theorem Indexes.label_injective {A : Type} {index : A → ℕ} {labels : List Bytes}
    (h : Indexes index labels) {a b : A}
    (heq : labels.getD (index a) [] = labels.getD (index b) []) : a = b :=
  h.injective (getD_injective h.readable.1 (h.lt a) (h.lt b) heq)

theorem names_nodup : names.Nodup := List.Nodup.of_map List.length texts_checked.2.1

theorem names_valid : ∀ name ∈ names ++ [queueSeries.name], isName isNameByte name = true :=
  texts_checked.2.2.1

def place : Record → ℕ
  | .create _ _ => 0
  | .redirect _ _ => 1
  | .cache _ _ => 2
  | .backendError _ _ => 3
  | .rateLimit _ => 4
  | .accessEventEnqueue _ => 5
  | .accessEventDelivery _ => 6

theorem place_lt (r : Record) : place r < names.length := by
  cases r <;> simp [names, families, place]

theorem recordSeries_name (r : Record) : (recordSeries r).name = names.getD (place r) [] := by
  cases r <;> simp [recordSeries, names, families, place]

theorem recordSeries_injective : Function.Injective recordSeries := by
  intro r r' h
  have hlabels := congrArg Series.labels h
  have hplace : place r = place r' := by
    have hname := congrArg Series.name h
    rw [recordSeries_name, recordSeries_name] at hname
    exact getD_injective names_nodup (place_lt r) (place_lt r') hname
  cases r with
  | create result storage =>
    cases r' with
    | create result' storage' =>
      simp only [recordSeries, List.cons.injEq, Prod.mk.injEq, true_and, and_true] at hlabels
      rw [createResultIndex_indexes.label_injective hlabels.1,
        storageIndex_indexes.label_injective hlabels.2]
    | _ => cases hplace
  | redirect result source =>
    cases r' with
    | redirect result' source' =>
      simp only [recordSeries, List.cons.injEq, Prod.mk.injEq, true_and, and_true] at hlabels
      rw [redirectResultIndex_indexes.label_injective hlabels.1,
        redirectSourceIndex_indexes.label_injective hlabels.2]
    | _ => cases hplace
  | cache operation result =>
    cases r' with
    | cache operation' result' =>
      simp only [recordSeries, List.cons.injEq, Prod.mk.injEq, true_and, and_true] at hlabels
      rw [cacheOperationIndex_indexes.label_injective hlabels.1,
        cacheResultIndex_indexes.label_injective hlabels.2]
    | _ => cases hplace
  | backendError backend operation =>
    cases r' with
    | backendError backend' operation' =>
      simp only [recordSeries, List.cons.injEq, Prod.mk.injEq, true_and, and_true] at hlabels
      rw [backendIndex_indexes.label_injective hlabels.1,
        backendOperationIndex_indexes.label_injective hlabels.2]
    | _ => cases hplace
  | rateLimit result =>
    cases r' with
    | rateLimit result' =>
      simp only [recordSeries, List.cons.injEq, Prod.mk.injEq, true_and, and_true] at hlabels
      rw [rateLimitResultIndex_indexes.label_injective hlabels]
    | _ => cases hplace
  | accessEventEnqueue result =>
    cases r' with
    | accessEventEnqueue result' =>
      simp only [recordSeries, List.cons.injEq, Prod.mk.injEq, true_and, and_true] at hlabels
      rw [accessEventEnqueueResultIndex_indexes.label_injective hlabels]
    | _ => cases hplace
  | accessEventDelivery result =>
    cases r' with
    | accessEventDelivery result' =>
      simp only [recordSeries, List.cons.injEq, Prod.mk.injEq, true_and, and_true] at hlabels
      rw [accessEventDeliveryResultIndex_indexes.label_injective hlabels]
    | _ => cases hplace

theorem forall_mem_pair {A : Type} {P : A → Prop} {a b : A} (h : P a ∧ P b) :
    ∀ x ∈ [a, b], P x := by
  simpa using h

theorem recordSeries_labels (r : Record) : (recordSeries r).labels ≠ [] ∧
    ∀ label ∈ (recordSeries r).labels,
      isName isLabelByte label.1 = true ∧ label.2.flatMap escapeByte = label.2 := by
  have hnames : ∀ name ∈ ["result", "storage", "source", "operation", "backend"],
      isName isLabelByte (ascii name) = true := texts_checked.2.2.2.1
  have hprinted : ∀ {labels : List Bytes}, Readable labels → ∀ i,
      (labels.getD i []).flatMap escapeByte = labels.getD i [] := fun h i => by
    simpa [printedAsIs] using h.getD_printed i
  simp only [List.forall_mem_cons, List.not_mem_nil, false_implies, implies_true, and_true]
    at hnames
  obtain ⟨hresult, hstorage, hsource, hoperation, hbackend⟩ := hnames
  cases r with
  | create result storage =>
    refine ⟨List.cons_ne_nil _ _, forall_mem_pair ⟨⟨hresult, ?_⟩, hstorage, ?_⟩⟩
    · exact hprinted createResultIndex_indexes.readable _
    · exact hprinted storageIndex_indexes.readable _
  | redirect result source =>
    refine ⟨List.cons_ne_nil _ _, forall_mem_pair ⟨⟨hresult, ?_⟩, hsource, ?_⟩⟩
    · exact hprinted redirectResultIndex_indexes.readable _
    · exact hprinted redirectSourceIndex_indexes.readable _
  | cache operation result =>
    refine ⟨List.cons_ne_nil _ _, forall_mem_pair ⟨⟨hoperation, ?_⟩, hresult, ?_⟩⟩
    · exact hprinted cacheOperationIndex_indexes.readable _
    · exact hprinted cacheResultIndex_indexes.readable _
  | backendError backend operation =>
    refine ⟨List.cons_ne_nil _ _, forall_mem_pair ⟨⟨hbackend, ?_⟩, hoperation, ?_⟩⟩
    · exact hprinted backendIndex_indexes.readable _
    · exact hprinted backendOperationIndex_indexes.readable _
  | rateLimit result =>
    refine ⟨List.cons_ne_nil _ _, List.forall_mem_singleton.mpr ⟨hresult, ?_⟩⟩
    exact hprinted rateLimitResultIndex_indexes.readable _
  | accessEventEnqueue result =>
    refine ⟨List.cons_ne_nil _ _, List.forall_mem_singleton.mpr ⟨hresult, ?_⟩⟩
    exact hprinted accessEventEnqueueResultIndex_indexes.readable _
  | accessEventDelivery result =>
    refine ⟨List.cons_ne_nil _ _, List.forall_mem_singleton.mpr ⟨hresult, ?_⟩⟩
    exact hprinted accessEventDeliveryResultIndex_indexes.readable _

theorem rows_nodup : (rows.map Row.series ++ [queueSeries]).Nodup := by
  rw [rows_eq, List.map_map, List.nodup_append]
  refine ⟨List.Nodup.map recordSeries_injective printed_nodup, List.nodup_singleton _, ?_⟩
  intro series hseries queue hqueue heq
  obtain ⟨r, -, rfl⟩ := List.mem_map.mp hseries
  obtain rfl := List.mem_singleton.mp hqueue
  exact (recordSeries_labels r).1 (congrArg Series.labels heq)

theorem rows_printable : ∀ row ∈ rows, isName isNameByte row.series.name = true ∧
    row.series.labels ≠ [] ∧ ∀ label ∈ row.series.labels,
      isName isLabelByte label.1 = true ∧ label.2.flatMap escapeByte = label.2 := by
  intro row hrow
  rw [rows_eq] at hrow
  obtain ⟨r, -, rfl⟩ := List.mem_map.mp hrow
  refine ⟨?_, recordSeries_labels r⟩
  rw [recordSeries_name, List.getD_eq_getElem?_getD,
    List.getElem?_eq_getElem (place_lt r)]
  exact names_valid _ (List.mem_append_left _ (List.getElem_mem _))

def sampleOf (load : Cell → UInt64) (row : Row) : Line :=
  .sample row.series (toDecimal (load row.cell).toNat)

def comments (name help kind : String) : List Line :=
  [.comment (ascii " HELP " ++ ascii name ++ ascii " " ++ ascii help),
    .comment (ascii " TYPE " ++ ascii name ++ ascii " " ++ ascii kind)]

def familyLines (load : Cell → UInt64) (f : Family) : List Line :=
  comments f.name f.help "counter" ++ f.rows.map (sampleOf load)

def linesOf (load : Cell → UInt64) (accessEventQueueSize : UInt64) : List Line :=
  families.flatMap (familyLines load) ++
    comments "haohttp_shortlink_access_event_queue_size" "Kafka access events awaiting delivery."
      "gauge" ++
    [.sample queueSeries (toDecimal accessEventQueueSize.toNat)]

theorem printLabels_cons {label : Bytes × Bytes} {labels : List (Bytes × Bytes)}
    (h : ∀ l ∈ label :: labels, l.2.flatMap escapeByte = l.2) :
    printLabels (label :: labels) = writeLabel label ++ labels.flatMap (44 :: writeLabel ·) := by
  have hone : ∀ l ∈ label :: labels, l.1 ++ ascii "=\"" ++ l.2 ++ ascii "\"" = writeLabel l := by
    intro l hl
    rw [writeLabel, h l hl]
    simp [ascii]
  have hmap : ((label :: labels).map fun l => l.1 ++ ascii "=\"" ++ l.2 ++ ascii "\"") =
      (label :: labels).map writeLabel := List.map_congr_left hone
  rw [printLabels, hmap]
  clear hone hmap h
  induction labels generalizing label with
  | nil => simp
  | cons l labels ih =>
    rw [List.map_cons, List.map_cons, List.intersperse_cons_cons, List.flatten_cons,
      List.flatten_cons, ← List.map_cons, ih]
    simp [ascii]

theorem write_sampleOf (load : Cell → UInt64) {row : Row} (h : row ∈ rows) :
    (sampleOf load row).write = printRow row (load row.cell) := by
  obtain ⟨-, hlabels, hprintable⟩ := rows_printable row h
  rw [sampleOf, Line.write, printRow]
  obtain ⟨⟨name, labels⟩, cell⟩ := row
  cases labels with
  | nil => exact absurd rfl hlabels
  | cons label labels =>
    rw [writeLabels, printLabels_cons fun l hl => (hprintable l hl).2]
    simp [ascii]

theorem write_comments (name help kind : String) :
    (comments name help kind).flatMap Line.write = header name help kind := by
  simp [comments, header, Line.write, ascii]

theorem write_familyLines (load : Cell → UInt64) {f : Family} (h : f ∈ families) :
    (familyLines load f).flatMap Line.write = printFamily load f := by
  rw [familyLines, List.flatMap_append, write_comments, List.flatMap_map, printFamily]
  congr 1
  apply List.flatMap_congr
  intro row hrow
  exact write_sampleOf load (List.mem_flatMap.mpr ⟨f, h, hrow⟩)

theorem write_queueSample (size : Bytes) : (Line.sample queueSeries size).write =
    ascii "haohttp_shortlink_access_event_queue_size " ++ size ++ ascii "\n" := by
  have hname : ascii "haohttp_shortlink_access_event_queue_size " =
      ascii "haohttp_shortlink_access_event_queue_size" ++ [32] := by decide +kernel
  rw [hname]
  simp [Line.write, queueSeries, writeLabels, ascii]

theorem renderPrometheus_eq (load : Cell → UInt64) (accessEventQueueSize : UInt64) :
    renderPrometheus load accessEventQueueSize =
      (linesOf load accessEventQueueSize).flatMap Line.write := by
  have hfamilies : (families.flatMap (familyLines load)).flatMap Line.write =
      families.flatMap (printFamily load) := by
    rw [List.flatMap_assoc]
    exact List.flatMap_congr fun f hf => write_familyLines load hf
  rw [linesOf, List.flatMap_append, List.flatMap_append, hfamilies, write_comments,
    List.flatMap_singleton, write_queueSample, renderPrometheus]
  simp only [List.append_assoc]

theorem toDecimal_printable (n : ℕ) : toDecimal n ≠ [] ∧ 10 ∉ toDecimal n ∧ 32 ∉ toDecimal n := by
  refine ⟨Decimals.toDecimal_ne_nil _, ?_, ?_⟩
  · intro h
    exact absurd (Decimals.toDecimal_isDigit _ 10 h) (by decide)
  · intro h
    exact absurd (Decimals.toDecimal_isDigit _ 32 h) (by decide)

theorem comments_wellFormed {name help kind : String}
    (h : 10 ∉ ascii name ++ ascii help ++ ascii kind) :
    ∀ line ∈ comments name help kind, line.WellFormed := by
  simp only [ascii, List.mem_append, not_or] at h
  simp only [comments, List.forall_mem_cons, List.not_mem_nil, false_implies, implies_true,
    and_true, Line.WellFormed, List.mem_append, not_or]
  simp only [ascii]
  simp [h]

theorem lines_wellFormed (load : Cell → UInt64) (accessEventQueueSize : UInt64) :
    ∀ line ∈ linesOf load accessEventQueueSize, line.WellFormed := by
  intro line hline
  simp only [linesOf, List.mem_append, List.mem_flatMap, List.mem_singleton] at hline
  rcases hline with (⟨f, hf, hline⟩ | hline) | rfl
  · rcases List.mem_append.mp hline with hline | hline
    · exact comments_wellFormed (texts_checked.2.2.2.2.1 f hf) line hline
    · obtain ⟨row, hrow, rfl⟩ := List.mem_map.mp hline
      obtain ⟨hname, -, hlabels⟩ := rows_printable row (List.mem_flatMap.mpr ⟨f, hf, hrow⟩)
      exact ⟨hname, fun label hlabel => (hlabels label hlabel).1, toDecimal_printable _⟩
  · exact comments_wellFormed texts_checked.2.2.2.2.2 line hline
  · exact ⟨names_valid _ (by simp), by simp [queueSeries], toDecimal_printable _⟩

theorem seriesOf_linesOf (load : Cell → UInt64) (accessEventQueueSize : UInt64) :
    seriesOf (linesOf load accessEventQueueSize) = rows.map Row.series ++ [queueSeries] := by
  have hcomments : ∀ name help kind, seriesOf (comments name help kind) = [] := fun _ _ _ => rfl
  have hfamily : ∀ f, seriesOf (familyLines load f) = f.rows.map Row.series := by
    intro f
    rw [familyLines, Expositions.seriesOf_append, hcomments, List.nil_append]
    exact Expositions.seriesOf_samples ..
  rw [linesOf, Expositions.seriesOf_append, Expositions.seriesOf_append, hcomments,
    List.append_nil, Expositions.seriesOf_flatMap, rows, List.map_flatMap]
  simp only [hfamily]
  rfl

theorem valuesOf_row (load : Cell → UInt64) (accessEventQueueSize : UInt64) {row : Row}
    (h : row ∈ rows) : valuesOf row.series (linesOf load accessEventQueueSize) =
      [toDecimal (load row.cell).toNat] := by
  obtain ⟨f, hf, hrow⟩ := List.mem_flatMap.mp h
  apply Expositions.valuesOf_eq_singleton
  · rw [seriesOf_linesOf]
    exact rows_nodup
  · simp only [linesOf, List.mem_append, List.mem_flatMap]
    exact .inl (.inl ⟨f, hf,
      List.mem_append_right _ (List.mem_map_of_mem (f := sampleOf load) hrow)⟩)

theorem valuesOf_queue (load : Cell → UInt64) (accessEventQueueSize : UInt64) :
    valuesOf queueSeries (linesOf load accessEventQueueSize) =
      [toDecimal accessEventQueueSize.toNat] := by
  apply Expositions.valuesOf_eq_singleton
  · rw [seriesOf_linesOf]
    exact rows_nodup
  · simp [linesOf]

end ShortLinkExpositions
