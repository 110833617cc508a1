import HaoShortLink.Decimals
import HaoShortLink.Expositions
import HaoShortLink.HttpRenders

/-! The text of the HTTP metrics as a scrape reads it. -/
namespace HttpExpositions

open Cpp Histories HttpMetrics HttpHistograms HttpScrapes HttpAccounts HttpRenders Ledgers
open Expositions
open HttpRequests (Method)
open scoped UInt64.CommRing

def metricLabels (m : RouteMetrics) : List (Bytes × Bytes) :=
  [(ascii "method", m.method), (ascii "route", m.route)]

def statusSeries (m : RouteMetrics) (label : Bytes) : Series :=
  ⟨ascii "haohttp_http_requests_total", metricLabels m ++ [(ascii "status_class", label)]⟩

def bucketSeries (m : RouteMetrics) (label : Bytes) : Series :=
  ⟨ascii "haohttp_http_request_duration_seconds_bucket", metricLabels m ++ [(ascii "le", label)]⟩

def sumSeries (m : RouteMetrics) : Series :=
  ⟨ascii "haohttp_http_request_duration_seconds_sum", metricLabels m⟩

def countSeries (m : RouteMetrics) : Series :=
  ⟨ascii "haohttp_http_request_duration_seconds_count", metricLabels m⟩

def count (n : UInt64) : Bytes := toDecimal n.toNat

def statusSamples (entry : RouteMetrics × List UInt64) : List Line :=
  (kStatusClassLabels.zip entry.2).map fun (label, n) =>
    .sample (statusSeries entry.1 label) (count n)

def histogramSamples (formatSeconds : UInt64 → Bytes) (h : Histogram) : List Line :=
  ((kDurationBucketLabels.zip h.buckets).map fun (label, n) =>
      .sample (bucketSeries h.metrics label) (count n)) ++
    [.sample (bucketSeries h.metrics (ascii "+Inf")) (count h.requestCount),
      .sample (sumSeries h.metrics) (formatSeconds h.durationNanoseconds),
      .sample (countSeries h.metrics) (count h.requestCount)]

def requestComments : List Line :=
  [.comment (ascii " HELP haohttp_http_requests_total Total completed HTTP requests."),
    .comment (ascii " TYPE haohttp_http_requests_total counter")]

def durationComments : List Line :=
  [.comment (ascii
      " HELP haohttp_http_request_duration_seconds HTTP request duration in seconds."),
    .comment (ascii " TYPE haohttp_http_request_duration_seconds histogram")]

def linesOf (formatSeconds : UInt64 → Bytes) (scrape : Scrape) : List Line :=
  requestComments ++ scrape.statuses.flatMap statusSamples ++ durationComments ++
    scrape.histograms.flatMap (histogramSamples formatSeconds)

variable {formatSeconds : UInt64 → Bytes}

theorem escapeLabelValue_eq (value : Bytes) :
    escapeLabelValue value = value.flatMap escapeByte := rfl

theorem flatMap_map_write {A : Type} (f : A → Line) (l : List A) :
    (l.map f).flatMap Line.write = l.flatMap fun a => (f a).write := List.flatMap_map ..

theorem write_labelled {name : String} {m : RouteMetrics} {text : String} {label value : Bytes}
    (key : Bytes)
    (htext : ascii text = 44 :: (key ++ [61, 34]))
    (hlabel : label.flatMap escapeByte = label) :
    sample (labelled name m ++ ascii text ++ label ++ ascii "\"") value =
      (Line.sample ⟨ascii name, metricLabels m ++ [(key, label)]⟩ value).write := by
  have hopen : ascii "\x7bmethod=\"" = 123 :: (ascii "method" ++ [61, 34]) := by decide
  have hroute : ascii "\",route=\"" = 34 :: 44 :: (ascii "route" ++ [61, 34]) := by decide
  have hquote : ascii "\"" = [34] := by decide
  have hclose : ascii "\x7d " = [125, 32] := by decide
  rw [sample, labelled, htext, hopen, hroute, hquote, hclose, escapeLabelValue_eq,
    escapeLabelValue_eq]
  simp [Line.write, metricLabels, writeLabels, writeLabel, hlabel]

theorem write_unlabelled (name : String) (m : RouteMetrics) (value : Bytes) :
    sample (labelled name m) value = (Line.sample ⟨ascii name, metricLabels m⟩ value).write := by
  have hopen : ascii "\x7bmethod=\"" = 123 :: (ascii "method" ++ [61, 34]) := by decide
  have hroute : ascii "\",route=\"" = 34 :: 44 :: (ascii "route" ++ [61, 34]) := by decide
  have hquote : ascii "\"" = [34] := by decide
  have hclose : ascii "\x7d " = [125, 32] := by decide
  rw [sample, labelled, hopen, hroute, hquote, hclose, escapeLabelValue_eq, escapeLabelValue_eq]
  simp [Line.write, metricLabels, writeLabels, writeLabel]

theorem statusLabels_plain : ∀ label ∈ kStatusClassLabels, label.flatMap escapeByte = label := by
  decide

theorem bucketLabels_plain : ∀ label ∈ ascii "+Inf" :: kDurationBucketLabels,
    label.flatMap escapeByte = label := by decide

theorem write_statusSamples (entry : RouteMetrics × List UInt64) :
    (statusSamples entry).flatMap Line.write = statusLines entry := by
  rw [statusSamples, flatMap_map_write, statusLines]
  apply List.flatMap_congr
  rintro ⟨label, n⟩ hmem
  exact (write_labelled (ascii "status_class") (by decide)
    (statusLabels_plain label (List.of_mem_zip hmem).1)).symm

theorem write_bucketSample {m : RouteMetrics} {label : Bytes} (n : UInt64)
    (h : label ∈ ascii "+Inf" :: kDurationBucketLabels) :
    (Line.sample (bucketSeries m label) (count n)).write = bucketLine m label n :=
  (write_labelled (ascii "le") (by decide) (bucketLabels_plain label h)).symm

theorem write_histogramSamples (h : Histogram) :
    (histogramSamples formatSeconds h).flatMap Line.write = histogramLines formatSeconds h := by
  have hbuckets : (kDurationBucketLabels.zip h.buckets).flatMap (fun p =>
      (Line.sample (bucketSeries h.metrics p.1) (count p.2)).write) =
      (kDurationBucketLabels.zip h.buckets).flatMap fun p => bucketLine h.metrics p.1 p.2 := by
    apply List.flatMap_congr
    rintro ⟨label, n⟩ hmem
    exact write_bucketSample n (List.mem_cons_of_mem _ (List.of_mem_zip hmem).1)
  rw [histogramSamples, List.flatMap_append, flatMap_map_write, hbuckets, histogramLines,
    write_unlabelled, write_unlabelled, ← write_bucketSample _ List.mem_cons_self]
  simp [sumSeries, countSeries, count]

theorem write_requestComments : requestComments.flatMap Line.write =
    ascii "# HELP haohttp_http_requests_total Total completed HTTP requests.\n" ++
      ascii "# TYPE haohttp_http_requests_total counter\n" := by decide +kernel

theorem write_durationComments : durationComments.flatMap Line.write =
    ascii "# HELP haohttp_http_request_duration_seconds HTTP request duration in seconds.\n" ++
      ascii "# TYPE haohttp_http_request_duration_seconds histogram\n" := by decide +kernel

theorem renderPrometheus_eq (scrape : Scrape) : renderPrometheus formatSeconds scrape =
    (linesOf formatSeconds scrape).flatMap Line.write := by
  have hstatuses : (scrape.statuses.flatMap statusSamples).flatMap Line.write =
      scrape.statuses.flatMap statusLines := by
    rw [List.flatMap_assoc]
    exact List.flatMap_congr fun entry _ => write_statusSamples entry
  have hhistograms : (scrape.histograms.flatMap (histogramSamples formatSeconds)).flatMap
      Line.write = scrape.histograms.flatMap (histogramLines formatSeconds) := by
    rw [List.flatMap_assoc]
    exact List.flatMap_congr fun h _ => write_histogramSamples h
  rw [linesOf, List.flatMap_append, List.flatMap_append, List.flatMap_append, hstatuses,
    hhistograms, write_requestComments, write_durationComments, renderPrometheus]
  simp only [List.append_assoc]

/-- A number in the text: not empty, without blanks. -/
def Printable (value : Bytes) : Prop := value ≠ [] ∧ 10 ∉ value ∧ 32 ∉ value

theorem count_printable (n : UInt64) : Printable (count n) := by
  refine ⟨Decimals.toDecimal_ne_nil _, ?_, ?_⟩
  · intro h
    exact absurd (Decimals.toDecimal_isDigit _ 10 h) (by decide)
  · intro h
    exact absurd (Decimals.toDecimal_isDigit _ 32 h) (by decide)

theorem sample_wellFormed {name : Bytes} {m : RouteMetrics} {more : List (Bytes × Bytes)}
    {value : Bytes} (hname : isName isNameByte name)
    (hmore : ∀ label ∈ more, isName isLabelByte label.1) (hvalue : Printable value) :
    (Line.sample ⟨name, metricLabels m ++ more⟩ value).WellFormed := by
  refine ⟨hname, ?_, hvalue⟩
  intro label hlabel
  rcases List.mem_append.mp hlabel with hlabel | hlabel
  · have hlabels : ∀ l ∈ metricLabels m, isName isLabelByte l.1 := by
      simp only [metricLabels, List.mem_cons, List.not_mem_nil, or_false, forall_eq_or_imp,
        forall_eq]
      decide
    exact hlabels label hlabel
  · exact hmore label hlabel

theorem lines_wellFormed (hformat : ∀ n, Printable (formatSeconds n)) (scrape : Scrape) :
    ∀ line ∈ linesOf formatSeconds scrape, line.WellFormed := by
  have hcomments : ∀ line ∈ requestComments ++ durationComments, line.WellFormed := by
    simp only [requestComments, durationComments, List.cons_append, List.nil_append,
      List.forall_mem_cons, List.not_mem_nil, false_implies, implies_true, and_true,
      Line.WellFormed]
    decide +kernel
  have hsum : ∀ m n, (Line.sample (sumSeries m) (formatSeconds n)).WellFormed := by
    intro m n
    rw [sumSeries, ← List.append_nil (metricLabels m)]
    exact sample_wellFormed (by decide) (by simp) (hformat n)
  have hcount : ∀ m n, (Line.sample (countSeries m) (count n)).WellFormed := by
    intro m n
    rw [countSeries, ← List.append_nil (metricLabels m)]
    exact sample_wellFormed (by decide) (by simp) (count_printable n)
  have hstatus : ∀ m label n, (Line.sample (statusSeries m label) (count n)).WellFormed := by
    intro m label n
    exact sample_wellFormed (by decide) (by simp; decide) (count_printable n)
  have hbucket : ∀ m label n, (Line.sample (bucketSeries m label) (count n)).WellFormed := by
    intro m label n
    exact sample_wellFormed (by decide) (by simp; decide) (count_printable n)
  intro line hline
  simp only [linesOf, List.mem_append, List.mem_flatMap] at hline
  rcases hline with ((hline | ⟨entry, -, hline⟩) | hline) | ⟨h, -, hline⟩
  · exact hcomments line (List.mem_append_left _ hline)
  · obtain ⟨⟨label, n⟩, -, rfl⟩ := List.mem_map.mp hline
    exact hstatus _ _ _
  · exact hcomments line (List.mem_append_right _ hline)
  · rcases List.mem_append.mp hline with hline | hline
    · obtain ⟨⟨label, n⟩, -, rfl⟩ := List.mem_map.mp hline
      exact hbucket _ _ _
    · simp only [List.mem_cons, List.not_mem_nil, or_false] at hline
      rcases hline with rfl | rfl | rfl
      · exact hbucket _ _ _
      · exact hsum _ _
      · exact hcount _ _

theorem seriesOf_zip (series : Bytes → Series) {labels : List Bytes} {numbers : List UInt64}
    (h : labels.length = numbers.length) :
    seriesOf ((labels.zip numbers).map fun p => .sample (series p.1) (count p.2)) =
      labels.map series := by
  have hmap : (labels.zip numbers).map (fun p => series p.1) =
      ((labels.zip numbers).map Prod.fst).map series := by
    rw [List.map_map]
    rfl
  rw [seriesOf_samples (fun p : Bytes × UInt64 => series p.1) fun p => count p.2, hmap,
    List.map_fst_zip h.le]

def statusFamily (m : RouteMetrics) : List Series := kStatusClassLabels.map (statusSeries m)

def durationFamily (m : RouteMetrics) : List Series :=
  kDurationBucketLabels.map (bucketSeries m) ++
    [bucketSeries m (ascii "+Inf"), sumSeries m, countSeries m]

theorem metricLabels_injective {m m' : RouteMetrics} {more more' : List (Bytes × Bytes)}
    (h : metricLabels m ++ more = metricLabels m' ++ more') : m = m' := by
  obtain ⟨method, route⟩ := m
  obtain ⟨method', route'⟩ := m'
  simp only [metricLabels, List.cons_append, List.cons.injEq, Prod.mk.injEq, true_and] at h
  rw [h.1, h.2.1]

theorem family_labels {m : RouteMetrics} {series : Series}
    (h : series ∈ statusFamily m ++ durationFamily m) :
    ∃ more, series.labels = metricLabels m ++ more := by
  simp only [statusFamily, durationFamily, List.mem_append, List.mem_map, List.mem_cons,
    List.not_mem_nil, or_false] at h
  rcases h with ⟨label, -, rfl⟩ | ⟨label, -, rfl⟩ | rfl | rfl | rfl
  · exact ⟨_, rfl⟩
  · exact ⟨_, rfl⟩
  · exact ⟨_, rfl⟩
  · exact ⟨[], (List.append_nil _).symm⟩
  · exact ⟨[], (List.append_nil _).symm⟩

theorem flatMap_family_nodup {family : RouteMetrics → List Series} {routes : List RouteMetrics}
    (hroutes : routes.Nodup) (hfamily : ∀ m, (family m).Nodup)
    (hsub : ∀ m, family m ⊆ statusFamily m ++ durationFamily m) :
    (routes.flatMap family).Nodup := by
  rw [List.nodup_flatMap]
  refine ⟨fun m _ => hfamily m, ?_⟩
  apply hroutes.imp
  intro m m' hne series hseries hseries'
  obtain ⟨more, hlabels⟩ := family_labels (hsub m hseries)
  obtain ⟨more', hlabels'⟩ := family_labels (hsub m' hseries')
  exact hne (metricLabels_injective (hlabels.symm.trans hlabels'))

theorem statusFamily_nodup (m : RouteMetrics) : (statusFamily m).Nodup := by
  apply List.Nodup.map _ (by decide)
  intro label label' h
  simpa [statusSeries] using h

theorem durationFamily_nodup (m : RouteMetrics) : (durationFamily m).Nodup := by
  have hlabels : ((kDurationBucketLabels ++ [ascii "+Inf"]).map (bucketSeries m)).Nodup := by
    apply List.Nodup.map _ (by decide)
    intro label label' h
    simpa [bucketSeries] using h
  have hfamily : durationFamily m =
      (kDurationBucketLabels ++ [ascii "+Inf"]).map (bucketSeries m) ++
        [sumSeries m, countSeries m] := by simp [durationFamily]
  have hnames : ∀ name ∈ [ascii "haohttp_http_request_duration_seconds_sum",
      ascii "haohttp_http_request_duration_seconds_count"],
      name ≠ ascii "haohttp_http_request_duration_seconds_bucket" := by decide
  rw [hfamily, List.nodup_append]
  refine ⟨hlabels, ?_, ?_⟩
  · have hne : sumSeries m ≠ countSeries m := by
      intro h
      exact absurd (congrArg Series.name h) (by simp only [sumSeries, countSeries]; decide)
    simpa using hne
  · intro series hseries series' hseries' heq
    obtain ⟨label, -, rfl⟩ := List.mem_map.mp hseries
    rw [List.mem_pair] at hseries'
    rcases hseries' with rfl | rfl
    · exact hnames _ (by simp [sumSeries]) (congrArg Series.name heq).symm
    · exact hnames _ (by simp [countSeries]) (congrArg Series.name heq).symm

variable {s₀ : State} {P : Cell → UInt64 → Prop} {out : Scrape}

theorem buckets_length (h : Histogram) : h.buckets.length = h.loaded.length :=
  cumulativeCounts_length 0 h.loaded

theorem seriesOf_linesOf (h : Partway s₀ P out []) :
    seriesOf (linesOf formatSeconds out) =
      (out.statuses.map Prod.fst).flatMap statusFamily ++
        (out.statuses.map Prod.fst).flatMap durationFamily := by
  have hstatuses : out.statuses.flatMap (fun entry => seriesOf (statusSamples entry)) =
      (out.statuses.map Prod.fst).flatMap statusFamily := by
    rw [List.flatMap_map]
    apply List.flatMap_congr
    intro entry hentry
    exact seriesOf_zip _ (h.printed.statuses entry hentry).1.symm
  have hhistograms :
      out.histograms.flatMap (fun x => seriesOf (histogramSamples formatSeconds x)) =
        (out.histograms.map Histogram.metrics).flatMap durationFamily := by
    rw [List.flatMap_map]
    apply List.flatMap_congr
    intro x hx
    rw [histogramSamples, seriesOf_append, seriesOf_zip, durationFamily]
    · rfl
    · rw [buckets_length, (h.printed.histograms x hx).1]
      rfl
  have hroutes := h.routes
  rw [List.append_nil] at hroutes
  have hcomments : seriesOf requestComments = [] ∧ seriesOf durationComments = [] := ⟨rfl, rfl⟩
  rw [linesOf, seriesOf_append, seriesOf_append, seriesOf_append, seriesOf_flatMap,
    seriesOf_flatMap, hstatuses, hhistograms, hroutes, hcomments.1, hcomments.2, List.nil_append,
    List.append_nil]

theorem seriesOf_nodup (h : Partway s₀ P out []) :
    (seriesOf (linesOf formatSeconds out)).Nodup := by
  rw [seriesOf_linesOf h, List.nodup_append]
  refine ⟨flatMap_family_nodup h.covers.nodup statusFamily_nodup fun m => by simp,
    flatMap_family_nodup h.covers.nodup durationFamily_nodup fun m => by simp, ?_⟩
  intro series hseries series' hseries' heq
  obtain ⟨m, -, hm⟩ := List.mem_flatMap.mp hseries
  obtain ⟨m', -, hm'⟩ := List.mem_flatMap.mp hseries'
  have hname : series.name = ascii "haohttp_http_requests_total" := by
    obtain ⟨label, -, rfl⟩ := List.mem_map.mp hm
    rfl
  have hname' : series'.name ≠ ascii "haohttp_http_requests_total" := by
    simp only [durationFamily, List.mem_append, List.mem_map, List.mem_cons, List.not_mem_nil,
      or_false] at hm'
    rcases hm' with ⟨label, -, rfl⟩ | rfl | rfl | rfl
    all_goals simp only [bucketSeries, sumSeries, countSeries]; decide
  exact hname' (heq ▸ hname)

end HttpExpositions
