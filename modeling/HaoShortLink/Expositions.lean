import HaoShortLink.Cpp

/-! The text in which metrics are exposed (version 0.0.4): a reader that takes it byte by byte, and
the lines that it gets back from what was written. -/
namespace Expositions

open Cpp

structure Series where
  name : Bytes
  labels : List (Bytes × Bytes)
  deriving DecidableEq, Repr

inductive Line where
  /-- What follows the number sign. -/
  | comment (text : Bytes)
  | sample (series : Series) (value : Bytes)
  deriving DecidableEq, Repr

def isLabelByte (c : UInt8) : Bool := isAlnum c || c == 95
def isNameByte (c : UInt8) : Bool := isLabelByte c || c == 58

def isName (allowed : UInt8 → Bool) : Bytes → Bool
  | [] => false
  | c :: name => !isDigit c && allowed c && name.all allowed

def Line.WellFormed : Line → Prop
  | .comment text => 10 ∉ text
  | .sample series value => isName isNameByte series.name ∧
      (∀ label ∈ series.labels, isName isLabelByte label.1) ∧ value ≠ [] ∧ 10 ∉ value ∧ 32 ∉ value

def escapeByte (c : UInt8) : Bytes :=
  if c = 92 then [92, 92] else if c = 34 then [92, 34] else if c = 10 then [92, 110] else [c]

def writeLabel (label : Bytes × Bytes) : Bytes :=
  label.1 ++ 61 :: 34 :: (label.2.flatMap escapeByte ++ [34])

def writeLabels : List (Bytes × Bytes) → Bytes
  | [] => []
  | label :: labels => 123 :: (writeLabel label ++ labels.flatMap (44 :: writeLabel ·) ++ [125])

def Line.write : Line → Bytes
  | .comment text => 35 :: (text ++ [10])
  | .sample series value => series.name ++ writeLabels series.labels ++ 32 :: (value ++ [10])

inductive Mode where
  | start
  | comment (text : Bytes)
  | name (name : Bytes)
  | label (series : Series) (name : Bytes)
  | quote (series : Series) (name : Bytes)
  | text (series : Series) (name value : Bytes)
  | escape (series : Series) (name value : Bytes)
  | next (series : Series)
  | space (series : Series)
  | value (series : Series) (value : Bytes)
  deriving DecidableEq, Repr

structure Reader where
  mode : Mode
  lines : List Line
  deriving DecidableEq, Repr

def step (s : Reader) (c : UInt8) : Option Reader :=
  match s.mode with
  | .start =>
    if c = 35 then some { s with mode := .comment [] }
    else if c = 10 then some s
    else if isName isNameByte [c] then some { s with mode := .name [c] }
    else none
  | .comment text =>
    if c = 10 then some ⟨.start, s.lines ++ [.comment text]⟩
    else some { s with mode := .comment (text ++ [c]) }
  | .name name =>
    if isNameByte c then some { s with mode := .name (name ++ [c]) }
    else if c = 123 then some { s with mode := .label ⟨name, []⟩ [] }
    else if c = 32 then some { s with mode := .value ⟨name, []⟩ [] }
    else none
  | .label series name =>
    if isName isLabelByte (name ++ [c]) then some { s with mode := .label series (name ++ [c]) }
    else if c = 61 ∧ name ≠ [] then some { s with mode := .quote series name }
    else none
  | .quote series name => if c = 34 then some { s with mode := .text series name [] } else none
  | .text series name value =>
    if c = 34 then
      some { s with mode := .next { series with labels := series.labels ++ [(name, value)] } }
    else if c = 92 then some { s with mode := .escape series name value }
    else if c = 10 then none
    else some { s with mode := .text series name (value ++ [c]) }
  | .escape series name value =>
    if c = 92 ∨ c = 34 then some { s with mode := .text series name (value ++ [c]) }
    else if c = 110 then some { s with mode := .text series name (value ++ [10]) }
    else none
  | .next series =>
    if c = 44 then some { s with mode := .label series [] }
    else if c = 125 then some { s with mode := .space series }
    else none
  | .space series => if c = 32 then some { s with mode := .value series [] } else none
  | .value series value =>
    if c = 10 then
      if value = [] then none else some ⟨.start, s.lines ++ [.sample series value]⟩
    else if c = 32 then none
    else some { s with mode := .value series (value ++ [c]) }

def feed (s : Reader) (text : Bytes) : Option Reader := text.foldlM step s

/-- Nothing for a text that is not of this form. -/
def read (text : Bytes) : Option (List Line) :=
  (feed ⟨.start, []⟩ text).bind fun s => if s.mode = .start then some s.lines else none

theorem feed_append (s : Reader) (text text' : Bytes) :
    feed s (text ++ text') = (feed s text).bind (feed · text') := List.foldlM_append

theorem feed_cons {s s' : Reader} {c : UInt8} (h : step s c = some s') (text : Bytes) :
    feed s (c :: text) = feed s' text := by
  rw [feed, List.foldlM_cons, h]
  rfl

theorem feed_append_of {s s' : Reader} {text : Bytes} (h : feed s text = some s') (text' : Bytes) :
    feed s (text ++ text') = feed s' text' := by
  rw [feed_append, h, Option.bind_some]

theorem feed_collect {lines : List Line} (mode : Bytes → Mode) {text : Bytes}
    (h : ∀ before c after, text = before ++ c :: after →
      step ⟨mode before, lines⟩ c = some ⟨mode (before ++ [c]), lines⟩) :
    feed ⟨mode [], lines⟩ text = some ⟨mode text, lines⟩ := by
  suffices hfeed : ∀ before after, text = before ++ after →
      feed ⟨mode before, lines⟩ after = some ⟨mode text, lines⟩ from hfeed [] text rfl
  intro before after htext
  induction after generalizing before with
  | nil =>
    rw [htext, List.append_nil]
    rfl
  | cons c after ih =>
    rw [feed_cons (h before c after htext)]
    apply ih
    rw [htext, List.append_assoc, List.singleton_append]

theorem isName_append {allowed : UInt8 → Bool} {before : Bytes} (after : Bytes)
    (h : isName allowed (before ++ after)) (hbefore : before ≠ []) : isName allowed before := by
  cases before with
  | nil => exact absurd rfl hbefore
  | cons c before =>
    rw [List.cons_append, isName, List.all_append, ← Bool.and_assoc] at h
    exact (Bool.and_eq_true_iff.mp h).1

theorem isName_all {allowed : UInt8 → Bool} {name : Bytes} (h : isName allowed name) :
    ∀ c ∈ name, allowed c := by
  cases name with
  | nil => cases h
  | cons c name =>
    simp only [isName, Bool.and_eq_true, List.all_eq_true] at h
    intro d hd
    rcases List.mem_cons.mp hd with rfl | hd
    · exact h.1.2
    · exact h.2 d hd

variable {lines : List Line} {series : Series}

theorem feed_comment {text : Bytes} (h : 10 ∉ text) :
    feed ⟨.start, lines⟩ (Line.comment text).write = some ⟨.start, lines ++ [.comment text]⟩ := by
  have hcollect : feed ⟨.comment [], lines⟩ text = some ⟨.comment text, lines⟩ := by
    refine feed_collect .comment ?_
    rintro before c after rfl
    have hc : c ≠ 10 := by
      rintro rfl
      exact h (by simp)
    simp [step, hc]
  have hstart : step ⟨.start, lines⟩ 35 = some ⟨.comment [], lines⟩ := by simp [step]
  rw [Line.write, feed_cons hstart, feed_append_of hcollect]
  simp [feed, step]

theorem feed_name {name : Bytes} (h : isName isNameByte name) :
    feed ⟨.start, lines⟩ name = some ⟨.name name, lines⟩ := by
  cases name with
  | nil => cases h
  | cons c name =>
    have hfirst : isName isNameByte [c] := isName_append name h (by simp)
    have hc : c ≠ 35 ∧ c ≠ 10 := by
      constructor <;> rintro rfl <;> exact absurd hfirst (by decide)
    have hstep : step ⟨.start, lines⟩ c = some ⟨.name [c], lines⟩ := by
      simp [step, hc, hfirst]
    rw [feed_cons hstep]
    refine feed_collect (fun text => .name (c :: text)) ?_
    rintro before d after rfl
    have hd : isNameByte d := isName_all h d (by simp)
    simp [step, hd]

theorem feed_labelName {name : Bytes} (h : isName isLabelByte name) :
    feed ⟨.label series [], lines⟩ name = some ⟨.label series name, lines⟩ := by
  refine feed_collect (.label series) ?_
  rintro before c after rfl
  have hprefix : isName isLabelByte (before ++ [c]) := by
    refine isName_append after ?_ (by simp)
    rwa [List.append_assoc, List.singleton_append]
  simp [step, hprefix]

theorem feed_escapeByte (name value : Bytes) (c : UInt8) :
    feed ⟨.text series name value, lines⟩ (escapeByte c) =
      some ⟨.text series name (value ++ [c]), lines⟩ := by
  rw [escapeByte]
  split_ifs with hbackslash hquote hnewline
  · simp [feed, step, hbackslash]
  · simp [feed, step, hquote]
  · simp [feed, step, hnewline]
  · simp [feed, step, hbackslash, hquote, hnewline]

theorem feed_escaped (name before value : Bytes) :
    feed ⟨.text series name before, lines⟩ (value.flatMap escapeByte) =
      some ⟨.text series name (before ++ value), lines⟩ := by
  induction value generalizing before with
  | nil => simp [feed]
  | cons c value ih =>
    rw [List.flatMap_cons, feed_append_of (feed_escapeByte name before c), ih, List.append_assoc,
      List.singleton_append]

theorem feed_label {label : Bytes × Bytes} (h : isName isLabelByte label.1) :
    feed ⟨.label series [], lines⟩ (writeLabel label) =
      some ⟨.next { series with labels := series.labels ++ [label] }, lines⟩ := by
  have hname : label.1 ≠ [] := by
    intro hnil
    rw [hnil] at h
    cases h
  have hequals : isName isLabelByte (label.1 ++ [61]) = false := by
    rw [Bool.eq_false_iff]
    intro hall
    exact absurd (isName_all hall 61 (by simp)) (by decide)
  have hsign : step ⟨.label series label.1, lines⟩ 61 = some ⟨.quote series label.1, lines⟩ := by
    simp [step, hequals, hname]
  have hquote : step ⟨.quote series label.1, lines⟩ 34 =
      some ⟨.text series label.1 [], lines⟩ := by simp [step]
  rw [writeLabel, feed_append_of (feed_labelName h), feed_cons hsign, feed_cons hquote,
    feed_append_of (feed_escaped ..)]
  simp [feed, step]

theorem feed_moreLabels {labels : List (Bytes × Bytes)}
    (h : ∀ label ∈ labels, isName isLabelByte label.1) :
    feed ⟨.next series, lines⟩ (labels.flatMap (44 :: writeLabel ·)) =
      some ⟨.next { series with labels := series.labels ++ labels }, lines⟩ := by
  induction labels generalizing series with
  | nil => simp [feed]
  | cons label labels ih =>
    have hcomma : step ⟨.next series, lines⟩ 44 = some ⟨.label series [], lines⟩ := by simp [step]
    rw [List.flatMap_cons, List.cons_append, feed_cons hcomma,
      feed_append_of (feed_label (h label List.mem_cons_self)),
      ih fun label' hlabel => h label' (List.mem_cons_of_mem _ hlabel)]
    simp

theorem feed_value {value : Bytes} (hvalue : value ≠ []) (hnewline : 10 ∉ value)
    (hspace : 32 ∉ value) :
    feed ⟨.value series [], lines⟩ (value ++ [10]) =
      some ⟨.start, lines ++ [.sample series value]⟩ := by
  have hcollect : feed ⟨.value series [], lines⟩ value = some ⟨.value series value, lines⟩ := by
    refine feed_collect (.value series) ?_
    rintro before c after rfl
    have hc : c ≠ 10 ∧ c ≠ 32 := by
      constructor <;> rintro rfl
      · exact hnewline (by simp)
      · exact hspace (by simp)
    simp [step, hc]
  rw [feed_append_of hcollect]
  simp [feed, step, hvalue]

theorem feed_write {line : Line} (h : line.WellFormed) :
    feed ⟨.start, lines⟩ line.write = some ⟨.start, lines ++ [line]⟩ := by
  cases line with
  | comment text => exact feed_comment h
  | sample series value =>
    obtain ⟨hname, hlabels, hvalue, hnewline, hspace⟩ := h
    obtain ⟨name, labels⟩ := series
    rw [Line.write, List.append_assoc, feed_append_of (feed_name hname)]
    cases labels with
    | nil =>
      have hstep : step ⟨.name name, lines⟩ 32 = some ⟨.value ⟨name, []⟩ [], lines⟩ := by
        simp [step, show isNameByte 32 = false by decide]
      rw [writeLabels, List.nil_append, feed_cons hstep]
      exact feed_value hvalue hnewline hspace
    | cons label labels =>
      obtain ⟨hlabel, hlabels⟩ := List.forall_mem_cons.mp hlabels
      have hopen : step ⟨.name name, lines⟩ 123 = some ⟨.label ⟨name, []⟩ [], lines⟩ := by
        simp [step, show isNameByte 123 = false by decide]
      have hclose : step ⟨.next ⟨name, label :: labels⟩, lines⟩ 125 =
          some ⟨.space ⟨name, label :: labels⟩, lines⟩ := by simp [step]
      have hblank : step ⟨.space ⟨name, label :: labels⟩, lines⟩ 32 =
          some ⟨.value ⟨name, label :: labels⟩ [], lines⟩ := by simp [step]
      rw [writeLabels, List.cons_append, feed_cons hopen, List.append_assoc, List.append_assoc,
        feed_append_of (feed_label hlabel), feed_append_of (feed_moreLabels hlabels),
        List.singleton_append]
      simp only [List.nil_append, List.singleton_append]
      rw [feed_cons hclose, feed_cons hblank]
      exact feed_value hvalue hnewline hspace

theorem read_write {lines : List Line} (h : ∀ line ∈ lines, line.WellFormed) :
    read (lines.flatMap Line.write) = some lines := by
  have hfeed : ∀ before, feed ⟨.start, before⟩ (lines.flatMap Line.write) =
      some ⟨.start, before ++ lines⟩ := by
    induction lines with
    | nil => simp [feed]
    | cons line lines ih =>
      obtain ⟨hline, hlines⟩ := List.forall_mem_cons.mp h
      intro before
      rw [List.flatMap_cons, feed_append_of (feed_write hline), ih hlines, List.append_assoc,
        List.singleton_append]
  rw [read, hfeed []]
  simp

def valuesOf (series : Series) (lines : List Line) : List Bytes :=
  lines.filterMap fun
    | .sample series' value => if series' = series then some value else none
    | .comment _ => none

def seriesOf (lines : List Line) : List Series :=
  lines.filterMap fun
    | .sample series _ => some series
    | .comment _ => none

theorem seriesOf_append (lines lines' : List Line) :
    seriesOf (lines ++ lines') = seriesOf lines ++ seriesOf lines' := List.filterMap_append ..

theorem seriesOf_flatMap {A : Type} (f : A → List Line) (l : List A) :
    seriesOf (l.flatMap f) = l.flatMap fun a => seriesOf (f a) := List.filterMap_flatMap ..

theorem seriesOf_samples {A : Type} (series : A → Series) (value : A → Bytes) (l : List A) :
    seriesOf (l.map fun a => .sample (series a) (value a)) = l.map series := by
  induction l with
  | nil => rfl
  | cons a l ih => exact congrArg (series a :: ·) ih

theorem valuesOf_eq_singleton {lines : List Line} {value : Bytes} (h : (seriesOf lines).Nodup)
    (hmem : .sample series value ∈ lines) : valuesOf series lines = [value] := by
  induction lines with
  | nil => cases hmem
  | cons line lines ih =>
    cases line with
    | comment text =>
      have hmem : .sample series value ∈ lines := by simpa using hmem
      exact ih h hmem
    | sample series' value' =>
      have hnodup : (series' :: seriesOf lines).Nodup := h
      obtain ⟨hnot, hrest⟩ := List.nodup_cons.mp hnodup
      have hother : ∀ v, .sample series' v ∉ lines := by
        intro v hv
        exact hnot (List.mem_filterMap.mpr ⟨_, hv, rfl⟩)
      rcases List.mem_cons.mp hmem with heq | hmem
      · obtain ⟨rfl, rfl⟩ := Line.sample.inj heq
        have hnone : valuesOf series lines = [] := by
          rw [valuesOf, List.filterMap_eq_nil_iff]
          rintro (text | ⟨s, v⟩) hline
          · rfl
          · have hne : s ≠ series := by
              rintro rfl
              exact hother v hline
            simp [hne]
        rw [valuesOf, List.filterMap_cons]
        simp only [if_true]
        rw [← valuesOf, hnone]
      · have hne : series' ≠ series := by
          rintro rfl
          exact hother value hmem
        rw [valuesOf, List.filterMap_cons]
        simp only [if_neg hne]
        exact ih hrest hmem

end Expositions
