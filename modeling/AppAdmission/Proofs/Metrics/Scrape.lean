import AppAdmission.Proofs.Metrics.Series
import AppAdmission.Proofs.Metrics.TextFormat

/-!
# What a scraper reads

A scraper that reads the series as text finds for each counter, under each pair of labels, the number of
events that were counted there, and for each pair of labels the number of durations that were observed,
whatever characters the labels have. It is told by the names of the labels which of them is which. Labels
that the key in use does not tell apart are read as one.
-/

namespace AppAdmission

open TextFormat (Sample Reads Labelled Numeric)

/-- Labels by name. -/
def MetricLabels.byName (l : MetricLabels) : List (String × String) :=
  [("webhook", l.webhook), ("resource", l.resource)]

namespace TextFormat

/-- A sample has some name and some labels, in any order. -/
def Sample.Under (name : String) (labels : List (String × String)) (s : Sample) : Prop :=
  s.name = name ∧ s.labels.Perm labels

instance (name : String) (labels : List (String × String)) (s : Sample) :
    Decidable (s.Under name labels) :=
  inferInstanceAs (Decidable (_ ∧ _))

/-- The natural number that a sample has for its value. -/
def Sample.count? (s : Sample) : Option Nat :=
  if s.value ≠ [] ∧ s.value.all Text.isDigit then some (Text.decimalValue s.value) else none

/-- The number that samples have under a name and labels: zero if there is no such sample, and none if there
are several. -/
def countIn (samples : List Sample) (name : String) (labels : List (String × String)) : Option Nat :=
  match samples.filter fun s => s.Under name labels with
  | [] => some 0
  | [s] => s.count?
  | _ => none

end TextFormat

open TextFormat (countIn)

/-- Samples agree with the record of events.

* `counts`: under each pair of labels a counter has the number of its events, in one sample at most;
* `only`: every sample of a counter is under a pair of labels for which something was counted;
* `observed`, `top`: a histogram has as many values in all as durations were observed under its labels, and
  as many up to its last bound. -/
structure Agrees (samples : List Sample) (t : Tally) : Prop where
  counts : ∀ (c : Counter) l, countIn samples c.name l.byName = some (t.counts c l)
  only : ∀ (c : Counter), ∀ s ∈ samples, s.name = c.name → ∃ l, s.labels.Perm l.byName ∧ t.counts c l ≠ 0
  observed : ∀ l, countIn samples (Exposition.durationName ++ "_count") l.byName = some (t.durationCount l)
  top : ∀ l, countIn samples (Exposition.durationName ++ "_bucket") (l.byName ++ [("le", "+Inf")]) =
    some (t.durationCount l)

namespace Exposition

/-! ## The samples of a registry -/

/-- The sample of a counter. -/
def countSample (c : Counter) (l : MetricLabels) (n : Nat) : Sample := ⟨c.name, pairs l, natText n⟩

/-- The sample of a bucket. -/
def boundSample (l : MetricLabels) (bound : List Char) (n : Nat) : Sample :=
  ⟨durationName ++ "_bucket", pairs l ++ [("le", String.ofList bound)], natText n⟩

/-- The sample of a sum. -/
def sumSample (l : MetricLabels) (sum : Double) : Sample := ⟨durationName ++ "_sum", pairs l, sumText sum⟩

/-- The sample of the number of values. -/
def sizeSample (l : MetricLabels) (n : Nat) : Sample := ⟨durationName ++ "_count", pairs l, natText n⟩

/-- The samples of a histogram. -/
def durationSamples (s : MetricLabels × Histogram) : List Sample :=
  (Histogram.cumulative 0 s.2.buckets).flatMap (fun b => [boundSample s.1 b.1.plain b.2])
    ++ [boundSample s.1 "+Inf".toList s.2.count]
    ++ [sumSample s.1 s.2.sum]
    ++ [sizeSample s.1 s.2.count]

/-- The counters in the order in which they are shown. -/
def shownCounters : List Counter := [.internalError, .invalidRequest, .rejected, .successful, .total]

/-- The samples of a registry. -/
def samples (r : Registry) : List Sample :=
  (Members.sort r.durations).flatMap durationSamples ++ shownCounters.flatMap fun c =>
    (Members.sort (r.counters c)).flatMap fun s => [countSample c s.1 s.2]

theorem pairs_eq (l : MetricLabels) : pairs l = [("resource", l.resource), ("webhook", l.webhook)] := by
  have before : "resource" < "webhook" := by decide
  simp [pairs, MetricLabels.names, MetricLabels.values, Members.sort, Members.insert, before]

theorem labelled_of_named {name value : String} (named : TextFormat.nameB name.toList = true)
    (noColon : ':' ∉ name.toList) : Labelled (name, value) := ⟨named, noColon⟩

theorem labelled_pairs (l : MetricLabels) : ∀ label ∈ pairs l, Labelled label := by
  rw [pairs_eq]
  intro label there
  rcases List.mem_cons.1 there with rfl | there
  · exact labelled_of_named (by decide) (by decide)
  · rw [List.mem_singleton.1 there]
    exact labelled_of_named (by decide) (by decide)

theorem numeric_sumText {s : Double} (bounded : ∀ x, s = .finite x → x.Bounded) :
    Numeric (sumText s) := by
  match s with
  | .finite x => exact TextFormat.numeric_plain (bounded x rfl)
  | .infinite true => exact ⟨by decide, by simp [sumText, TextFormat.blankB]⟩
  | .infinite false => exact ⟨by decide, by simp [sumText, TextFormat.blankB]⟩
  | .nan => exact ⟨by decide, by simp [sumText, TextFormat.blankB]⟩

/-- A sample with a good name, labels that can be written and a number is read back. -/
theorem reads_sample {name : String} {labels : List (String × String)} {value : List Char}
    (named : TextFormat.nameB name.toList = true) (labelled : ∀ label ∈ labels, Labelled label)
    (numeric : Numeric value) : Reads (sample name labels value) [⟨name, labels, value⟩] := by
  have valid : Sample.Valid ⟨name, labels, value⟩ := ⟨named, labelled, numeric⟩
  exact valid.reads

theorem reads_countSample (c : Counter) (l : MetricLabels) (n : Nat) :
    Reads (sample c.name (pairs l) (natText n)) [countSample c l n] :=
  reads_sample (by cases c <;> decide) (labelled_pairs l) (TextFormat.numeric_natText n)

theorem reads_boundSample (l : MetricLabels) (bound : List Char) (n : Nat) :
    Reads (bucketSample l bound n) [boundSample l bound n] := by
  refine reads_sample (by decide) ?_ (TextFormat.numeric_natText n)
  intro label there
  rcases List.mem_append.1 there with there | last
  · exact labelled_pairs l label there
  · rw [List.mem_singleton.1 last]
    exact labelled_of_named (by decide) (by decide)

theorem reads_histogramSamples (l : MetricLabels) {h : Histogram} (bounded : h.Bounded) :
    Reads (histogramSamples l h) (durationSamples (l, h)) := by
  have buckets : Reads ((Histogram.cumulative 0 h.buckets).flatMap fun b => bucketSample l b.1.plain b.2)
      ((Histogram.cumulative 0 h.buckets).flatMap fun b => [boundSample l b.1.plain b.2]) :=
    .flatMap fun b _ => reads_boundSample l b.1.plain b.2
  have last : Reads _ [boundSample l "+Inf".toList h.count] := reads_boundSample l _ h.count
  have sum : Reads (sample (durationName ++ "_sum") (pairs l) (sumText h.sum)) [sumSample l h.sum] :=
    reads_sample (by decide) (labelled_pairs l) (numeric_sumText bounded.sum)
  have size : Reads (sample (durationName ++ "_count") (pairs l) (natText h.count)) [sizeSample l h.count] :=
    reads_sample (by decide) (labelled_pairs l) (TextFormat.numeric_natText h.count)
  exact ((buckets.append last).append sum).append size

/-- A family is read as the samples of its series. -/
theorem reads_family {α : Type} {name help kind : String} (named : '\n' ∉ name.toList)
    (helped : '\n' ∉ help.toList) (kindred : '\n' ∉ kind.toList) {render : MetricLabels → α → List Char}
    {read : MetricLabels × α → List Sample} {series : List (MetricLabels × α)}
    (h : ∀ s ∈ Members.sort series, Reads (render s.1 s.2) (read s)) :
    Reads (family name help kind render series) ((Members.sort series).flatMap read) := by
  unfold family
  split
  · next none =>
    rw [List.isEmpty_iff.1 none]
    exact .nil
  · exact (TextFormat.reads_header named helped kindred).append (.flatMap h)

theorem reads_counterFamily (r : Registry) (c : Counter) : Reads (counterFamily r c)
    ((Members.sort (r.counters c)).flatMap fun s => [countSample c s.1 s.2]) := by
  have plain : '\n' ∉ c.name.toList ∧ '\n' ∉ c.help.toList := by cases c <;> decide
  exact reads_family plain.1 plain.2 (by decide) fun s _ => reads_countSample c s.1 s.2

theorem reads_render {r : Registry} (bounded : ∀ s ∈ r.durations, s.2.Bounded) :
    Reads (render r).toList (samples r) := by
  have durations : Reads (durationFamily r) ((Members.sort r.durations).flatMap durationSamples) :=
    reads_family (by decide) (by decide) (by decide) fun s there =>
      reads_histogramSamples s.1 (bounded s (Members.mem_of_mem_sort there))
  have counters : Reads (shownCounters.flatMap (counterFamily r)) (shownCounters.flatMap fun c =>
      (Members.sort (r.counters c)).flatMap fun s => [countSample c s.1 s.2]) :=
    .flatMap fun c _ => reads_counterFamily r c
  have text : (render r).toList = durationFamily r ++ shownCounters.flatMap (counterFamily r) := by
    simp [render, shownCounters]
  rw [text]
  exact durations.append counters

/-! ## Finding a sample again -/

/-- The labels of a series are its labels by name. -/
theorem pairs_perm_iff {a l : MetricLabels} : (pairs a).Perm l.byName ↔ a = l := by
  rw [pairs_eq]
  constructor
  · intro same
    have webhook := same.subset (a := ("webhook", a.webhook)) (by simp)
    have resource := same.subset (a := ("resource", a.resource)) (by simp)
    obtain ⟨aw, ar⟩ := a
    obtain ⟨lw, lr⟩ := l
    simp [MetricLabels.byName] at webhook resource
    rw [webhook, resource]
  · rintro rfl
    exact .swap _ _ _

/-- So they are beside the bound of a bucket. -/
theorem pairs_append_perm_iff {a l : MetricLabels} {bound bound' : String} :
    (pairs a ++ [("le", bound)]).Perm (l.byName ++ [("le", bound')]) ↔ a = l ∧ bound = bound' := by
  constructor
  · intro same
    have le := same.subset (a := ("le", bound)) (by simp)
    simp [MetricLabels.byName] at le
    subst le
    exact ⟨pairs_perm_iff.1 ((List.perm_append_right_iff _).1 same), rfl⟩
  · rintro ⟨rfl, rfl⟩
    exact (pairs_perm_iff.2 rfl).append_right _

/-- In series that are in order each of the labels comes once. -/
theorem filter_series {α : Type} {series : List (MetricLabels × α)} (sorted : Members.Sorted series)
    {read : MetricLabels × α → List Sample} {keep : Sample → Bool} {l : MetricLabels} {of : α → Sample}
    (h : ∀ s ∈ series, (read s).filter keep = if s.1 = l then [of s.2] else []) :
    (series.flatMap read).filter keep = ((Members.find? l series).map of).toList := by
  induction series with
  | nil => rfl
  | cons s rest ih =>
    obtain ⟨k, v⟩ := s
    have later := ih (List.pairwise_cons.1 sorted).2 fun s there => h s (List.mem_cons_of_mem _ there)
    rw [List.flatMap_cons, List.filter_append, h (k, v) List.mem_cons_self, later, Members.find?]
    by_cases same : k = l
    · have once : Members.find? l rest = none :=
        Members.find?_eq_none_of_key (same ▸ Members.not_mem_of_sorted sorted)
      simp [same, once]
    · simp [same]

theorem count?_natText {name : String} {labels : List (String × String)} (n : Nat) :
    Sample.count? ⟨name, labels, natText n⟩ = some n := by
  have digits : (natText n).all Text.isDigit = true :=
    List.all_eq_true.2 fun _ there => Number.isDigit_of_mem_toDigits there
  unfold Sample.count?
  rw [if_pos ⟨Nat.toDigits_ne_nil, digits⟩]
  exact congrArg some (Number.decimalValue_toDigits n)

/-- No counter has a name of the samples of a histogram. -/
theorem name_ne_durationName (c : Counter) : c.name ≠ durationName ++ "_bucket" ∧
    c.name ≠ durationName ++ "_sum" ∧ c.name ≠ durationName ++ "_count" := by
  cases c <;> decide

theorem name_of_mem_durationSamples {s : MetricLabels × Histogram} {sample : Sample}
    (there : sample ∈ durationSamples s) (c : Counter) : sample.name ≠ c.name := by
  obtain ⟨bucket, sum, size⟩ := name_ne_durationName c
  simp only [durationSamples, List.mem_append, List.mem_flatMap, List.mem_singleton] at there
  rcases there with ((⟨b, -, rfl⟩ | rfl) | rfl) | rfl
  · exact bucket.symm
  · exact bucket.symm
  · exact sum.symm
  · exact size.symm

theorem counter_eq_of_name {c c' : Counter} (same : c.name = c'.name) : c = c' := by
  revert same
  cases c <;> cases c' <;> decide

/-- Where one element alone has anything, that is all there is. -/
theorem flatMap_of_alone {α β : Type} {f : α → List β} {xs : List α} {x : α} (there : x ∈ xs)
    (once : xs.Nodup) (alone : ∀ y ∈ xs, y ≠ x → f y = []) : xs.flatMap f = f x := by
  induction xs with
  | nil => cases there
  | cons y rest ih =>
    obtain ⟨fresh, once'⟩ := List.nodup_cons.1 once
    rw [List.flatMap_cons]
    rcases List.mem_cons.1 there with rfl | later
    · have none : rest.flatMap f = [] := List.flatMap_eq_nil_iff.2 fun y within =>
        alone y (List.mem_cons_of_mem _ within) fun same => fresh (same ▸ within)
      rw [none, List.append_nil]
    · have other : y ≠ x := fun same => fresh (same ▸ later)
      rw [alone y List.mem_cons_self other, List.nil_append,
        ih later once' fun z within => alone z (List.mem_cons_of_mem _ within)]

variable {r : Registry} {l : MetricLabels}

/-- A counter has one sample under labels that have a series, and none under others. -/
theorem filter_samples_counter (c : Counter) (once : ((r.counters c).map Prod.fst).Nodup) :
    (samples r).filter (fun s => s.Under c.name l.byName) =
      ((Members.find? l (r.counters c)).map (countSample c l)).toList := by
  have durations : ((Members.sort r.durations).flatMap durationSamples).filter
      (fun s => s.Under c.name l.byName) = [] := by
    refine List.filter_eq_nil_iff.2 fun sample there under => ?_
    obtain ⟨s, -, within⟩ := List.mem_flatMap.1 there
    exact name_of_mem_durationSamples within c (of_decide_eq_true under).1
  have own : ((Members.sort (r.counters c)).flatMap fun s => [countSample c s.1 s.2]).filter
      (fun s => s.Under c.name l.byName) =
        ((Members.find? l (Members.sort (r.counters c))).map (countSample c l)).toList := by
    refine filter_series (Members.sorted_sort _) fun (k, n) _ => ?_
    have under : (countSample c k n).Under c.name l.byName ↔ k = l :=
      ⟨fun h => pairs_perm_iff.1 h.2, fun same => ⟨rfl, pairs_perm_iff.2 same⟩⟩
    by_cases same : k = l
    · subst same
      simp [under]
    · simp [under, same]
  have others : ∀ c' ∈ shownCounters, c' ≠ c →
      ((Members.sort (r.counters c')).flatMap fun s => [countSample c' s.1 s.2]).filter
        (fun s => s.Under c.name l.byName) = [] := by
    intro c' _ other
    refine List.filter_eq_nil_iff.2 fun sample there under => other ?_
    obtain ⟨s, -, within⟩ := List.mem_flatMap.1 there
    rw [List.mem_singleton.1 within] at under
    exact counter_eq_of_name (of_decide_eq_true under).1
  have shown : c ∈ shownCounters := by cases c <;> decide
  rw [samples, List.filter_append, durations, List.nil_append, List.filter_flatMap,
    flatMap_of_alone shown (by decide) others, own, Members.find?_sort_of_once once]

/-- Samples that are not named like a counter are those of histograms. -/
theorem filter_samples_durations {name : String} {labels : List (String × String)}
    (other : ∀ c : Counter, c.name ≠ name) (once : (r.durations.map Prod.fst).Nodup)
    {of : Histogram → Sample} (h : ∀ s ∈ r.durations,
      (durationSamples s).filter (fun s => s.Under name labels) = if s.1 = l then [of s.2] else []) :
    (samples r).filter (fun s => s.Under name labels) =
      ((Members.find? l r.durations).map of).toList := by
  have counters : (shownCounters.flatMap fun c => (Members.sort (r.counters c)).flatMap fun s =>
      [countSample c s.1 s.2]).filter (fun s => s.Under name labels) = [] := by
    refine List.filter_eq_nil_iff.2 fun sample there under => ?_
    obtain ⟨c, -, within⟩ := List.mem_flatMap.1 there
    obtain ⟨s, -, within⟩ := List.mem_flatMap.1 within
    rw [List.mem_singleton.1 within] at under
    exact other c (of_decide_eq_true under).1
  rw [samples, List.filter_append, counters, List.append_nil,
    filter_series (Members.sorted_sort _) fun s there => h s (Members.mem_of_mem_sort there),
    Members.find?_sort_of_once once]

/-- No number is written like the last bound. -/
theorem plain_ne_infinite {x : Binary64} (bounded : x.Bounded) : String.ofList x.plain ≠ "+Inf" := by
  intro same
  have plus : '+' ∈ x.plain := by
    have text : x.plain = "+Inf".toList := by rw [← same, String.toList_ofList]
    rw [text]
    decide
  obtain ⟨body, text, positional⟩ := Binary64.plain_positional bounded
  rw [text] at plus
  rcases List.mem_append.1 plus with sign | within
  · revert sign
    cases x.negative <;> decide
  · have decimal := TextFormat.decimal_of_positional positional '+' within
    exact absurd rfl (decimal.ne (d := '+') (by decide) (by decide))

/-- Apart from its buckets a histogram has three samples. -/
theorem filter_durationSamples {k : MetricLabels} {h : Histogram} {keep : Sample → Bool}
    (buckets : ∀ b ∈ h.buckets.map Prod.fst, ∀ n, keep (boundSample k b.plain n) = false) :
    (durationSamples (k, h)).filter keep =
      [boundSample k "+Inf".toList h.count, sumSample k h.sum, sizeSample k h.count].filter keep := by
  have none : ((Histogram.cumulative 0 h.buckets).flatMap fun b =>
      [boundSample k b.1.plain b.2]).filter keep = [] := by
    refine List.filter_eq_nil_iff.2 fun sample there kept => ?_
    obtain ⟨b, within, there⟩ := List.mem_flatMap.1 there
    rw [List.mem_singleton.1 there] at kept
    have bound : b.1 ∈ h.buckets.map Prod.fst :=
      Histogram.bounds_cumulative 0 h.buckets ▸ List.mem_map_of_mem within
    rw [buckets b.1 bound b.2] at kept
    cases kept
  unfold durationSamples
  rw [List.append_assoc, List.append_assoc, List.filter_append, none]
  rfl

/-- A histogram has one sample for the number of its values. -/
theorem filter_samples_size (once : (r.durations.map Prod.fst).Nodup) :
    (samples r).filter (fun s => s.Under (durationName ++ "_count") l.byName) =
      ((Members.find? l r.durations).map fun h => sizeSample l h.count).toList := by
  have apart : durationName ++ "_bucket" ≠ durationName ++ "_count" ∧
      durationName ++ "_sum" ≠ durationName ++ "_count" := by decide
  have bucket {k : MetricLabels} (bound : List Char) (n : Nat) :
      ¬ (boundSample k bound n).Under (durationName ++ "_count") l.byName :=
    fun under => apart.1 under.1
  have sum {k : MetricLabels} (s : Double) : ¬ (sumSample k s).Under (durationName ++ "_count") l.byName :=
    fun under => apart.2 under.1
  refine filter_samples_durations (fun c => (name_ne_durationName c).2.2) once fun (k, h) _ => ?_
  have size : (sizeSample k h.count).Under (durationName ++ "_count") l.byName ↔ k = l :=
    ⟨fun under => pairs_perm_iff.1 under.2, fun same => ⟨rfl, pairs_perm_iff.2 same⟩⟩
  rw [filter_durationSamples fun b _ n => decide_eq_false (bucket b.plain n)]
  by_cases same : k = l
  · subst same
    simp [bucket, sum, size]
  · simp [bucket, sum, size, same]

/-- It has one sample for the values up to its last bound, which no other bound is written as. -/
theorem filter_samples_top (once : (r.durations.map Prod.fst).Nodup)
    (bounded : ∀ s ∈ r.durations, s.2.Bounded) :
    (samples r).filter (fun s => s.Under (durationName ++ "_bucket") (l.byName ++ [("le", "+Inf")])) =
      ((Members.find? l r.durations).map fun h => boundSample l "+Inf".toList h.count).toList := by
  have apart : durationName ++ "_sum" ≠ durationName ++ "_bucket" ∧
      durationName ++ "_count" ≠ durationName ++ "_bucket" := by decide
  have bucket {k : MetricLabels} (bound : List Char) (n : Nat) :
      (boundSample k bound n).Under (durationName ++ "_bucket") (l.byName ++ [("le", "+Inf")]) ↔
        k = l ∧ String.ofList bound = "+Inf" :=
    ⟨fun under => pairs_append_perm_iff.1 under.2, fun same => ⟨rfl, pairs_append_perm_iff.2 same⟩⟩
  have sum {k : MetricLabels} (s : Double) :
      ¬ (sumSample k s).Under (durationName ++ "_bucket") (l.byName ++ [("le", "+Inf")]) :=
    fun under => apart.1 under.1
  have size {k : MetricLabels} (n : Nat) :
      ¬ (sizeSample k n).Under (durationName ++ "_bucket") (l.byName ++ [("le", "+Inf")]) :=
    fun under => apart.2 under.1
  refine filter_samples_durations (fun c => (name_ne_durationName c).1) once fun (k, h) there => ?_
  have others : ∀ b ∈ h.buckets.map Prod.fst, ∀ n,
      ¬ (boundSample k b.plain n).Under (durationName ++ "_bucket") (l.byName ++ [("le", "+Inf")]) :=
    fun b within n under =>
      plain_ne_infinite ((bounded (k, h) there).bounds b within) ((bucket b.plain n).1 under).2
  rw [filter_durationSamples fun b within n => decide_eq_false (others b within n)]
  by_cases same : k = l
  · subst same
    simp [bucket, sum, size]
  · simp [bucket, sum, size, same]

/-! ## Agreement -/

/-- What is found once is read as it is, and what is not found as zero. -/
theorem countIn_of_filter {ss : List Sample} {name : String} {labels : List (String × String)} {α : Type}
    {found : Option α} {of : α → Sample} {count : α → Nat}
    (filtered : ss.filter (fun s => s.Under name labels) = (found.map of).toList)
    (counted : ∀ a, (of a).count? = some (count a)) :
    countIn ss name labels = some ((found.map count).getD 0) := by
  unfold countIn
  rw [filtered]
  cases found with
  | none => rfl
  | some a => exact counted a

variable {among : List MetricLabels} {t : Tally} {κ : Type} {key : List String → κ}

/-- Each sample of a counter is that of a series. -/
theorem exists_of_mem_samples {c : Counter} {sample : Sample} (there : sample ∈ samples r)
    (named : sample.name = c.name) : ∃ s ∈ r.counters c, sample = countSample c s.1 s.2 := by
  rcases List.mem_append.1 there with within | within
  · obtain ⟨s, -, within⟩ := List.mem_flatMap.1 within
    exact absurd named (name_of_mem_durationSamples within c)
  · obtain ⟨c', -, within⟩ := List.mem_flatMap.1 within
    obtain ⟨s, among, within⟩ := List.mem_flatMap.1 within
    rw [List.mem_singleton] at within
    subst within
    obtain rfl := counter_eq_of_name named
    exact ⟨s, Members.mem_of_mem_sort among, rfl⟩

/-- A counter is read as the count of its series, or as zero. -/
theorem countIn_counter (sound : r.Sound key) (c : Counter) (l : MetricLabels) :
    countIn (samples r) c.name l.byName = some (((Members.find? l (r.counters c)).map id).getD 0) :=
  countIn_of_filter (filter_samples_counter c (sound.counters c).once) fun n => count?_natText n

/-- The number of values of a histogram is read as its size, or as zero. -/
theorem countIn_size (sound : r.Sound key) (l : MetricLabels) :
    countIn (samples r) (durationName ++ "_count") l.byName =
      some (((Members.find? l r.durations).map Histogram.count).getD 0) :=
  countIn_of_filter (filter_samples_size sound.durations.once) fun h => count?_natText h.count

/-- Where the series show the record of events, a scraper reads samples that agree with it. -/
theorem agrees_of_shows (sound : r.Sound key) (h : r.Shows among t) : Agrees (samples r) t := by
  refine ⟨?_, ?_, ?_, ?_⟩
  · intro c l
    rw [countIn_counter sound, (h.counters c).found, Option.map_id, id_eq]
    exact congrArg some (t.getD_count? c l)
  · intro c sample there named
    obtain ⟨s, among, rfl⟩ := exists_of_mem_samples there named
    have found := Members.find?_of_mem_once (sound.counters c).once among
    rw [(h.counters c).found] at found
    exact ⟨s.1, pairs_perm_iff.2 rfl, Tally.counts_ne_zero_of_count? found⟩
  · intro l
    rw [countIn_size sound, h.durations.found]
    exact congrArg some (t.getD_count_histogram? l)
  · intro l
    rw [countIn_of_filter (filter_samples_top sound.durations.once sound.bounded)
      fun h => count?_natText h.count, h.durations.found]
    exact congrArg some (t.getD_count_histogram? l)

end Exposition

/-- A scraper that reads the text of the series gets samples that agree with the record of events. -/
def ShownAs (r : Registry) (t : Tally) : Prop :=
  ∃ samples, TextFormat.read? (Exposition.render r).toList = some samples ∧ Agrees samples t

theorem shownAs_of_toldApart {κ : Type} [DecidableEq κ] {key : List String → κ}
    {events : List MetricEvent} (apart : ToldApart key (events.map MetricEvent.labels)) :
    ShownAs (Registry.noteAllBy key {} events) (Tally.noteAll {} events) :=
  have sound := Registry.sound_noteAll key events
  ⟨_, (Exposition.reads_render sound.bounded).read?,
    Exposition.agrees_of_shows sound (Registry.shows_noteAll apart)⟩

/-- **A scraper reads what was recorded.** Whatever is counted and observed, in whichever order and under
whatever labels, durations that are infinite or no numbers at all included, the text that is shown is read
as samples that agree with the record of the same events: each counter under each pair of labels, none of
them twice, and each histogram in its number of values and its last bucket.

This is so of series that are found by any key that no two rows of label values share. Of the key in use,
which is these values run together, it is so for events whose labels do not run together to the same
text. -/
theorem scrape_agrees :
    (∀ {κ : Type} [DecidableEq κ] (key : List String → κ), (∀ vs vs', key vs = key vs' → vs = vs') →
      ∀ events, ShownAs (Registry.noteAllBy key {} events) (Tally.noteAll {} events)) ∧
    ∀ events, ToldApart String.join (events.map MetricEvent.labels) →
      ShownAs (Registry.noteAll {} events) (Tally.noteAll {} events) :=
  ⟨fun _ apart _ => shownAs_of_toldApart (toldApart_of_injective apart _),
    fun _ apart => shownAs_of_toldApart apart⟩

/-- Labels that are alike but for their order, with every character that is escaped, and a duration that is
not a number beside one that is. -/
theorem scrape_agrees_swapped :
    let odd := "a\"\n\\"
    let events := [.increment .total ⟨odd, "b"⟩, .increment .total ⟨"b", odd⟩,
      .increment .total ⟨odd, "b"⟩, .observe ⟨"b", odd⟩ (Binary64.ofNat 3), .observe ⟨"b", odd⟩ .nan]
    ToldApart String.join (events.map MetricEvent.labels) ∧
      (∃ samples,
        TextFormat.read? (Exposition.render (Registry.noteAllBy id {} events)).toList = some samples ∧
        countIn samples Counter.total.name [("webhook", odd), ("resource", "b")] = some 2 ∧
        countIn samples Counter.total.name [("webhook", "b"), ("resource", odd)] = some 1) ∧
      ShownAs (Registry.noteAll {} events) (Tally.noteAll {} events) := by
  refine ⟨by decide, ?_, scrape_agrees.2 _ (by decide)⟩
  obtain ⟨samples, read, agrees⟩ := scrape_agrees.1 id (fun _ _ same => same) _
  exact ⟨samples, read, agrees.counts .total ⟨_, _⟩, agrees.counts .total ⟨_, _⟩⟩

/-- Of the labels that have the key of some labels, one pair stands for all of them in samples. -/
def Stands {κ : Type} (key : List String → κ) (samples : List Sample) (name : String) (l : MetricLabels)
    (n : Nat) : Prop :=
  ∃ shown : MetricLabels, key shown.values = key l.values ∧ countIn samples name shown.byName = some n ∧
    ∀ other : MetricLabels, other ≠ shown → key other.values = key l.values →
      countIn samples name other.byName = some 0

theorem Stands.of_distinct {κ α : Type} {key : List String → κ} [DecidableEq κ]
    {series : List (MetricLabels × α)} (distinct : Family.Distinct key series) {samples : List Sample}
    {name : String} {size : α → Nat} {n : Nat} (read : ∀ l : MetricLabels,
      countIn samples name l.byName = some (((Members.find? l series).map size).getD 0)) (l : MetricLabels)
    (whole : Family.total key size (key l.values) series = n) : Stands key samples name l n := by
  obtain ⟨shown, alike, all, others⟩ := distinct.exists_shown size l
  refine ⟨shown, alike, ?_, fun other apart alike' => ?_⟩
  · rw [read, all, whole]
  · rw [read, others other apart alike']
    rfl

/-- **Labels that run together share a series.** Whatever is counted and observed, a scraper finds under one
pair of labels all that was noted under labels which run together to the same text, and nothing under any
other of these. -/
theorem scrape_shared (events : List MetricEvent) :
    ∃ samples, TextFormat.read? (Exposition.render (Registry.noteAll {} events)).toList = some samples ∧
      (∀ (c : Counter) l, Stands String.join samples c.name l
        (events.countP (·.countsB String.join c (String.join l.values)))) ∧
      ∀ l, Stands String.join samples (Exposition.durationName ++ "_count") l
        (events.countP (·.observesB String.join (String.join l.values))) := by
  have sound := Registry.sound_noteAll String.join events
  refine ⟨_, (Exposition.reads_render sound.bounded).read?, fun c l => ?_, fun l => ?_⟩
  · have whole := Registry.total_counters String.join {} events c (String.join l.values)
    exact .of_distinct (sound.counters c) (Exposition.countIn_counter sound c) l
      (whole.trans (Nat.zero_add _))
  · have whole := Registry.total_durations String.join {} events (String.join l.values)
    exact .of_distinct sound.durations (Exposition.countIn_size sound) l (whole.trans (Nat.zero_add _))

end AppAdmission
