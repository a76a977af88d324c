import Mathlib.Algebra.Ring.Nat
import Mathlib.Data.List.Nodup
import AppAdmission.Metrics.Registry
import AppAdmission.Proofs.Binary64.Plain
import AppAdmission.Proofs.Members

/-!
# Series and the record of events

Where the key of series tells the labels apart that come up, each pair of labels that anything was noted
under has one series, and no other pair has one. A counter's series is the number of its events, and a
histogram has seen the durations that were observed, in their order. Whatever the key, labels that have the
same key share one series, which has all that was noted under any of them.
-/

namespace AppAdmission

/-- The labels under which an event is noted. -/
def MetricEvent.labels : MetricEvent → MetricLabels
  | increment _ l => l
  | observe l _ => l

/-- An event counts something under labels with a key. -/
def MetricEvent.countsB {κ : Type} [DecidableEq κ] (key : List String → κ) (c : Counter) (k : κ) :
    MetricEvent → Bool
  | increment c' l => c' = c && key l.values = k
  | observe _ _ => false

/-- An event observes a duration under labels with a key. -/
def MetricEvent.observesB {κ : Type} [DecidableEq κ] (key : List String → κ) (k : κ) : MetricEvent → Bool
  | increment _ _ => false
  | observe l _ => key l.values = k

/-- No two of the labels have the same key. -/
def ToldApart {κ : Type} (key : List String → κ) (among : List MetricLabels) : Prop :=
  ∀ a ∈ among, ∀ b ∈ among, key a.values = key b.values → a = b

instance {κ : Type} [DecidableEq κ] (key : List String → κ) (among : List MetricLabels) :
    Decidable (ToldApart key among) :=
  inferInstanceAs (Decidable (∀ a ∈ among, ∀ b ∈ among, key a.values = key b.values → a = b))

theorem MetricLabels.eq_of_values {a b : MetricLabels} (same : a.values = b.values) : a = b := by
  obtain ⟨aw, ar⟩ := a
  obtain ⟨bw, br⟩ := b
  obtain ⟨rfl, rest⟩ := List.cons.inj same
  obtain ⟨rfl, -⟩ := List.cons.inj rest
  rfl

theorem toldApart_of_injective {κ : Type} {key : List String → κ}
    (h : ∀ vs vs', key vs = key vs' → vs = vs') (among : List MetricLabels) : ToldApart key among :=
  fun _ _ _ _ same => MetricLabels.eq_of_values (h _ _ same)

namespace Family

variable {α κ : Type} [DecidableEq κ] {key : List String → κ} {labels : MetricLabels}
  {series : List (MetricLabels × α)} {begin' : α} {change : α → α}

/-- The series of some labels is changed, or begun, and the others stay. -/
theorem find?_update (own : ∀ s ∈ series, key s.1.values = key labels.values → s.1 = labels)
    (l : MetricLabels) : Members.find? l (update key labels begin' change series) =
      if l = labels then some (change ((Members.find? labels series).getD begin'))
      else Members.find? l series := by
  induction series with
  | nil => simp [update, Members.find?, eq_comm]
  | cons s rest ih =>
    have later := ih fun s there => own s (List.mem_cons_of_mem _ there)
    rw [update]
    split
    · next shared =>
      obtain same : s.1 = labels := own s List.mem_cons_self shared
      by_cases here : l = labels
      · simp [Members.find?, same, here]
      · have other : labels ≠ l := Ne.symm here
        simp [Members.find?, same, here, other]
    · next unshared =>
      have other : s.1 ≠ labels := fun same => unshared (same ▸ rfl)
      by_cases here : l = labels
      · subst here
        simp [Members.find?, other, later]
      · simp [Members.find?, here, later]

/-- A key that has a series keeps it, and another one gets one. -/
theorem keys_update : (update key labels begin' change series).map (fun s => key s.1.values) =
    if key labels.values ∈ series.map (fun s => key s.1.values) then series.map (fun s => key s.1.values)
    else series.map (fun s => key s.1.values) ++ [key labels.values] := by
  induction series with
  | nil => rfl
  | cons s rest ih =>
    rw [update]
    split
    · next shared => simp [shared]
    · next unshared =>
      have other : key labels.values ≠ key s.1.values := Ne.symm unshared
      rw [List.map_cons, ih, List.map_cons]
      by_cases there : key labels.values ∈ rest.map fun s => key s.1.values
      · rw [if_pos there, if_pos (List.mem_cons_of_mem _ there)]
      · rw [if_neg there, if_neg (by simp only [List.mem_cons, other, there, or_self, not_false_eq_true])]
        rfl

/-- What is so of the series of a family is so after an update, if it is so of a series that is begun and of
one that is changed. -/
theorem forall_update {p : MetricLabels × α → Prop} (all : ∀ s ∈ series, p s)
    (begun : p (labels, change begin')) (changed : ∀ l a, p (l, a) → p (l, change a)) :
    ∀ s ∈ update key labels begin' change series, p s := by
  induction series with
  | nil => simpa [update] using begun
  | cons s rest ih =>
    obtain ⟨first, later⟩ := List.forall_mem_cons.1 all
    rw [update]
    split
    · exact List.forall_mem_cons.2 ⟨changed s.1 s.2 first, later⟩
    · exact List.forall_mem_cons.2 ⟨first, ih later⟩

/-- No two series of a family have the same key. -/
def Distinct (key : List String → κ) (series : List (MetricLabels × α)) : Prop :=
  (series.map fun s => key s.1.values).Nodup

omit [DecidableEq κ] in
theorem Distinct.nil : Distinct (α := α) key [] := List.nodup_nil

theorem Distinct.update (h : Distinct key series) :
    Distinct key (update key labels begin' change series) := by
  unfold Distinct
  rw [keys_update]
  split
  · exact h
  · next fresh =>
    refine List.nodup_append.2 ⟨h, List.pairwise_singleton _ _, ?_⟩
    intro a within b last
    rw [List.mem_singleton.1 last]
    exact fun same => fresh (same ▸ within)

omit [DecidableEq κ] in
/-- Then no labels come twice. -/
theorem Distinct.once (h : Distinct key series) : (series.map Prod.fst).Nodup := by
  have keys : ((series.map Prod.fst).map fun l => key l.values).Nodup := by
    rw [List.map_map]
    exact h
  exact List.Nodup.of_map _ keys

omit [DecidableEq κ] in
/-- And of labels with the same key only one pair has a series. -/
theorem Distinct.find?_eq_none (h : Distinct key series) {a b : MetricLabels} (other : a ≠ b)
    (alike : key a.values = key b.values) :
    Members.find? a series = none ∨ Members.find? b series = none := by
  cases here : Members.find? a series with
  | none => exact .inl rfl
  | some v =>
    cases there : Members.find? b series with
    | none => exact .inr rfl
    | some w =>
      have same := List.inj_on_of_nodup_map h (Members.mem_of_find? here) (Members.mem_of_find? there) alike
      exact absurd (congrArg Prod.fst same) other

/-- The sum of the series with a key. -/
def total (key : List String → κ) (size : α → Nat) (k : κ) (series : List (MetricLabels × α)) : Nat :=
  ((series.filter fun s => key s.1.values = k).map fun s => size s.2).sum

/-- An update adds one to the sum of its key, and nothing to others. -/
theorem total_update (size : α → Nat) (none : size begin' = 0) (one : ∀ a, size (change a) = size a + 1)
    (k : κ) : total key size k (update key labels begin' change series) =
      total key size k series + if key labels.values = k then 1 else 0 := by
  unfold total
  induction series with
  | nil => by_cases same : key labels.values = k <;> simp [update, same, none, one]
  | cons s rest ih =>
    rw [update]
    split
    · next shared =>
      by_cases same : key labels.values = k
      · simp [shared, same, one, Nat.add_right_comm]
      · simp [shared, same]
    · by_cases own : key s.1.values = k
      · simp [own, ih, Nat.add_assoc]
      · simp [own, ih]

/-- A series is the whole sum of its key. -/
theorem Distinct.total_eq (h : Distinct key series) (size : α → Nat) {s : MetricLabels × α}
    (there : s ∈ series) : total key size (key s.1.values) series = size s.2 := by
  obtain ⟨before, after, rfl⟩ := List.append_of_mem there
  unfold Distinct at h
  rw [List.map_append, List.map_cons] at h
  obtain ⟨-, later, earlier⟩ := List.nodup_append.1 h
  have none : (before.filter fun s' => key s'.1.values = key s.1.values) = [] := by
    refine List.filter_eq_nil_iff.2 fun s' within same => ?_
    exact earlier _ (List.mem_map_of_mem within) _ List.mem_cons_self (of_decide_eq_true same)
  have none' : (after.filter fun s' => key s'.1.values = key s.1.values) = [] := by
    refine List.filter_eq_nil_iff.2 fun s' within same => ?_
    exact (List.nodup_cons.1 later).1 (of_decide_eq_true same ▸ List.mem_map_of_mem within)
  simp [total, none, none']

/-- Of the labels with a key one pair has the whole sum in its series, and no other has a series. -/
theorem Distinct.exists_shown (h : Distinct key series) (size : α → Nat) (l : MetricLabels) :
    ∃ shown, key shown.values = key l.values ∧
      ((Members.find? shown series).map size).getD 0 = total key size (key l.values) series ∧
      ∀ other, other ≠ shown → key other.values = key l.values → Members.find? other series = none := by
  by_cases begun : ∃ s ∈ series, key s.1.values = key l.values
  · obtain ⟨s, there, alike⟩ := begun
    have found := Members.find?_of_mem_once h.once there
    refine ⟨s.1, alike, ?_, fun other apart alike' => ?_⟩
    · rw [found, ← alike, h.total_eq size there]
      rfl
    · have shown : Members.find? s.1 series ≠ none := by
        rw [found]
        exact Option.some_ne_none s.2
      exact (h.find?_eq_none apart (alike'.trans alike.symm)).resolve_right shown
  · have missing (other : MetricLabels) (alike : key other.values = key l.values) :
        Members.find? other series = none := by
      cases found : Members.find? other series with
      | none => rfl
      | some a => exact absurd ⟨_, Members.mem_of_find? found, alike⟩ begun
    have none : (series.filter fun s => key s.1.values = key l.values) = [] :=
      List.filter_eq_nil_iff.2 fun s there same => begun ⟨s, there, of_decide_eq_true same⟩
    refine ⟨l, rfl, ?_, fun other _ => missing other⟩
    rw [missing l rfl, total, none]
    rfl

/-- A family has a series for each of the labels for which something is recorded. -/
structure Shows (among : List MetricLabels) (recorded : MetricLabels → Option α)
    (series : List (MetricLabels × α)) : Prop where
  found : ∀ l, Members.find? l series = recorded l
  known : ∀ s ∈ series, s.1 ∈ among

variable {among : List MetricLabels} {recorded recorded' : MetricLabels → Option α}

theorem Shows.nil : Shows (α := α) among (fun _ => none) [] :=
  ⟨fun _ => rfl, fun _ there => nomatch there⟩

/-- A step in the record is a step in the family. -/
theorem Shows.update (h : Shows among recorded series) (apart : ToldApart key among)
    (there : labels ∈ among) (noted : ∀ l, recorded' l =
      if l = labels then some (change ((recorded labels).getD begin')) else recorded l) :
    Shows among recorded' (update key labels begin' change series) := by
  have own : ∀ s ∈ series, key s.1.values = key labels.values → s.1 = labels :=
    fun s within => apart s.1 (h.known s within) labels there
  refine ⟨fun l => ?_, forall_update h.known there fun _ _ known => known⟩
  rw [find?_update own, noted, h.found, h.found]

end Family

namespace Tally

/-- What is recorded of a counter under labels, if it ever counted there. -/
def count? (t : Tally) (c : Counter) (l : MetricLabels) : Option Nat :=
  if t.counts c l = 0 then none else some (t.counts c l)

/-- The histogram of the durations observed under labels, if there are any. -/
def histogram? (t : Tally) (l : MetricLabels) : Option Histogram :=
  if t.durations l = [] then none else some ((t.durations l).foldl Histogram.observe .empty)

theorem count?_increment (t : Tally) (c : Counter) (labels l : MetricLabels) :
    (t.note (.increment c labels)).count? c l =
      if l = labels then some ((t.count? c labels).getD 0 + 1) else t.count? c l := by
  by_cases same : l = labels
  · subst same
    by_cases none : t.counts c l = 0 <;> simp [count?, note, none]
  · simp [count?, note, same]

theorem count?_increment_ne (t : Tally) {c c' : Counter} (labels : MetricLabels) (other : c' ≠ c) :
    (t.note (.increment c labels)).count? c' = t.count? c' := by
  funext l
  simp [count?, note, other]

theorem histogram?_observe (t : Tally) (labels l : MetricLabels) (seconds : Double) :
    (t.note (.observe labels seconds)).histogram? l =
      if l = labels then some (((t.histogram? labels).getD .empty).observe seconds)
      else t.histogram? l := by
  by_cases same : l = labels
  · subst same
    by_cases none : t.durations l = [] <;> simp [histogram?, note, none]
  · simp [histogram?, note, same]

theorem getD_count? (t : Tally) (c : Counter) (l : MetricLabels) :
    (t.count? c l).getD 0 = t.counts c l := by
  unfold count?
  split
  · next none => exact none.symm
  · rfl

theorem counts_ne_zero_of_count? {t : Tally} {c : Counter} {l : MetricLabels} {n : Nat}
    (h : t.count? c l = some n) : t.counts c l ≠ 0 := by
  intro none
  rw [count?, if_pos none] at h
  cases h

end Tally

/-- The series show what is recorded. -/
structure Registry.Shows (among : List MetricLabels) (r : Registry) (t : Tally) : Prop where
  counters : ∀ c, Family.Shows among (t.count? c) (r.counters c)
  durations : Family.Shows among t.histogram? r.durations

namespace Registry

variable {κ : Type} [DecidableEq κ] {key : List String → κ} {among : List MetricLabels}

theorem counters_increment (r : Registry) (c : Counter) (labels : MetricLabels) :
    (r.noteBy key (.increment c labels)).counters c = Family.update key labels 0 (· + 1) (r.counters c) :=
  if_pos rfl

theorem counters_increment_ne (r : Registry) {c c' : Counter} (labels : MetricLabels) (other : c' ≠ c) :
    (r.noteBy key (.increment c labels)).counters c' = r.counters c' :=
  if_neg other

theorem Shows.empty : Shows among {} {} := ⟨fun _ => .nil, .nil⟩

/-- What is noted in both is shown by the one as the other records it. -/
theorem Shows.note {r : Registry} {t : Tally} (h : Shows among r t) (apart : ToldApart key among)
    {e : MetricEvent} (there : e.labels ∈ among) : Shows among (r.noteBy key e) (t.note e) := by
  cases e with
  | increment c labels =>
    refine ⟨fun c' => ?_, h.durations⟩
    by_cases same : c' = c
    · subst same
      rw [counters_increment]
      exact (h.counters c').update apart there (t.count?_increment c' labels)
    · rw [t.count?_increment_ne labels same, counters_increment_ne r labels same]
      exact h.counters c'
  | observe labels seconds =>
    exact ⟨h.counters, h.durations.update apart there fun l => t.histogram?_observe labels l seconds⟩

theorem Shows.noteAll {r : Registry} {t : Tally} (h : Shows among r t) (apart : ToldApart key among)
    {events : List MetricEvent} (there : ∀ e ∈ events, e.labels ∈ among) :
    Shows among (r.noteAllBy key events) (t.noteAll events) := by
  induction events generalizing r t with
  | nil => exact h
  | cons e rest ih =>
    exact ih (h.note apart (there e List.mem_cons_self)) fun e later =>
      there e (List.mem_cons_of_mem _ later)

/-- Begun afresh, series show the record of the same events. -/
theorem shows_noteAll {events : List MetricEvent}
    (apart : ToldApart key (events.map MetricEvent.labels)) :
    Shows (events.map MetricEvent.labels) (Registry.noteAllBy key {} events) (Tally.noteAll {} events) :=
  Shows.empty.noteAll apart fun _ there => List.mem_map_of_mem there

end Registry

/-- A sum that is finite is in normal form, whatever was added up. -/
theorem Double.bounded_of_add {x y : Double} {z : Binary64} (added : x.add y = .finite z) : z.Bounded := by
  unfold add at added
  split at added
  · split at added
    · next sum =>
      cases added
      exact Binary64.bounded_of_add? sum
    · cases added
  · cases added
  · cases added
  · split at added <;> cases added
  · cases added
  · cases added

namespace Histogram

theorem count_foldl (xs : List Double) (h : Histogram) :
    (xs.foldl observe h).count = h.count + xs.length := by
  induction xs generalizing h with
  | nil => rfl
  | cons x rest ih =>
    rw [List.foldl_cons, ih, List.length_cons]
    show h.count + 1 + rest.length = _
    omega

/-- The bounds of the buckets stay as they are. -/
theorem bounds_place (x : Double) (buckets : List (Binary64 × Nat)) :
    (place x buckets).map Prod.fst = buckets.map Prod.fst := by
  induction buckets with
  | nil => rfl
  | cons b rest ih =>
    rw [place]
    split
    · rfl
    · rw [List.map_cons, ih, List.map_cons]

theorem bounds_cumulative (before : Nat) (buckets : List (Binary64 × Nat)) :
    (cumulative before buckets).map Prod.fst = buckets.map Prod.fst := by
  induction buckets generalizing before with
  | nil => rfl
  | cons b rest ih => rw [cumulative, List.map_cons, ih, List.map_cons]

/-- The finite numbers in a histogram are in normal form. -/
structure Bounded (h : Histogram) : Prop where
  bounds : ∀ b ∈ h.buckets.map Prod.fst, b.Bounded
  sum : ∀ x, h.sum = .finite x → x.Bounded

theorem bounded_durationBounds : ∀ b ∈ durationBounds, b.Bounded := by
  unfold Binary64.Bounded
  decide

theorem bounded_empty : empty.Bounded := by
  constructor
  · intro b there
    have bounds : empty.buckets.map Prod.fst = durationBounds := by
      simp [empty, List.map_map, Function.comp_def]
    exact bounded_durationBounds b (bounds ▸ there)
  · intro x same
    cases same
    exact Binary64.bounded_zero false

theorem Bounded.observe {h : Histogram} (bounded : h.Bounded) (x : Double) : (h.observe x).Bounded := by
  constructor
  · intro b there
    exact bounded.bounds b (bounds_place x h.buckets ▸ there)
  · intro y same
    exact Double.bounded_of_add same

end Histogram

/-- In each family no two series have the same key, and the numbers of the histograms are in normal form. -/
structure Registry.Sound {κ : Type} (key : List String → κ) (r : Registry) : Prop where
  counters : ∀ c, Family.Distinct key (r.counters c)
  durations : Family.Distinct key r.durations
  bounded : ∀ s ∈ r.durations, s.2.Bounded

namespace Registry

variable {κ : Type} {key : List String → κ}

theorem Sound.empty : Sound key {} := ⟨fun _ => .nil, .nil, fun _ there => nomatch there⟩

variable [DecidableEq κ]

theorem Sound.note {r : Registry} (h : Sound key r) (e : MetricEvent) : Sound key (r.noteBy key e) := by
  cases e with
  | increment c labels =>
    refine ⟨fun c' => ?_, h.durations, h.bounded⟩
    by_cases same : c' = c
    · subst same
      rw [counters_increment]
      exact (h.counters c').update
    · rw [counters_increment_ne r labels same]
      exact h.counters c'
  | observe labels seconds =>
    exact ⟨h.counters, h.durations.update, Family.forall_update h.bounded
      (Histogram.bounded_empty.observe seconds) fun _ _ bounded => bounded.observe seconds⟩

theorem Sound.noteAll {r : Registry} (h : Sound key r) (events : List MetricEvent) :
    Sound key (r.noteAllBy key events) := by
  induction events generalizing r with
  | nil => exact h
  | cons e rest ih => exact ih (h.note e)

/-- Whatever is noted and by whichever key, the series are in order. -/
theorem sound_noteAll (key : List String → κ) (events : List MetricEvent) :
    Sound key (Registry.noteAllBy key {} events) :=
  Sound.empty.noteAll events

/-- What grows by one with some of the events grows by their number. -/
theorem grows_noteAll (size : Registry → Nat) (p : MetricEvent → Bool)
    (step : ∀ r e, size (r.noteBy key e) = size r + if p e then 1 else 0) (r : Registry)
    (events : List MetricEvent) : size (r.noteAllBy key events) = size r + events.countP p := by
  induction events generalizing r with
  | nil => rfl
  | cons e rest ih =>
    rw [List.countP_cons, Nat.add_comm (rest.countP p), ← Nat.add_assoc, ← step]
    exact ih (r.noteBy key e)

/-- The counts under a key add up to the events that are counted there. -/
theorem total_counters (key : List String → κ) (r : Registry) (events : List MetricEvent) (c : Counter) (k : κ) :
    Family.total key id k ((r.noteAllBy key events).counters c) =
      Family.total key id k (r.counters c) + events.countP (·.countsB key c k) := by
  have step (r : Registry) (e : MetricEvent) : Family.total key id k ((r.noteBy key e).counters c) =
      Family.total key id k (r.counters c) + if e.countsB key c k then 1 else 0 := by
    cases e with
    | increment c' labels =>
      by_cases same : c = c'
      · subst same
        rw [counters_increment]
        refine (Family.total_update id rfl (fun _ => rfl) k).trans ?_
        simp [MetricEvent.countsB]
      · have other : ¬c' = c := Ne.symm same
        simp [counters_increment_ne r labels same, MetricEvent.countsB, other]
    | observe labels seconds => rfl
  exact grows_noteAll (fun r => Family.total key id k (r.counters c)) _ step r events

/-- The sizes of the histograms under a key add up to the durations that are observed there. -/
theorem total_durations (key : List String → κ) (r : Registry) (events : List MetricEvent) (k : κ) :
    Family.total key Histogram.count k (r.noteAllBy key events).durations =
      Family.total key Histogram.count k r.durations + events.countP (·.observesB key k) := by
  have step (r : Registry) (e : MetricEvent) :
      Family.total key Histogram.count k (r.noteBy key e).durations =
        Family.total key Histogram.count k r.durations + if e.observesB key k then 1 else 0 := by
    cases e with
    | increment c labels => rfl
    | observe labels seconds =>
      refine (Family.total_update Histogram.count rfl (fun _ => rfl) k).trans ?_
      simp [MetricEvent.observesB]
  exact grows_noteAll (fun r => Family.total key Histogram.count k r.durations) _ step r events

end Registry

namespace Tally

/-- A histogram has as many values as durations were observed. -/
theorem getD_count_histogram? (t : Tally) (l : MetricLabels) :
    ((t.histogram? l).map Histogram.count).getD 0 = t.durationCount l := by
  unfold histogram? durationCount
  split
  · next none => rw [none]; rfl
  · rw [Option.map_some, Option.getD_some, Histogram.count_foldl]
    exact Nat.zero_add _

end Tally

end AppAdmission
