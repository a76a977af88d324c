import AppAdmission.Proofs.Admission.Rehearsal
import AppAdmission.Proofs.Version.Order

/-!
# The gate at the cutoff

Whether an App gets the baseline depends on the release of its cluster through the version that is read
from the label, and a later version never takes the baseline away. The comparison with the cutoff is that
of whole versions: between releases of one precedence the gate tells builds apart if the cutoff has that
precedence too and names a build that lies between theirs, and only then.
-/

namespace AppAdmission

namespace Version

open Text (isBlank trim trimLeft trimRight)

/-- The text of a version as such: no white space at its ends, and no `v` in front. -/
structure Bare (cs : List Char) : Prop where
  first : ∃ c rest, cs = c :: rest ∧ isBlank c = false ∧ c ≠ 'v'
  last : ∃ front c, cs = front ++ [c] ∧ isBlank c = false

/-- A text with white space around it and at most one `v` in front. -/
inductive Dressed (bare : List Char) : List Char → Prop where
  | plain {before after : List Char} (blank : ∀ c ∈ before, isBlank c = true)
      (blank' : ∀ c ∈ after, isBlank c = true) : Dressed bare (before ++ bare ++ after)
  | marked {before after : List Char} (blank : ∀ c ∈ before, isBlank c = true)
      (blank' : ∀ c ∈ after, isBlank c = true) : Dressed bare (before ++ 'v' :: bare ++ after)

theorem trimLeft_padded {pad rest : List Char} {c : Char} (blank : ∀ c ∈ pad, isBlank c = true)
    (solid : isBlank c = false) : trimLeft (pad ++ c :: rest) = c :: rest := by
  rw [trimLeft, List.dropWhile_append_of_pos blank]
  exact Text.trimLeft_solid solid

theorem trimRight_padded {pad front : List Char} {c : Char} (blank : ∀ c ∈ pad, isBlank c = true)
    (solid : isBlank c = false) : trimRight (front ++ [c] ++ pad) = front ++ [c] := by
  have mirrored : (front ++ [c] ++ pad).reverse = pad.reverse ++ c :: front.reverse := by simp
  have left : (pad.reverse ++ c :: front.reverse).dropWhile isBlank = c :: front.reverse :=
    trimLeft_padded (fun c there => blank c (List.mem_reverse.1 there)) solid
  rw [trimRight, mirrored, left, List.reverse_cons, List.reverse_reverse]

/-- White space around a text is cut off. -/
theorem trim_padded {before after cs rest front : List Char} {first last : Char}
    (blank : ∀ c ∈ before, isBlank c = true) (blank' : ∀ c ∈ after, isBlank c = true)
    (starts : cs = first :: rest) (solid : isBlank first = false) (stops : cs = front ++ [last])
    (solid' : isBlank last = false) : trim (before ++ cs ++ after) = cs := by
  have left : trimLeft (before ++ cs ++ after) = cs ++ after := by
    rw [List.append_assoc, starts]
    exact trimLeft_padded blank solid
  rw [trim, left, stops]
  exact trimRight_padded blank' solid'

/-- A version is read without what it is dressed in. -/
theorem parse_dressed {bare : List Char} (h : Bare bare) {raw : String}
    (dressed : Dressed bare raw.toList) : parse raw = parseBare bare := by
  obtain ⟨c, rest, starts, solid, unmarked⟩ := h.first
  obtain ⟨front, last, stops, solid'⟩ := h.last
  unfold parse
  generalize raw.toList = cs at dressed ⊢
  cases dressed with
  | plain blank blank' =>
    rw [trim_padded blank blank' starts solid stops solid', starts]
    unfold dropMark
    split
    · next same => exact absurd (List.cons.inj same).1 unmarked
    · rfl
  | marked blank blank' =>
    have stops' : 'v' :: bare = ('v' :: front) ++ [last] := congrArg (List.cons 'v') stops
    rw [trim_padded blank blank' rfl (by decide) stops' solid', dropMark]

/-- Texts that differ in what they are dressed in only are read as the same version. -/
theorem read_dressed {bare : List Char} (h : Bare bare) {raw raw' : String} {v v' : Version}
    (dressed : Dressed bare raw.toList) (dressed' : Dressed bare raw'.toList)
    (reads : read raw = .ok v) (reads' : read raw' = .ok v') : v = v' := by
  have bared {raw : String} {v : Version} (dressed : Dressed bare raw.toList)
      (reads : read raw = .ok v) : parseBare bare = .ok v := by
    rw [read, parse_dressed h dressed] at reads
    cases parsed : parseBare bare with
    | error fault =>
      rw [parsed] at reads
      cases reads
    | ok w =>
      rw [parsed] at reads
      cases reads
      rfl
  exact Except.ok.inj ((bared dressed reads).symm.trans (bared dressed' reads'))

end Version

namespace MemoryStore

/-- The store with an object in the place of the one under the same key. -/
def exchanged (s : MemoryStore) (kind : ResourceKind) (o : StoredObject) : MemoryStore :=
  { s with
    objects := s.objects.insert (.of kind o) o
    keyed := s.keyed_insert kind o }

variable {s : MemoryStore} {kind : ResourceKind} {name : String} {o o' : StoredObject}

/-- The only record of a name is exchanged for another under the same key. -/
theorem records_exchanged (only : s.records kind name = [o])
    (place : StoreKey.of kind o' = StoreKey.of kind o) :
    (s.exchanged kind o').records kind name = [o'] := by
  unfold records at only ⊢
  obtain ⟨e, alone, rfl⟩ := List.map_eq_singleton_iff.1 only
  have among : e ∈ s.objects.entries.filter fun e => e.1.kind == kind && e.1.name == name := by
    rw [alone]
    exact List.mem_singleton_self e
  obtain ⟨there, wanted⟩ := List.mem_filter.1 among
  have own : e.1 = .of kind e.2 := by
    rw [← beq_iff_eq.1 (Bool.and_eq_true_iff.1 wanted).1]
    exact s.keyed e there
  have replaced : (s.exchanged kind o').objects.entries =
      Members.replace e.1 o' s.objects.entries := by
    rw [Members.replace_eq_insert o' s.objects.sorted (Members.find?_of_mem s.objects.sorted there),
      own, ← place]
    rfl
  have kept : (Members.replace e.1 o' s.objects.entries).filter
      (fun e => e.1.kind == kind && e.1.name == name) = Members.replace e.1 o' [e] := by
    rw [← alone]
    exact @Members.filter_replace _ _ _ (fun key : StoreKey => key.kind == kind && key.name == name) _
      wanted _ _
  rw [replaced, kept, Members.replace, if_pos rfl]
  rfl

end MemoryStore

/-- The release label of the cluster that is read from an object. -/
def StoredObject.releaseLabel? (o : StoredObject) : Option String :=
  (o.toTyped? Cluster.decode).bind Cluster.releaseLabel?

namespace Compliance

open ReleaseLookup (Found)

/-- The state of an App whose cluster is on a release. -/
def stateAt (settings : ComplianceSettings) (app : App) (release : Version) : State :=
  match applicableCluster? settings app with
  | none => .notApplicable
  | some _ =>
    if app.extraConfigs.getLast? = some (canonicalRef settings app.space) then .alreadyPatched
    else if release.ltB settings.cutoff then .belowCutoff release
    else .patchRequired (appending settings app)

variable {settings : ComplianceSettings} {app : App} {dryRun : Bool} {s : MemoryStore}
  {cluster raw raw' : String} {records : String → List StoredObject} {state : State}
  {o o' : StoredObject} {v v' : Version}

/-- A label that is read is a row of the lookup. -/
theorem found_of_label (label : o.releaseLabel? = some raw) (reads : Version.read raw = .ok v) :
    Found cluster [o] (.ok v) := by
  obtain ⟨record, one, labelled⟩ := Option.bind_eq_some_iff.1 label
  exact .release one labelled reads

/-- Rehearsed or not, a row of the table without a failure is what an evaluation comes to. -/
theorem Evaluated.comes (healthy : s.Healthy)
    (row : Evaluated settings app (s.records .cluster) (.ok state)) :
    (Decision.eval MemoryStore.environment (evaluate settings app dryRun) s).1 = .ok state := by
  obtain ⟨t, ran, -⟩ := row.eval healthy
  cases dryRun with
  | false => rw [ran]
  | true =>
    have previews := previews_evaluate MemoryStore.environment settings app s
    rw [ran] at previews
    generalize (Decision.eval MemoryStore.environment (evaluate settings app true) s).1 = shown
      at previews ⊢
    cases previews with
    | same => rfl

/-- An App that the baseline is for has its cluster. -/
theorem Concerns.clusterName? (inside : Concerns settings app cluster) :
    app.clusterName? = some cluster := by
  unfold App.clusterName?
  rw [inside.label]
  exact Option.filter_some_pos (decide_eq_true inside.named)

/-- The state of the App is a row of the table. -/
theorem evaluated_stateAt (named : app.clusterName? = some cluster)
    (found : Found cluster (records cluster) (.ok v)) :
    Evaluated settings app records (.ok (stateAt settings app v)) := by
  unfold stateAt
  cases inside : applicableCluster? settings app with
  | none =>
    refine .notApplicable fun ⟨cluster', concerns⟩ => ?_
    rw [applicableCluster?_eq_some_iff.2 concerns] at inside
    cases inside
  | some cluster' =>
    have concerns := applicableCluster?_eq_some_iff.1 inside
    obtain rfl := Option.some.inj (named.symm.trans concerns.clusterName?)
    dsimp only
    split
    · next last => exact .alreadyPatched concerns last
    · next other =>
      split
      · next old => exact .belowCutoff concerns other found old
      · next recent => exact .patchRequired concerns other found (Bool.eq_false_iff.2 recent)

/-- Over a store without faults where the cluster of an App has one record with a label that reads, the
evaluation comes to the state of the App at that release. -/
theorem eval_evaluate_stateAt (settings : ComplianceSettings) (dryRun : Bool) (healthy : s.Healthy)
    (named : app.clusterName? = some cluster) (only : s.records .cluster cluster = [o])
    (label : o.releaseLabel? = some raw) (reads : Version.read raw = .ok v) :
    (Decision.eval MemoryStore.environment (evaluate settings app dryRun) s).1 =
      .ok (stateAt settings app v) := by
  refine (evaluated_stateAt named ?_).comes healthy
  rw [only]
  exact found_of_label label reads

/-- With another record in the place of that of the cluster, it comes to the state of the App at the
release of the other record. -/
theorem eval_evaluate_exchanged (settings : ComplianceSettings) (dryRun : Bool) (healthy : s.Healthy)
    (named : app.clusterName? = some cluster) (only : s.records .cluster cluster = [o])
    (place : StoreKey.of .cluster o' = StoreKey.of .cluster o) (label' : o'.releaseLabel? = some raw')
    (reads' : Version.read raw' = .ok v') :
    (Decision.eval MemoryStore.environment (evaluate settings app dryRun)
      (s.exchanged .cluster o')).1 = .ok (stateAt settings app v') := by
  -- the failures that are planned are those of the store as it was
  have healthy' : (s.exchanged .cluster o').Healthy := healthy
  exact eval_evaluate_stateAt settings dryRun healthy' named
    (MemoryStore.records_exchanged only place) label' reads'

/-- Where a patch is required it is also required at later releases, and it is the same. -/
theorem stateAt_of_later (later : v'.cmp v ≠ .lt) {patch : List Patch.Operation}
    (required : stateAt settings app v = .patchRequired patch) :
    stateAt settings app v' = .patchRequired patch := by
  unfold stateAt at required ⊢
  split at required
  · cases required
  · split at required
    · cases required
    · next other =>
      split at required
      · cases required
      · next recent =>
        have recent' := Version.ltB_eq_false_of_later (Bool.eq_false_iff.2 recent) later
        rw [if_neg other, recent', if_neg (by decide)]
        exact required

/-- **The gate is monotone and sees versions only.** Over a store in memory without faults where the
cluster of an App has one record with a label that is read as a version, and over the same store with
another record in its place, whose label is read too, an evaluation comes to a state. If it is that a
patch is required and the other version is not before the one, the same patch is required there; if the
two labels are read as the same version the states are the same, and so they are if the labels are one
text that is dressed in white space and a `v` in different ways. -/
theorem evaluate_monotone (settings : ComplianceSettings) (app : App) (dryRun : Bool)
    (healthy : s.Healthy) (named : app.clusterName? = some cluster)
    (only : s.records .cluster cluster = [o]) (label : o.releaseLabel? = some raw)
    (reads : Version.read raw = .ok v) (place : StoreKey.of .cluster o' = StoreKey.of .cluster o)
    (label' : o'.releaseLabel? = some raw') (reads' : Version.read raw' = .ok v') :
    ∃ state state',
      (Decision.eval MemoryStore.environment (evaluate settings app dryRun) s).1 = .ok state ∧
      (Decision.eval MemoryStore.environment (evaluate settings app dryRun)
        (s.exchanged .cluster o')).1 = .ok state' ∧
      (v'.cmp v ≠ .lt → ∀ patch, state = .patchRequired patch → state' = .patchRequired patch) ∧
      (v' = v → state' = state) ∧
      (∀ bare, Version.Bare bare → Version.Dressed bare raw.toList → Version.Dressed bare raw'.toList →
        state' = state) := by
  have came := eval_evaluate_stateAt settings dryRun healthy named only label reads
  have came' := eval_evaluate_exchanged settings dryRun healthy named only place label' reads'
  refine ⟨_, _, came, came', ?_, ?_, ?_⟩
  · intro later patch required
    exact stateAt_of_later later required
  · rintro rfl
    rfl
  · intro bare h dressed dressed'
    rw [Version.read_dressed h dressed' dressed reads' reads]

/-- A record of the cluster of the sample with a label. -/
def labelledCluster (raw : String) : StoredObject :=
  { metadata := { name := "c1", labels := some (.ofMembers [(releaseVersionLabel, raw)])
                  resourceVersion := some "1" } }

theorem place_labelledCluster (raw raw' : String) :
    StoreKey.of .cluster (labelledCluster raw) = StoreKey.of .cluster (labelledCluster raw') := rfl

theorem records_sampleStore : sampleStore.records .cluster "c1" = [labelledCluster "19.3.0"] := by
  decide +kernel

theorem clusterName?_sampleApp : sampleApp.clusterName? = some "c1" := by decide +kernel

/-- The cluster of the sample is on release 19.3.0. A build of that release calls for the same patch, and
so does the release itself when its label is dressed. -/
theorem evaluate_monotone_sample :
    (Decision.eval MemoryStore.environment (evaluate sampleSettings sampleApp false)
        (sampleStore.exchanged .cluster (labelledCluster "19.3.0+01"))).1 =
      .ok (.patchRequired (appending sampleSettings sampleApp)) ∧
    (Decision.eval MemoryStore.environment (evaluate sampleSettings sampleApp false)
        (sampleStore.exchanged .cluster (labelledCluster " v19.3.0\n"))).1 =
      .ok (.patchRequired (appending sampleSettings sampleApp)) := by
  have healthy : sampleStore.Healthy := fun _ _ => rfl
  have label : (labelledCluster "19.3.0").releaseLabel? = some "19.3.0" := by decide +kernel
  have reads : Version.read "19.3.0" = .ok ⟨19, 3, 0, [], []⟩ := by decide +kernel
  have required : stateAt sampleSettings sampleApp ⟨19, 3, 0, [], []⟩ =
      .patchRequired (appending sampleSettings sampleApp) := by decide +kernel
  have came := eval_evaluate_stateAt sampleSettings false healthy clusterName?_sampleApp
    records_sampleStore label reads
  rw [required] at came
  constructor
  · have label' : (labelledCluster "19.3.0+01").releaseLabel? = some "19.3.0+01" := by decide +kernel
    have reads' : Version.read "19.3.0+01" = .ok ⟨19, 3, 0, [], [['0', '1']]⟩ := by decide +kernel
    obtain ⟨state, state', same, came', later, -⟩ := evaluate_monotone sampleSettings sampleApp false
      healthy clusterName?_sampleApp records_sampleStore label reads (place_labelledCluster _ _) label'
      reads'
    rw [came] at same
    rw [came', later (by decide +kernel) _ (Except.ok.inj same).symm]
  · have label' : (labelledCluster " v19.3.0\n").releaseLabel? = some " v19.3.0\n" := by decide +kernel
    have reads' : Version.read " v19.3.0\n" = .ok ⟨19, 3, 0, [], []⟩ := by decide +kernel
    obtain ⟨state, state', same, came', -, alike, -⟩ := evaluate_monotone sampleSettings sampleApp false
      healthy clusterName?_sampleApp records_sampleStore label reads (place_labelledCluster _ _) label'
      reads'
    rw [came] at same
    rw [came', alike rfl, Except.ok.inj same]

/-- Two evaluations take the same branch at the gate: both releases are below the cutoff, or both call
for the same patch. -/
inductive State.SameBranch : State → State → Prop where
  | below (v v' : Version) : SameBranch (.belowCutoff v) (.belowCutoff v')
  | required (patch : List Patch.Operation) : SameBranch (.patchRequired patch) (.patchRequired patch)

/-- At the gate the branch is decided by the comparison with the cutoff. -/
theorem sameBranch_stateAt_iff (inside : Concerns settings app cluster)
    (other : ¬EndsCanonical settings app) :
    State.SameBranch (stateAt settings app v) (stateAt settings app v') ↔
      (v.ltB settings.cutoff = true ↔ v'.ltB settings.cutoff = true) := by
  have other' : ¬app.extraConfigs.getLast? = some (canonicalRef settings app.space) := other
  have gate (v : Version) : stateAt settings app v =
      if v.ltB settings.cutoff then .belowCutoff v else .patchRequired (appending settings app) := by
    unfold stateAt
    rw [applicableCluster?_eq_some_iff.2 inside]
    exact if_neg other'
  rw [gate, gate]
  cases v.ltB settings.cutoff <;> cases v'.ltB settings.cutoff
  · exact ⟨fun _ => Iff.rfl, fun _ => .required _⟩
  · exact ⟨fun h => (by cases h), fun h => (by simp at h)⟩
  · exact ⟨fun h => (by cases h), fun h => (by simp at h)⟩
  · exact ⟨fun _ => Iff.rfl, fun _ => .below _ _⟩

/-- **Builds at the gate.** Over a store in memory without faults an evaluation gets to the gate for an
App that the baseline is for, that lacks the reference and whose cluster has one record with a label that
is read as a version. Over the same store with another record in its place, whose label is read as a
version of the same precedence, it takes the same branch exactly if the cutoff has another precedence or
a build that does not lie between the two builds; so it does whenever the cutoff names no build. -/
theorem evaluate_sameBranch_iff (dryRun : Bool) (healthy : s.Healthy)
    (inside : Concerns settings app cluster) (other : ¬EndsCanonical settings app)
    (only : s.records .cluster cluster = [o]) (label : o.releaseLabel? = some raw)
    (reads : Version.read raw = .ok v) (place : StoreKey.of .cluster o' = StoreKey.of .cluster o)
    (label' : o'.releaseLabel? = some raw') (reads' : Version.read raw' = .ok v')
    (same : v.SamePrecedence v') :
    ∃ state state',
      (Decision.eval MemoryStore.environment (evaluate settings app dryRun) s).1 = .ok state ∧
      (Decision.eval MemoryStore.environment (evaluate settings app dryRun)
        (s.exchanged .cluster o')).1 = .ok state' ∧
      (state.SameBranch state' ↔ (v.SamePrecedence settings.cutoff →
        (Version.compareBuild v.build settings.cutoff.build = .lt ↔
          Version.compareBuild v'.build settings.cutoff.build = .lt))) ∧
      (settings.cutoff.build = [] → state.SameBranch state') := by
  have named := inside.clusterName?
  have came := eval_evaluate_stateAt settings dryRun healthy named only label reads
  have came' := eval_evaluate_exchanged settings dryRun healthy named only place label' reads'
  have exact : State.SameBranch (stateAt settings app v) (stateAt settings app v') ↔
      (v.SamePrecedence settings.cutoff →
        (Version.compareBuild v.build settings.cutoff.build = .lt ↔
          Version.compareBuild v'.build settings.cutoff.build = .lt)) :=
    (sameBranch_stateAt_iff inside other).trans (same.ltB_iff_ltB_iff settings.cutoff)
  refine ⟨_, _, came, came', exact, fun unbuilt => exact.2 fun _ => ?_⟩
  rw [unbuilt]
  exact iff_of_false (Version.compareBuild_nil_ne_lt _) (Version.compareBuild_nil_ne_lt _)

/-- The settings of the sample with a cutoff that names a build. -/
def builtSettings : ComplianceSettings :=
  { sampleSettings with cutoff := { sampleSettings.cutoff with build := [['2']] } }

/-- The store of the sample with a label on its cluster. -/
def labelledStore (raw : String) : MemoryStore :=
  sampleStore.exchanged .cluster (labelledCluster raw)

theorem records_labelledStore (raw : String) :
    (labelledStore raw).records .cluster "c1" = [labelledCluster raw] :=
  MemoryStore.records_exchanged records_sampleStore rfl

/-- The builds 3 and 10 of the release at the cutoff both come after build 2, which the cutoff names. -/
theorem evaluate_sameBranch_iff_sample :
    ∃ state state',
      (Decision.eval MemoryStore.environment (evaluate builtSettings sampleApp false)
        (labelledStore "19.2.0+3")).1 = .ok state ∧
      (Decision.eval MemoryStore.environment (evaluate builtSettings sampleApp false)
        ((labelledStore "19.2.0+3").exchanged .cluster (labelledCluster "19.2.0+10"))).1 = .ok state' ∧
      state.SameBranch state' := by
  have healthy : (labelledStore "19.2.0+3").Healthy := fun _ _ => rfl
  have inside : Concerns builtSettings sampleApp "c1" := ⟨by decide, by decide +kernel, by decide⟩
  have other : ¬EndsCanonical builtSettings sampleApp := by
    unfold EndsCanonical
    decide
  have label : (labelledCluster "19.2.0+3").releaseLabel? = some "19.2.0+3" := by decide +kernel
  have label' : (labelledCluster "19.2.0+10").releaseLabel? = some "19.2.0+10" := by decide +kernel
  have reads : Version.read "19.2.0+3" = .ok ⟨19, 2, 0, [], [['3']]⟩ := by decide +kernel
  have reads' : Version.read "19.2.0+10" = .ok ⟨19, 2, 0, [], [['1', '0']]⟩ := by decide +kernel
  obtain ⟨state, state', came, came', branch, -⟩ := evaluate_sameBranch_iff false healthy inside other
    (records_labelledStore _) label reads (place_labelledCluster _ _) label' reads' ⟨rfl, rfl, rfl, rfl⟩
  have beyond : ∀ build ∈ [[['3']], [['1', '0']]],
      Version.compareBuild build builtSettings.cutoff.build ≠ .lt := by decide +kernel
  refine ⟨state, state', came, came', branch.2 fun _ => ?_⟩
  exact iff_of_false (beyond _ (by simp)) (beyond _ (by simp))

/-- Two builds of the release at the cutoff, which names one between them: the one is below the cutoff,
and the other calls for the patch. -/
theorem evaluate_parts_builds :
    ∃ older newer, Version.read "19.2.0+1" = .ok older ∧ Version.read "19.2.0+3" = .ok newer ∧
      older.SamePrecedence newer ∧
      (Decision.eval MemoryStore.environment (evaluate builtSettings sampleApp false)
        (labelledStore "19.2.0+1")).1 = .ok (.belowCutoff older) ∧
      (Decision.eval MemoryStore.environment (evaluate builtSettings sampleApp false)
        (labelledStore "19.2.0+3")).1 = .ok (.patchRequired (appending builtSettings sampleApp)) := by
  have came (raw : String) (v : Version) (label : (labelledCluster raw).releaseLabel? = some raw)
      (reads : Version.read raw = .ok v) :
      (Decision.eval MemoryStore.environment (evaluate builtSettings sampleApp false)
        (labelledStore raw)).1 = .ok (stateAt builtSettings sampleApp v) :=
    eval_evaluate_stateAt builtSettings false (fun _ _ => rfl) clusterName?_sampleApp
      (records_labelledStore raw) label reads
  have reads : Version.read "19.2.0+1" = .ok ⟨19, 2, 0, [], [['1']]⟩ := by decide +kernel
  have reads' : Version.read "19.2.0+3" = .ok ⟨19, 2, 0, [], [['3']]⟩ := by decide +kernel
  refine ⟨_, _, reads, reads', ⟨rfl, rfl, rfl, rfl⟩, ?_, ?_⟩
  · rw [came _ _ (by decide +kernel) reads]
    decide +kernel
  · rw [came _ _ (by decide +kernel) reads']
    decide +kernel

end Compliance

end AppAdmission
