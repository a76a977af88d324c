import AppAdmission.Proofs.Admission.Artifact
import AppAdmission.Proofs.Admission.Compliance
import AppAdmission.Proofs.Admission.Frame
import AppAdmission.Proofs.Store.Listing

/-!
# The table of an evaluation

Over a store in memory without faults an evaluation always comes to a result, and which one follows from
the settings, the App and the cluster records of the store by one table. `Found` is the part of the table
for the lookup of a release and `Evaluated` the whole. A row is shown to be what the decision comes to,
and for everything there is a row, so the table is exact.
-/

namespace AppAdmission

namespace ReleaseLookup

/-- What a lookup comes to, by the records that there are under the name of a cluster. Objects whose
free members spoil their metadata are no records of clusters and are not readable. -/
inductive Found (name : String) : List StoredObject → Except AdmissionError Version → Prop where
  | missing : Found name [] (.error (.clusterNotFound name))
  | ambiguous {os : List StoredObject} (several : 2 ≤ os.length) :
      Found name os (.error (.ambiguousCluster name os.length))
  | unreadable {o : StoredObject} (strange : o.toTyped? Cluster.decode = none) :
      Found name [o] (.error .serialization)
  | unlabelled {o : StoredObject} {record : Cluster} (one : o.toTyped? Cluster.decode = some record)
      (blank : record.releaseLabel? = none) :
      Found name [o] (.error (.missingVersion ("cluster '" ++ name ++ "'")
        "release.giantswarm.io/version label"))
  | invalid {o : StoredObject} {record : Cluster} {raw : String} {e : InvalidVersion}
      (one : o.toTyped? Cluster.decode = some record) (labelled : record.releaseLabel? = some raw)
      (fault : Version.read raw = .error e) :
      Found name [o] (.error (.invalidVersion ("cluster '" ++ name ++ "'") e))
  | release {o : StoredObject} {record : Cluster} {raw : String} {v : Version}
      (one : o.toTyped? Cluster.decode = some record) (labelled : record.releaseLabel? = some raw)
      (reads : Version.read raw = .ok v) : Found name [o] (.ok v)

variable {σ : Type} {env : Environment σ} {name : String} {os : List StoredObject}
  {result : Except AdmissionError Version}

theorem exists_found (name : String) (os : List StoredObject) : ∃ result, Found name os result := by
  match os with
  | [] => exact ⟨_, .missing⟩
  | [o] =>
    cases one : o.toTyped? Cluster.decode with
    | none => exact ⟨_, .unreadable one⟩
    | some record =>
      cases labelled : record.releaseLabel? with
      | none => exact ⟨_, .unlabelled one labelled⟩
      | some raw =>
        cases reads : Version.read raw with
        | error e => exact ⟨_, .invalid one labelled reads⟩
        | ok v => exact ⟨_, .release one labelled reads⟩
  | _ :: _ :: _ => exact ⟨_, .ambiguous (by simp)⟩

/-- A row for the records is what is made of them. -/
theorem Found.eval (h : Found name os result) (s : σ) :
    Decision.eval env (single name os >>= releaseOf name) s = (result, s) := by
  have record {o : StoredObject} {record : Cluster} (one : o.toTyped? Cluster.decode = some record) :
      Decision.eval env (single name [o]) s = (.ok record, s) :=
    Decision.eval_converted_ok_iff.2 ⟨one, rfl⟩
  cases h with
  | missing => rfl
  | ambiguous several =>
    match os, several with
    | _ :: _ :: _, _ => rfl
  | unreadable strange =>
    rw [Decision.eval_bind, single, strange]
    rfl
  | unlabelled one blank =>
    rw [Decision.eval_bind_of_ok (record one), releaseOf, blank]
    rfl
  | invalid one labelled fault =>
    rw [Decision.eval_bind_of_ok (record one), releaseOf, labelled]
    simp only [fault]
    rfl
  | release one labelled reads =>
    rw [Decision.eval_bind_of_ok (record one), releaseOf, labelled]
    simp only [reads]
    rfl

/-- A lookup in a store in memory comes to what is made of the records, and is only counted. -/
theorem eval_releaseVersion {s : MemoryStore} (healthy : s.Healthy)
    (found : Found name (s.records .cluster name) result) :
    Decision.eval MemoryStore.environment (releaseVersion name) s =
      (result, s.count .list .cluster) := by
  have listed : s.answer (.list .cluster (.named name)) =
      (.ok (s.records .cluster name), s.count .list .cluster) := by
    rw [← s.select_named]
    exact MemoryStore.answer_list (healthy _ _)
  have search : Decision.eval MemoryStore.environment (cluster name) s =
      Decision.eval MemoryStore.environment (single name (s.records .cluster name))
        (s.count .list .cluster) := Decision.eval_bind_of_ok (MemoryStore.eval_storeCall_of_ok listed)
  unfold releaseVersion
  rw [Decision.eval_bind, search, ← Decision.eval_bind]
  exact found.eval _

end ReleaseLookup

namespace Compliance

open ReleaseLookup (Found)

/-- The baseline is for the App: the provider is one of those that get it, and the App names a cluster. -/
structure Concerns (settings : ComplianceSettings) (app : App) (cluster : String) : Prop where
  provider : settings.provider ∈ settings.vintageProviders
  label : app.metadata.label? clusterLabel = some cluster
  named : cluster ≠ ""

/-- The last extra source is the reference to the artifact in the App's namespace. -/
def EndsCanonical (settings : ComplianceSettings) (app : App) : Prop :=
  app.extraConfigs.getLast? = some
    { kind := .configMap, name := settings.artifactName, space := app.space, priority := 150 }

/-- The operations that append the reference; a list that is missing or empty is put there first. -/
def appending (settings : ComplianceSettings) (app : App) : List Patch.Operation :=
  (if app.spec.extraConfigs = none ∨ app.spec.extraConfigs = some [] then
      [.add "/spec/extraConfigs" (.arr [])] else []) ++
    [.add "/spec/extraConfigs/-" (.obj [("kind", .str "configMap"),
      ("name", .str settings.artifactName), ("namespace", .str app.space), ("priority", .ofNat 150)])]

/-- What an evaluation comes to, by the records that there are for the names of clusters. -/
inductive Evaluated (settings : ComplianceSettings) (app : App) (records : String → List StoredObject) :
    Except AdmissionError State → Prop where
  | notApplicable (outside : ¬∃ cluster, Concerns settings app cluster) :
      Evaluated settings app records (.ok .notApplicable)
  | alreadyPatched {cluster : String} (inside : Concerns settings app cluster)
      (last : EndsCanonical settings app) : Evaluated settings app records (.ok .alreadyPatched)
  | unknownRelease {cluster : String} {e : AdmissionError} (inside : Concerns settings app cluster)
      (other : ¬EndsCanonical settings app) (found : Found cluster (records cluster) (.error e)) :
      Evaluated settings app records (.error e)
  | belowCutoff {cluster : String} {release : Version} (inside : Concerns settings app cluster)
      (other : ¬EndsCanonical settings app) (found : Found cluster (records cluster) (.ok release))
      (old : release.ltB settings.cutoff = true) :
      Evaluated settings app records (.ok (.belowCutoff release))
  | patchRequired {cluster : String} {release : Version} (inside : Concerns settings app cluster)
      (other : ¬EndsCanonical settings app) (found : Found cluster (records cluster) (.ok release))
      (recent : release.ltB settings.cutoff = false) :
      Evaluated settings app records (.ok (.patchRequired (appending settings app)))

/-- The artifact of a namespace is in place with the content of the settings. What was under its key
before kept its metadata but for the revision, and nothing else was done to the objects. -/
structure Maintained (settings : ComplianceSettings) (space : String) (s t : MemoryStore)
    (placed : StoredObject) : Prop where
  there : t.objects = s.objects.insert (artifactKey settings space) placed
  type : placed.apiVersion = "v1" ∧ placed.kind = "ConfigMap"
  data : placed.body.entries = [("data", .obj [("values", .str settings.artifactContent)])]
  kept : ∀ before, s.objects.get? (artifactKey settings space) = some before →
    placed.metadata = { before.metadata with resourceVersion := placed.metadata.resourceVersion }
  fresh : s.objects.get? (artifactKey settings space) = none →
    placed.metadata = { name := settings.artifactName, namespaceName := some space,
                        resourceVersion := placed.metadata.resourceVersion }

/-- The states in which the artifact is in place. -/
def State.Upholds : State → Prop
  | alreadyPatched | patchRequired _ => True
  | notApplicable | belowCutoff _ => False

variable {settings : ComplianceSettings} {app : App} {cluster : String} {s t : MemoryStore}
  {records : String → List StoredObject} {result : Except AdmissionError State}

/-- What the evaluation asks first is whether the baseline is for the App. -/
theorem applicableCluster?_eq_some_iff :
    applicableCluster? settings app = some cluster ↔ Concerns settings app cluster := by
  unfold applicableCluster? App.clusterName?
  constructor
  · intro h
    split at h
    · next among =>
      obtain ⟨label, named⟩ := Option.filter_eq_some_iff.1 h
      exact ⟨List.contains_iff_mem.1 among, label, of_decide_eq_true named⟩
    · cases h
  · rintro ⟨provider, label, named⟩
    rw [if_pos (List.contains_iff_mem.2 provider), label]
    simp [named]

theorem appending_eq (settings : ComplianceSettings) (app : App) :
    appending settings app = appendOps settings app := by
  have empty : (app.spec.extraConfigs = none ∨ app.spec.extraConfigs = some []) ↔
      app.extraConfigs.isEmpty = true := by
    unfold App.extraConfigs
    rcases app.spec.extraConfigs with _ | _ | ⟨e, es⟩ <;> simp
  unfold appending appendOps
  simp only [empty]
  split <;> rfl

theorem exists_evaluated (settings : ComplianceSettings) (app : App)
    (records : String → List StoredObject) : ∃ result, Evaluated settings app records result := by
  by_cases inside : ∃ cluster, Concerns settings app cluster
  · obtain ⟨cluster, inside⟩ := inside
    by_cases last : EndsCanonical settings app
    · exact ⟨_, .alreadyPatched inside last⟩
    · obtain ⟨found | release, found⟩ := ReleaseLookup.exists_found cluster (records cluster)
      · exact ⟨_, .unknownRelease inside last found⟩
      · cases age : release.ltB settings.cutoff with
        | true => exact ⟨_, .belowCutoff inside last found age⟩
        | false => exact ⟨_, .patchRequired inside last found age⟩
  · exact ⟨_, .notApplicable inside⟩

/-- The upkeep of the artifact leaves it in place. -/
theorem Ensured.maintained {space : String} (h : Ensured settings space s t) :
    ∃ placed, Maintained settings space s t placed := by
  obtain ⟨placed, there, same⟩ := h
  have body : placed.body = (placed.unrevised).body := rfl
  have apiVersion : placed.apiVersion = (placed.unrevised).apiVersion := rfl
  have kind : placed.kind = (placed.unrevised).kind := rfl
  have metadata : placed.metadata =
      { (placed.unrevised).metadata with resourceVersion := placed.metadata.resourceVersion } := rfl
  rw [same] at body apiVersion kind metadata
  refine ⟨placed, there, ?_, ?_, ?_, ?_⟩
  · rw [apiVersion, kind]
    cases s.objects.get? (artifactKey settings space) <;> exact ⟨rfl, rfl⟩
  · rw [body]
    cases s.objects.get? (artifactKey settings space) <;> rfl
  · intro before found
    rw [found] at metadata
    exact metadata
  · intro found
    rw [found] at metadata
    exact metadata

/-- A row for the records is what the evaluation comes to. The artifact is in place afterwards if the
row says so, and otherwise the objects are what they were. -/
theorem Evaluated.eval (healthy : s.Healthy)
    (h : Evaluated settings app (s.records .cluster) result) :
    ∃ t, Decision.eval MemoryStore.environment (evaluate settings app false) s = (result, t) ∧
      (∀ state, result = .ok state → state.Upholds →
        ∃ placed, Maintained settings app.space s t placed) ∧
      ((∀ state, result = .ok state → ¬state.Upholds) → t.objects = s.objects) := by
  unfold evaluate
  cases h with
  | notApplicable outside =>
    have nowhere : applicableCluster? settings app = none := by
      refine Option.eq_none_iff_forall_ne_some.2 fun cluster found => ?_
      exact outside ⟨cluster, applicableCluster?_eq_some_iff.1 found⟩
    rw [nowhere]
    exact ⟨s, rfl, fun _ same upholds => by cases same; exact absurd upholds id, fun _ => rfl⟩
  | @alreadyPatched cluster inside last =>
    obtain ⟨t, ensured, placed⟩ := eval_ensureArtifact settings app.space healthy
    have last' : app.extraConfigs.getLast? = some (canonicalRef settings app.space) := last
    simp only [applicableCluster?_eq_some_iff.2 inside, last', if_true]
    rw [Decision.eval_bind_of_ok ensured]
    exact ⟨t, rfl, fun _ _ _ => placed.maintained, fun other => absurd trivial (other _ rfl)⟩
  | @unknownRelease cluster e inside other found =>
    have other' : ¬app.extraConfigs.getLast? = some (canonicalRef settings app.space) := other
    simp only [applicableCluster?_eq_some_iff.2 inside, other', if_false]
    rw [Decision.eval_bind, ReleaseLookup.eval_releaseVersion healthy found]
    exact ⟨_, rfl, fun _ same _ => (by cases same), fun _ => rfl⟩
  | @belowCutoff cluster release inside other found old =>
    have other' : ¬app.extraConfigs.getLast? = some (canonicalRef settings app.space) := other
    simp only [applicableCluster?_eq_some_iff.2 inside, other', if_false]
    rw [Decision.eval_bind_of_ok (ReleaseLookup.eval_releaseVersion healthy found), if_pos old]
    exact ⟨_, rfl, fun _ same upholds => by cases same; exact absurd upholds id, fun _ => rfl⟩
  | @patchRequired cluster release inside other found recent =>
    have other' : ¬app.extraConfigs.getLast? = some (canonicalRef settings app.space) := other
    have healthy' : (s.count .list .cluster).Healthy := healthy
    obtain ⟨t, ensured, placed⟩ := eval_ensureArtifact settings app.space healthy'
    have placed' : Ensured settings app.space s t := placed
    simp only [applicableCluster?_eq_some_iff.2 inside, other', if_false]
    rw [Decision.eval_bind_of_ok (ReleaseLookup.eval_releaseVersion healthy found), recent,
      if_neg (by decide), Decision.eval_bind_of_ok ensured, appending_eq]
    exact ⟨t, rfl, fun _ _ _ => placed'.maintained, fun other => absurd trivial (other _ rfl)⟩

/-- **The table of an evaluation.** Over a store in memory without faults an evaluation that is not a
rehearsal comes to a result exactly if this is what the table says for the settings, the App and the
cluster records of the store. In the two states that uphold the baseline the artifact is then in place;
after any other result the objects are what they were. -/
theorem evaluate_table (settings : ComplianceSettings) (app : App) {s : MemoryStore}
    (healthy : s.Healthy) :
    ∃ result t, Decision.eval MemoryStore.environment (evaluate settings app false) s = (result, t) ∧
      (∀ result', result = result' ↔ Evaluated settings app (s.records .cluster) result') ∧
      (∀ state, result = .ok state → state.Upholds →
        ∃ placed, Maintained settings app.space s t placed) ∧
      ((∀ state, result = .ok state → ¬state.Upholds) → t.objects = s.objects) := by
  obtain ⟨result, row⟩ := exists_evaluated settings app (s.records .cluster)
  obtain ⟨t, ran, upheld, untouched⟩ := row.eval healthy
  refine ⟨result, t, ran, fun result' => ⟨?_, fun row' => ?_⟩, upheld, untouched⟩
  · rintro rfl
    exact row
  · obtain ⟨t', ran', -⟩ := row'.eval healthy
    rw [ran] at ran'
    cases ran'
    rfl

/-- A store with the records of the sample and with an artifact that was written by hand. -/
def tendedStore : MemoryStore :=
  sampleStore.insert .configMap
    { kind := "ConfigMap"
      metadata := { name := "baseline", namespaceName := some "ns",
                    annotations := some (.ofMembers [("by", "hand")]) }
      body := .ofMembers [("data", .obj [("values", .str "old")]), ("immutable", .bool false)] }

/-- The cluster of the sample as it is read. -/
def sampleCluster : Cluster :=
  { metadata := { name := "c1", resourceVersion := some "1",
                  labels := some (.ofMembers [(releaseVersionLabel, "19.3.0")]) } }

/-- The App of the sample lacks the reference and its cluster is recent: both operations are asked for.
The artifact that was there gets the content of the settings and keeps its annotations. -/
theorem evaluate_table_sample :
    ∃ t placed, Decision.eval MemoryStore.environment (evaluate sampleSettings sampleApp false)
        tendedStore = (.ok (.patchRequired (appending sampleSettings sampleApp)), t) ∧
      (appending sampleSettings sampleApp).length = 2 ∧
      Maintained sampleSettings "ns" tendedStore t placed ∧
      placed.metadata.annotations = some (.ofMembers [("by", "hand")]) := by
  obtain ⟨result, t, ran, exact, upheld, -⟩ :=
    evaluate_table sampleSettings sampleApp (s := tendedStore) fun _ _ => rfl
  have inside : Concerns sampleSettings sampleApp "c1" := ⟨by decide, by decide +kernel, by decide⟩
  have found : Found "c1" (tendedStore.records .cluster "c1")
      (.ok { major := 19, minor := 3, patch := 0, pre := [], build := [] }) :=
    have labelled : sampleCluster.releaseLabel? = some "19.3.0" := by decide +kernel
    .release (by decide +kernel) labelled rfl
  have row := Evaluated.patchRequired inside (by unfold EndsCanonical; decide) found (by decide +kernel)
  obtain rfl := (exact _).2 row
  obtain ⟨placed, maintained⟩ := upheld _ rfl trivial
  exact ⟨t, placed, ran, by decide, maintained, by rw [maintained.kept _ rfl]⟩

end Compliance

end AppAdmission
