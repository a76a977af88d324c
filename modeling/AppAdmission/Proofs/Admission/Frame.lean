import AppAdmission.Proofs.Admission.Builtin
import AppAdmission.Proofs.Admission.ReleaseLookup
import AppAdmission.Proofs.Json.Free
import AppAdmission.Proofs.Resource.Reading
import AppAdmission.Store.Environment

/-!
# Effect and frame of the built-in chain

When each edit of the built-in chain is made, in terms of the document alone, and what stays: the
chain adds what a new App of a cluster lacks and nothing else.
-/

namespace AppAdmission

open Json (Source)

variable {σ : Type} {env : Environment σ} {settings : ComplianceSettings} {verb : Verb} {doc : Json}
  {a : App} {s t : σ}

/-- A document is created for a cluster: its label names one. -/
def CreatedFor (verb : Verb) (doc : Json) (cluster : String) : Prop :=
  verb = .create ∧ doc.at? ["metadata", "labels", clusterLabel] = some (.str cluster) ∧ cluster ≠ ""

/-- The edits are those that a document calls for. -/
structure Edits.Due (env : Environment σ) (settings : ComplianceSettings) (verb : Verb) (doc : Json)
    (s : σ) (e : Edits) : Prop where
  /-- The label is the version of the operator in the release of the cluster. -/
  label : ∀ version, e.label = some version → ∃ cluster t, CreatedFor verb doc cluster ∧
    doc.at? App.labelPlace = none ∧
    ReleaseLookup.Tells env cluster Defaults.operatorComponent s version t
  /-- The label is left out only where it is there or there is no cluster. -/
  unlabelled : e.label = none → ∀ cluster, CreatedFor verb doc cluster →
    doc.at? App.labelPlace ≠ none
  config : ∀ c, e.config = some c ↔ ∃ cluster, CreatedFor verb doc cluster ∧
    doc.Lacks App.configPlace ∧ c = Defaults.clusterValues (App.spaceIn doc) cluster
  access : ∀ ref, e.access = some ref ↔ ∃ cluster, CreatedFor verb doc cluster ∧
    ((∃ ks, doc.at? ["spec", "kubeConfig"] = some (.obj ks)) ∧
      doc.at? ["spec", "kubeConfig", "inCluster"] ≠ some (.bool true) ∧ doc.Lacks App.accessPlace) ∧
    ref = Defaults.clusterAccess (App.spaceIn doc) cluster
  extra : ∀ x, e.extra = some x → x = Compliance.canonicalRef settings (App.spaceIn doc)

theorem newCluster?_eq_some_iff {ss : List (String × Json)} (r : App.ReadFrom doc a)
    (spec : doc.at? ["spec"] = some (.obj ss)) {cluster : String} :
    Defaults.newCluster? verb a = some cluster ↔ CreatedFor verb doc cluster := by
  unfold Defaults.newCluster? CreatedFor
  rw [← r.clusterName?_eq_some_iff spec]
  by_cases create : verb = .create
  · simp [create]
  · simp [create]

/-- A value for a new App of a cluster, under a condition. -/
theorem given_eq_some_iff {α : Type} {lacks : Bool} {cluster? : Option String} {f : String → α} {x : α} :
    (if lacks = true then cluster?.map f else none) = some x ↔
      ∃ cluster, cluster? = some cluster ∧ lacks = true ∧ x = f cluster := by
  cases lacks <;> cases cluster? <;> simp [eq_comm]

/-- **Effect and frame of the built-in chain.** If the chain is allowed on a document that holds an
App, its operations apply to the document. The result holds an App again and is the document with the
edits that it calls for, at four places; at any other place nothing changes. Documents that arrive
are free, see `ReviewRequest.canonicalB_object`. -/
theorem runMutators_builtin_edits {request : AdmissionRequest App} {document : Json}
    {ops : List Patch.Operation} {ss : List (String × Json)} (free : document.canonicalB = true)
    (read : App.decode (.ofJson document) = some request.object)
    (spec : document.at? ["spec"] = some (.obj ss))
    (shape : ∀ j, document.at? ["spec", "kubeConfig"] = some j → j ≠ .null → ∃ ks, j = .obj ks)
    (ran : Decision.eval env (Webhook.runMutators request document (builtinMutators settings)) s =
      (.ok (.allowed ops), t)) :
    ∃ e : Edits, Patch.apply ops document = .ok (e.on document) ∧
      (∃ a, App.decode (.ofJson (e.on document)) = some a) ∧
      e.Due env settings request.operation document s ∧
      ∀ path, (∀ place ∈ Edits.places, Json.Apart place path) →
        (e.on document).at? path = document.at? path := by
  have r : App.ReadFrom document request.object := ⟨free, read⟩
  obtain ⟨e, state, u, labelled, config, access, settled, extra, applied, r'⟩ := eval_builtin_ok r ran
  refine ⟨e, applied, ⟨_, r'.read⟩, ?_, fun path apart => e.at?_on apart document⟩
  have isNew : ∀ cluster, Defaults.newCluster? request.operation request.object = some cluster ↔
      CreatedFor request.operation document cluster := fun cluster => newCluster?_eq_some_iff r spec
  have unlabelled : request.object.metadata.label? operatorVersionLabel = none ↔
      document.at? App.labelPlace = none := r.label?_eq_none_iff spec
  constructor
  · intro version given
    rw [given] at labelled
    cases labelled with
    | given new lacks found =>
      exact ⟨_, u, (isNew _).1 new, unlabelled.1 lacks, .of_eval found⟩
  · intro given cluster created lacks
    rw [given] at labelled
    cases labelled with
    | kept _ has =>
      rw [unlabelled.2 lacks] at has
      cases has
    | passed unasked =>
      rw [(isNew cluster).2 created] at unasked
      cases unasked
  · intro c
    rw [config, Defaults.configFor, given_eq_some_iff, r.config_isNone_iff spec, r.space_eq spec]
    simp only [isNew]
  · intro ref
    rw [access, Defaults.accessFor, given_eq_some_iff, r.lacksAccess_iff spec shape, r.space_eq spec]
    simp only [isNew]
  · intro x given
    rw [extra, r.space_eq spec] at given
    cases settled with
    | patchRequired => exact (Option.some.inj given).symm
    | notApplicable | alreadyPatched | belowCutoff => cases given

/-- Settings for a baseline from release 19.2.0 on. -/
def sampleSettings : ComplianceSettings where
  provider := "aws"
  vintageProviders := ["aws"]
  cutoff := { major := 19, minor := 2, patch := 0, pre := [], build := [] }
  artifactName := "baseline"
  artifactContent := "enforced: true"

/-- A store with one cluster, on release 19.3.0, and the record of that release. -/
def sampleStore : MemoryStore :=
  (({} : MemoryStore).insert .cluster
      { metadata := { name := "c1", labels := some (.ofMembers [(releaseVersionLabel, "19.3.0")]) } })
    |>.insert .release
      { metadata := { name := "v19.3.0" }
        body := .ofMembers [("spec", .obj [("components",
          .arr [.obj [("name", .str "app-operator"), ("version", .str "5.1.0")]])])] }

/-- An App for the cluster, with neither configuration nor access data. -/
def sampleDocument : Json :=
  .obj [("metadata", .obj [("labels", .obj [(clusterLabel, .str "c1")]), ("name", .str "app"),
      ("namespace", .str "ns")]),
    ("spec", .obj [("config", .null), ("kubeConfig", .obj [("inCluster", .bool false)])])]

/-- The App as it is read. -/
def sampleApp : App :=
  { metadata := { name := "app", namespaceName := some "ns",
                  labels := some (.ofMembers [(clusterLabel, "c1")]) }
    spec := { kubeConfig := some {} } }

/-- A request to create the App. -/
def sampleRequest : ReviewRequest where
  uid := "u"
  operation := .create
  object := some sampleDocument

/-- The operations that a chain came to, if it was allowed. -/
def allowedOps? : Except AdmissionError ChainResult → Option (List Patch.Operation)
  | .ok (.allowed ops) => some ops
  | _ => none

theorem allowedOps?_eq_some {result : Except AdmissionError ChainResult} {ops : List Patch.Operation}
    (h : allowedOps? result = some ops) : result = .ok (.allowed ops) := by
  unfold allowedOps? at h
  split at h
  · cases h
    rfl
  · cases h

/-- All four edits are made on an App that lacks everything. -/
theorem runMutators_builtin_edits_sample :
    ∃ (ops : List Patch.Operation) (e : Edits), ops.length = 5 ∧
      Patch.apply ops sampleDocument = .ok (e.on sampleDocument) ∧
      e.Due MemoryStore.environment sampleSettings .create sampleDocument sampleStore := by
  rcases ran : Decision.eval MemoryStore.environment
      (Webhook.runMutators (Webhook.requestFor sampleRequest sampleApp) sampleDocument
        (builtinMutators sampleSettings)) sampleStore with ⟨result, t⟩
  have five : (allowedOps? (Decision.eval MemoryStore.environment
      (Webhook.runMutators (Webhook.requestFor sampleRequest sampleApp) sampleDocument
        (builtinMutators sampleSettings)) sampleStore).1).map List.length = some 5 := by
    decide +kernel
  rw [ran] at five
  obtain ⟨ops, came, count⟩ := Option.map_eq_some_iff.1 five
  obtain rfl := allowedOps?_eq_some came
  have shape : ∀ j, sampleDocument.at? ["spec", "kubeConfig"] = some j → j ≠ .null →
      ∃ ks, j = .obj ks := by
    rintro j there -
    cases there
    exact ⟨_, rfl⟩
  obtain ⟨e, applied, -, due, -⟩ :=
    runMutators_builtin_edits (by decide +kernel) rfl rfl shape ran
  exact ⟨ops, e, count, applied, due⟩

end AppAdmission
