import AppAdmission.Admission.Defaults
import AppAdmission.Proofs.Decision
import AppAdmission.Proofs.Patch.Sequence
import AppAdmission.Proofs.Resource.Places

/-!
# What defaults come to

A new App for a cluster is given a label, a configuration and access data, each only if it lacks it.
The label is the one thing that the store is asked for. The operations put what is given in its place
in the document, and the App that is then read has it.
-/

namespace AppAdmission

open Json (Source)

/-- The document with a value at a place, if there is one to put. -/
def Json.putIf (doc : Json) (place : List String) (value : Option Json) : Json :=
  value.elim doc (doc.put place)

namespace Defaults

variable {σ : Type} {env : Environment σ} {verb : Verb} {a : App} {cluster : String} {s t : σ}

/-- The cluster that an App is created for. -/
def newCluster? (verb : Verb) (a : App) : Option String :=
  if verb = .create then a.clusterName? else none

/-- The configuration that an App is given. -/
def configFor (verb : Verb) (a : App) : Option AppConfig :=
  if a.spec.config.isNone then (newCluster? verb a).map (clusterValues a.space) else none

/-- The access data that an App is given. -/
def accessFor (verb : Verb) (a : App) : Option NamespacedRef :=
  if a.spec.kubeConfig.any fun k => !k.inCluster && k.secret.isNone then
    (newCluster? verb a).map (clusterAccess a.space)
  else none

/-- The label that an App is given: the version of the operator in the release of its cluster, as the
store tells it, or none if it has a label or needs none. -/
inductive Labelled (env : Environment σ) (verb : Verb) (a : App) :
    σ → Option String → σ → Prop where
  | given {cluster version : String} {s t : σ} (isNew : newCluster? verb a = some cluster)
      (lacks : a.metadata.label? operatorVersionLabel = none)
      (found : Decision.eval env (operatorVersion cluster) s = (.ok version, t)) :
      Labelled env verb a s (some version) t
  | kept {cluster : String} (isNew : newCluster? verb a = some cluster)
      (has : (a.metadata.label? operatorVersionLabel).isSome) (s : σ) : Labelled env verb a s none s
  | passed (unasked : newCluster? verb a = none) (s : σ) : Labelled env verb a s none s

/-- An App of a cluster has labels already. -/
theorem labels_isSome (h : a.clusterName? = some cluster) : a.metadata.labels.isSome = true := by
  unfold App.clusterName? ObjectMeta.label? at h
  cases labels : a.metadata.labels with
  | none =>
    rw [labels] at h
    cases h
  | some d => rfl

theorem clusterName?_of_newCluster? (h : newCluster? verb a = some cluster) :
    a.clusterName? = some cluster := by
  unfold newCluster? at h
  split at h
  · exact h
  · cases h

/-- The operations that put a label, a configuration and access data into a document, each only if
there is one. -/
def patchFor (version : Option String) (config : Option AppConfig) (access : Option NamespacedRef) :
    List Patch.Operation :=
  (version.toList.map fun v =>
      .add (Pointer.ofTokens ["metadata", "labels", operatorVersionLabel]) (.str v))
    ++ (config.toList.map fun c => .add "/spec/config" c.toJson)
    ++ (access.toList.map fun r => .add "/spec/kubeConfig/secret" r.toJson)

theorem operations_of_none (h : newCluster? verb a = none) : operations verb a = pure [] := by
  unfold newCluster? at h
  unfold operations
  split at h
  · next create => simp [create, h]
  · next other => simp [other]

theorem operations_of_some (h : newCluster? verb a = some cluster) : operations verb a = (do
    let labelled ← label a cluster
    return labelled ++ configOps a cluster ++ accessOps a cluster) := by
  unfold newCluster? at h
  unfold operations
  split at h
  · next create => simp [create, h]
  · cases h

/-- For a cluster, the operations on the configuration and the access data put what is given. -/
theorem patchFor_of_some (h : newCluster? verb a = some cluster) (version : Option String) :
    patchFor version (configFor verb a) (accessFor verb a) =
      patchFor version none none ++ configOps a cluster ++ accessOps a cluster := by
  have config : (configFor verb a).toList.map (fun c => Patch.Operation.add "/spec/config" c.toJson) =
      configOps a cluster := by
    unfold configFor configOps
    rw [h]
    split <;> rfl
  have access : (accessFor verb a).toList.map
      (fun r => Patch.Operation.add "/spec/kubeConfig/secret" r.toJson) = accessOps a cluster := by
    unfold accessFor accessOps
    rw [h]
    cases a.spec.kubeConfig with
    | none => rfl
    | some k =>
      simp only [Option.any_some]
      split <;> rfl
  unfold patchFor
  rw [config, access]
  simp

theorem patchFor_of_none (h : newCluster? verb a = none) :
    patchFor none (configFor verb a) (accessFor verb a) = [] := by
  unfold patchFor configFor accessFor
  rw [h]
  split <;> split <;> rfl

/-- Looking up the label comes to the operation that sets what is given. -/
theorem eval_label_iff {ops : List Patch.Operation} (h : newCluster? verb a = some cluster) :
    Decision.eval env (label a cluster) s = (.ok ops, t) ↔
      ∃ version, Labelled env verb a s version t ∧ ops = patchFor version none none := by
  unfold label
  cases has : a.metadata.label? operatorVersionLabel with
  | some v =>
    simp only [Option.isSome_some, if_true, Decision.eval_pure_ok_iff]
    constructor
    · rintro ⟨rfl, rfl⟩
      exact ⟨none, .kept h (by rw [has]; rfl) s, rfl⟩
    · rintro ⟨version, labelled, rfl⟩
      cases labelled with
      | given _ lacks _ =>
        rw [has] at lacks
        cases lacks
      | kept => exact ⟨rfl, rfl⟩
      | passed unasked =>
        rw [h] at unasked
        cases unasked
  | none =>
    simp only [Option.isSome_none, Bool.false_eq_true, if_false, Decision.eval_bind_ok_iff,
      Decision.eval_pure_ok_iff]
    have one : ∀ version, labelOps a version = patchFor (some version) none none := by
      intro version
      have labels := labels_isSome (clusterName?_of_newCluster? h)
      unfold labelOps patchFor
      rw [Option.isNone_eq_false_iff.2 labels]
      rfl
    constructor
    · rintro ⟨version, u, found, rfl, rfl⟩
      exact ⟨some version, .given h has found, one version⟩
    · rintro ⟨version, labelled, rfl⟩
      cases labelled with
      | @given other version _ _ isNew _ found =>
        rw [h] at isNew
        cases isNew
        exact ⟨version, t, found, one version, rfl⟩
      | kept _ present =>
        rw [has] at present
        cases present
      | passed unasked =>
        rw [h] at unasked
        cases unasked

/-- The operations that come out are those that put what the App is given. -/
theorem eval_operations_iff {ops : List Patch.Operation} :
    Decision.eval env (operations verb a) s = (.ok ops, t) ↔ ∃ version, Labelled env verb a s version t ∧
      ops = patchFor version (configFor verb a) (accessFor verb a) := by
  cases h : newCluster? verb a with
  | none =>
    rw [operations_of_none h, Decision.eval_pure_ok_iff]
    constructor
    · rintro ⟨rfl, rfl⟩
      exact ⟨none, .passed h s, (patchFor_of_none h).symm⟩
    · rintro ⟨version, labelled, rfl⟩
      cases labelled with
      | given isNew _ _ =>
        rw [h] at isNew
        cases isNew
      | kept isNew _ =>
        rw [h] at isNew
        cases isNew
      | passed => exact ⟨(patchFor_of_none h).symm, rfl⟩
  | some cluster =>
    rw [operations_of_some h, Decision.eval_bind_ok_iff]
    constructor
    · rintro ⟨labelOps, u, looked, rest⟩
      obtain ⟨rfl, rfl⟩ := Decision.eval_pure_ok_iff.1 rest
      obtain ⟨version, labelled, rfl⟩ := (eval_label_iff h).1 looked
      exact ⟨version, labelled, (patchFor_of_some h version).symm⟩
    · rintro ⟨version, labelled, rfl⟩
      rw [patchFor_of_some h version]
      exact ⟨_, t, (eval_label_iff h).2 ⟨version, labelled, rfl⟩, rfl⟩

/-- The App with what it is given. -/
def filled (a : App) (version : Option String) (config : Option AppConfig)
    (access : Option NamespacedRef) : App :=
  let a := version.elim a (a.withLabel operatorVersionLabel)
  let a := config.elim a a.withConfig
  access.elim a a.withAccess

/-- The document with what the App is given in its places. -/
def filledIn (doc : Json) (version : Option String) (config : Option AppConfig)
    (access : Option NamespacedRef) : Json :=
  ((doc.putIf App.labelPlace (version.map .str)).putIf App.configPlace
    (config.map AppConfig.toJson)).putIf App.accessPlace (access.map NamespacedRef.toJson)

/-- The operations on a document put what is given in its places, and the App that is then read is the
one with what it is given. -/
theorem patchFor_effect {doc result : Json} {version : Option String} {config : Option AppConfig}
    {access : Option NamespacedRef} (r : App.ReadFrom doc a)
    (h : Patch.apply (patchFor version config access) doc = .ok result) :
    result = filledIn doc version config access ∧
      App.ReadFrom result (filled a version config access) := by
  unfold patchFor at h
  obtain ⟨d2, h, last⟩ := Patch.apply_append_ok_iff.1 h
  obtain ⟨d1, first, second⟩ := Patch.apply_append_ok_iff.1 h
  obtain ⟨rfl, r1⟩ : d1 = doc.putIf App.labelPlace (version.map .str) ∧
      App.ReadFrom d1 (version.elim a (a.withLabel operatorVersionLabel)) := by
    cases version with
    | none =>
      cases first
      exact ⟨rfl, r⟩
    | some v =>
      obtain ⟨same, -, r⟩ := r.apply_label ((Patch.apply_singleton _ _).symm.trans first)
      exact ⟨same, r⟩
  obtain ⟨rfl, r2⟩ : d2 = (doc.putIf App.labelPlace (version.map .str)).putIf App.configPlace
      (config.map AppConfig.toJson) ∧ App.ReadFrom d2 (filled a version config none) := by
    cases config with
    | none =>
      cases second
      exact ⟨rfl, r1⟩
    | some c => exact r1.apply_config ((Patch.apply_singleton _ _).symm.trans second)
  cases access with
  | none =>
    cases last
    exact ⟨rfl, r2⟩
  | some ref => exact r2.apply_access ((Patch.apply_singleton _ _).symm.trans last)

end Defaults

end AppAdmission
