import AppAdmission.Admission.Handler
import AppAdmission.Admission.ReleaseLookup
import AppAdmission.Patch.Pointer

/-!
# Defaults of new Apps

A new App for a workload cluster is given what it lacks to be reconciled: the label of the operator
version in the cluster's release, the references to the cluster's values, and the reference to the
cluster's access data.
-/

namespace AppAdmission.Defaults

/-- The component whose version the label names. -/
def operatorComponent : String := "app-operator"

/-- The version of the operator in the release that a cluster runs. -/
def operatorVersion (cluster : String) : Decision String := do
  ReleaseLookup.componentVersion (← ReleaseLookup.releaseVersion cluster) operatorComponent

/-- The operations that set the label to a version. -/
def labelOps (app : App) (version : String) : List Patch.Operation :=
  (if app.metadata.labels.isNone then [.add "/metadata/labels" (.obj [])] else [])
    ++ [.add (Pointer.ofTokens ["metadata", "labels", operatorVersionLabel]) (.str version)]

/-- The label of the operator version, looked up if the App has none. -/
def label (app : App) (cluster : String) : Decision (List Patch.Operation) :=
  if (app.metadata.label? operatorVersionLabel).isSome then return []
  else return labelOps app (← operatorVersion cluster)

/-- The references to the values of a cluster. -/
def clusterValues (space cluster : String) : AppConfig :=
  let ref : NamespacedRef := { name := cluster ++ "-cluster-values", space := space }
  { configMap := some ref, secret := some ref }

/-- The reference to the access data of a cluster. -/
def clusterAccess (space cluster : String) : NamespacedRef :=
  { name := cluster ++ "-kubeconfig", space := space }

/-- The values of the cluster, for an App without configuration. -/
def configOps (app : App) (cluster : String) : List Patch.Operation :=
  if app.spec.config.isNone then [.add "/spec/config" (clusterValues app.space cluster).toJson] else []

/-- The access data of the cluster, for an App that goes there and names none. -/
def accessOps (app : App) (cluster : String) : List Patch.Operation :=
  match app.spec.kubeConfig with
  | none => []
  | some k =>
    if !k.inCluster && k.secret.isNone then
      [.add "/spec/kubeConfig/secret" (clusterAccess app.space cluster).toJson]
    else []

/-- The operations that give an App what it lacks. -/
def operations (operation : Verb) (app : App) : Decision (List Patch.Operation) :=
  if operation ≠ .create then return []
  else match app.clusterName? with
    | none => return []
    | some cluster => do
      let labelled ← label app cluster
      return labelled ++ configOps app cluster ++ accessOps app cluster

/-- The mutator that fills in defaults. -/
def mutator : Mutator App where
  name := "defaults"
  mutate request := operations request.operation request.object

end AppAdmission.Defaults
