import AppAdmission.Admission.Handler
import AppAdmission.Admission.ReleaseLookup

/-!
# The compliance baseline

Apps on clusters of certain providers, at or above a cutoff release, get a baseline: a reference
to a config map of values, appended to their extra configuration with the highest priority. The
config map itself, the artifact, is kept in the namespace of the App with the content that the
settings give. An evaluation ends in one of four states; in two of them the artifact is in place.
-/

namespace AppAdmission.Compliance

/-- The state in which an evaluation ends. -/
inductive State where
  | notApplicable
  | alreadyPatched
  | belowCutoff (release : Version)
  | patchRequired (patch : List Patch.Operation)
  deriving DecidableEq

/-- The operations that a state calls for. -/
def State.patch : State → List Patch.Operation
  | patchRequired ops => ops
  | _ => []

/-- The reference that is appended for Apps of a namespace. -/
def canonicalRef (settings : ComplianceSettings) (space : String) : ExtraConfig :=
  { kind := .configMap, name := settings.artifactName, space := space, priority := ExtraConfig.maxPriority }

/-- The values of the artifact. -/
def artifactData (settings : ComplianceSettings) : Json :=
  .obj [("values", .str settings.artifactContent)]

/-- The artifact of a namespace. -/
def artifact (settings : ComplianceSettings) (space : String) : StoredObject :=
  { apiVersion := "v1"
    kind := "ConfigMap"
    metadata := .namespaced space settings.artifactName
    body := .ofMembers [("data", artifactData settings)] }

/-- The artifact with the metadata of the object that is there. Without a revision the update goes
through whatever happened in between. -/
def refreshed (desired current : StoredObject) : StoredObject :=
  { desired with metadata := { current.metadata with resourceVersion := none } }

/-- Puts the artifact in the place of the one that is there. -/
def refreshArtifact (desired : StoredObject) (space : String) : Decision Unit := do
  let current ← Decision.storeCall "get compliance artifact" (.get .configMap (some space) desired.name)
  let _ ← Decision.storeCall "update compliance artifact" (.update .configMap (refreshed desired current))

/-- Sees to it that the artifact is there with its content, except in a dry run. -/
def ensureArtifact (settings : ComplianceSettings) (space : String) (dryRun : Bool) : Decision Unit := do
  if dryRun then return
  Decision.ensureActive "ensure compliance artifact"
  let desired := artifact settings space
  match ← Decision.tryCall "create compliance artifact" (.create .configMap desired) with
  | .ok _ => return
  | .error (.alreadyExists _ _) => refreshArtifact desired space
  | .error e => throw (.store "create compliance artifact" e)

/-- The operations that append the reference to an App's extra configuration. -/
def appendOps (settings : ComplianceSettings) (app : App) : List Patch.Operation :=
  let append := Patch.Operation.add "/spec/extraConfigs/-" (canonicalRef settings app.space).toJson
  if app.extraConfigs.isEmpty then [.add "/spec/extraConfigs" (.arr []), append] else [append]

/-- The cluster of an App that the baseline is for, if it is for any. -/
def applicableCluster? (settings : ComplianceSettings) (app : App) : Option String :=
  if settings.vintageProviders.contains settings.provider then app.clusterName? else none

/-- Evaluates an App. In a dry run the artifact is left alone. -/
def evaluate (settings : ComplianceSettings) (app : App) (dryRun : Bool) : Decision State :=
  match applicableCluster? settings app with
  | none => return .notApplicable
  | some cluster => do
    if app.extraConfigs.getLast? = some (canonicalRef settings app.space) then
      ensureArtifact settings app.space dryRun
      return .alreadyPatched
    else
      let release ← ReleaseLookup.releaseVersion cluster
      if release.ltB settings.cutoff then
        return .belowCutoff release
      else
        ensureArtifact settings app.space dryRun
        return .patchRequired (appendOps settings app)

/-- The mutator that adds the baseline. -/
def mutator (settings : ComplianceSettings) : Mutator App where
  name := "compliance"
  mutate request := do
    return (← evaluate settings request.object request.dryRun).patch

end AppAdmission.Compliance
