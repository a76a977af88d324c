import AppAdmission.Resource.Metadata

/-!
# Apps

An App asks for a chart from a catalog to be installed, with configuration from maps and secrets
that it names. Extra configuration sources have priorities; where they disagree the higher one wins.
-/

namespace AppAdmission

open Json (Source)

/-- The label that names the workload cluster of an App. -/
def clusterLabel : String := "giantswarm.io/cluster"

/-- The label that names the operator version in charge of an App. -/
def operatorVersionLabel : String := "app-operator.giantswarm.io/version"

/-- The label of a cluster record that names its release. -/
def releaseVersionLabel : String := "release.giantswarm.io/version"

/-- A reference to an object by namespace and name. -/
structure NamespacedRef where
  name : String := ""
  space : String := ""
  deriving DecidableEq, Repr

namespace NamespacedRef

/-- Reads a reference. -/
def decode (s : Source) : Option NamespacedRef := do
  let fs ← s.record ["name", "namespace"]
  return {
    name := ← fs.orElse "name" Source.text ""
    space := ← fs.orElse "namespace" Source.text "" }

/-- A reference as JSON. -/
def toJson (r : NamespacedRef) : Json :=
  .obj [("name", .str r.name), ("namespace", .str r.space)]

end NamespacedRef

/-- A config map and a secret, either of which may be missing. -/
structure AppConfig where
  configMap : Option NamespacedRef := none
  secret : Option NamespacedRef := none
  deriving DecidableEq, Repr

namespace AppConfig

/-- Reads a pair of references. -/
def decode (s : Source) : Option AppConfig := do
  let fs ← s.record ["configMap", "secret"]
  return {
    configMap := ← fs.optional "configMap" NamespacedRef.decode
    secret := ← fs.optional "secret" NamespacedRef.decode }

/-- A pair of references as JSON. -/
def toJson (c : AppConfig) : Json :=
  .obj (Json.optional "configMap" (c.configMap.map NamespacedRef.toJson)
    ++ Json.optional "secret" (c.secret.map NamespacedRef.toJson))

end AppConfig

/-- How the target cluster is reached. -/
structure KubeConfig where
  inCluster : Bool := false
  secret : Option NamespacedRef := none
  deriving DecidableEq, Repr

namespace KubeConfig

/-- Reads the access to a cluster. -/
def decode (s : Source) : Option KubeConfig := do
  let fs ← s.record ["inCluster", "secret"]
  return {
    inCluster := ← fs.orElse "inCluster" Source.flag false
    secret := ← fs.optional "secret" NamespacedRef.decode }

/-- The access to a cluster as JSON. -/
def toJson (k : KubeConfig) : Json :=
  .obj (("inCluster", .bool k.inCluster)
    :: Json.optional "secret" (k.secret.map NamespacedRef.toJson))

end KubeConfig

/-- What an extra configuration source is. -/
inductive SourceKind where
  | configMap
  | secret
  deriving DecidableEq, Repr

namespace SourceKind

/-- The name of a kind. -/
def name : SourceKind → String
  | configMap => "configMap"
  | secret => "secret"

/-- Reads a kind. -/
def decode (s : Source) : Option SourceKind := do
  let name ← s.variant
  if name = "configMap" then return configMap
  else if name = "secret" then return secret
  else none

end SourceKind

/-- An extra configuration source. -/
structure ExtraConfig where
  kind : SourceKind
  name : String
  space : String
  priority : Nat
  deriving DecidableEq, Repr

namespace ExtraConfig

/-- The priority of a source that names none. -/
def defaultPriority : Nat := 25

/-- The highest priority. -/
def maxPriority : Nat := 150

/-- Reads an extra configuration source. -/
def decode (s : Source) : Option ExtraConfig := do
  let fs ← s.record ["kind", "name", "namespace", "priority"]
  return {
    kind := ← fs.orElse "kind" SourceKind.decode .configMap
    name := ← fs.need "name" Source.text
    space := ← fs.orElse "namespace" Source.text ""
    priority := ← fs.orElse "priority" (Source.smaller 0x100000000) defaultPriority }

/-- An extra configuration source as JSON. -/
def toJson (e : ExtraConfig) : Json :=
  .obj [("kind", .str e.kind.name), ("name", .str e.name), ("namespace", .str e.space),
    ("priority", .ofNat e.priority)]

end ExtraConfig

/-- What an App asks for. -/
structure AppSpec where
  name : String := ""
  space : String := ""
  catalog : String := ""
  version : String := ""
  config : Option AppConfig := none
  userConfig : Option AppConfig := none
  extraConfigs : Option (List ExtraConfig) := none
  kubeConfig : Option KubeConfig := none
  deriving DecidableEq, Repr

namespace AppSpec

/-- Reads what an App asks for. -/
def decode (s : Source) : Option AppSpec := do
  let fs ← s.record ["name", "namespace", "catalog", "version", "config", "userConfig",
    "extraConfigs", "kubeConfig"]
  return {
    name := ← fs.orElse "name" Source.text ""
    space := ← fs.orElse "namespace" Source.text ""
    catalog := ← fs.orElse "catalog" Source.text ""
    version := ← fs.orElse "version" Source.text ""
    config := ← fs.optional "config" AppConfig.decode
    userConfig := ← fs.optional "userConfig" AppConfig.decode
    extraConfigs := ← fs.optional "extraConfigs" (Source.list ExtraConfig.decode)
    kubeConfig := ← fs.optional "kubeConfig" KubeConfig.decode }

/-- What an App asks for as JSON. -/
def toJson (s : AppSpec) : Json :=
  .obj ([("name", .str s.name), ("namespace", .str s.space), ("catalog", .str s.catalog),
      ("version", .str s.version)]
    ++ Json.optional "config" (s.config.map AppConfig.toJson)
    ++ Json.optional "userConfig" (s.userConfig.map AppConfig.toJson)
    ++ Json.optional "extraConfigs" (s.extraConfigs.map fun es => .arr (es.map ExtraConfig.toJson))
    ++ Json.optional "kubeConfig" (s.kubeConfig.map KubeConfig.toJson))

end AppSpec

/-- An App. -/
structure App where
  apiVersion : String := "application.giantswarm.io/v1alpha1"
  kind : String := "App"
  metadata : ObjectMeta := {}
  spec : AppSpec
  deriving DecidableEq

namespace App

/-- Reads an App. -/
def decode (s : Source) : Option App := do
  let fs ← s.record ["apiVersion", "kind", "metadata", "spec"]
  return {
    apiVersion := ← fs.orElse "apiVersion" Source.text "application.giantswarm.io/v1alpha1"
    kind := ← fs.orElse "kind" Source.text "App"
    metadata := ← fs.orElse "metadata" ObjectMeta.decode {}
    spec := ← fs.need "spec" AppSpec.decode }

/-- An App as JSON. -/
def toJson (a : App) : Json :=
  .obj [("apiVersion", .str a.apiVersion), ("kind", .str a.kind), ("metadata", a.metadata.toJson),
    ("spec", a.spec.toJson)]

/-- The namespace of an App, empty if it has none. -/
def space (a : App) : String := a.metadata.space

/-- The workload cluster of an App; an empty label counts as none. -/
def clusterName? (a : App) : Option String :=
  (a.metadata.label? clusterLabel).filter (· ≠ "")

/-- The App is being torn down. -/
def isBeingDeleted (a : App) : Bool := a.metadata.deletionTimestamp.isSome

/-- The extra configuration sources, none if the list is missing. -/
def extraConfigs (a : App) : List ExtraConfig := a.spec.extraConfigs.getD []

end App

end AppAdmission
