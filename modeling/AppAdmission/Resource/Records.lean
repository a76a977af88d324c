import AppAdmission.Resource.App
import AppAdmission.Version.Parser

/-!
# Reference records

The records that decisions are based on: clusters, of which only the metadata matters, releases with
the versions of their components, and config maps.
-/

namespace AppAdmission

open Json (Source)

/-- A workload cluster. -/
structure Cluster where
  metadata : ObjectMeta := {}
  deriving DecidableEq

namespace Cluster

/-- Reads a cluster. -/
def decode (s : Source) : Option Cluster := do
  let fs ← s.record ["metadata"]
  return { metadata := ← fs.orElse "metadata" ObjectMeta.decode {} }

/-- A cluster as JSON. -/
def toJson (c : Cluster) : Json := .obj [("metadata", c.metadata.toJson)]

/-- The release label as it stands; a blank one counts as none. -/
def releaseLabel? (c : Cluster) : Option String :=
  (c.metadata.label? releaseVersionLabel).filter fun v => !(Text.trim v.toList).isEmpty

end Cluster

/-- A component of a release. -/
structure Component where
  name : String
  version : String
  deriving DecidableEq, Repr

namespace Component

/-- Reads a component. -/
def decode (s : Source) : Option Component := do
  let fs ← s.record ["name", "version"]
  return { name := ← fs.need "name" Source.text, version := ← fs.need "version" Source.text }

/-- A component as JSON. -/
def toJson (c : Component) : Json := .obj [("name", .str c.name), ("version", .str c.version)]

end Component

/-- A release: the versions of the components that go together. -/
structure Release where
  metadata : ObjectMeta := {}
  components : List Component := []
  deriving DecidableEq

namespace Release

/-- Reads the list of components. -/
def decodeSpec (s : Source) : Option (List Component) := do
  let fs ← s.record ["components"]
  fs.orElse "components" (Source.list Component.decode) []

/-- Reads a release. -/
def decode (s : Source) : Option Release := do
  let fs ← s.record ["metadata", "spec"]
  return {
    metadata := ← fs.orElse "metadata" ObjectMeta.decode {}
    components := ← fs.orElse "spec" decodeSpec [] }

/-- A release as JSON. -/
def toJson (r : Release) : Json :=
  .obj [("metadata", r.metadata.toJson),
    ("spec", .obj [("components", .arr (r.components.map Component.toJson))])]

/-- The name of the record of the release with a version. -/
def objectName (v : Version) : String := String.ofList ('v' :: v.renderChars)

/-- The version of the first component of a name. -/
def componentVersion? (r : Release) (component : String) : Option String :=
  (r.components.find? fun c => c.name == component).map Component.version

end Release

/-- A config map. -/
structure ConfigMap where
  apiVersion : String := "v1"
  kind : String := "ConfigMap"
  metadata : ObjectMeta := {}
  data : Dict String := .empty
  deriving DecidableEq

namespace ConfigMap

/-- Reads a config map. -/
def decode (s : Source) : Option ConfigMap := do
  let fs ← s.record ["apiVersion", "kind", "metadata", "data"]
  return {
    apiVersion := ← fs.orElse "apiVersion" Source.text "v1"
    kind := ← fs.orElse "kind" Source.text "ConfigMap"
    metadata := ← fs.orElse "metadata" ObjectMeta.decode {}
    data := ← fs.orElse "data" Source.labels .empty }

/-- A config map as JSON. -/
def toJson (c : ConfigMap) : Json :=
  .obj [("apiVersion", .str c.apiVersion), ("kind", .str c.kind), ("metadata", c.metadata.toJson),
    ("data", .ofLabels c.data)]

end ConfigMap

end AppAdmission
