import AppAdmission.Json.Record
import AppAdmission.Json.Printer
import AppAdmission.Instant

/-!
# Object metadata

The metadata that every object carries. The fields that decisions look at have types of their own;
all others are carried along in `extra` and written back after them, so that replacing an object does
not drop them.
-/

namespace AppAdmission

open Json (Source)

/-- Metadata of an object. No labels and an empty map of labels are different. -/
structure ObjectMeta where
  name : String := ""
  namespaceName : Option String := none
  labels : Option (Dict String) := none
  annotations : Option (Dict String) := none
  resourceVersion : Option String := none
  deletionTimestamp : Option Instant := none
  extra : Dict Json := .empty
  deriving DecidableEq

namespace ObjectMeta

instance : Inhabited ObjectMeta := ⟨{}⟩

/-- The names of the fields with types of their own. -/
def fieldNames : List String :=
  ["name", "namespace", "labels", "annotations", "resourceVersion", "deletionTimestamp"]

/-- Metadata of an object in a namespace. -/
def namespaced (space name : String) : ObjectMeta :=
  { name := name, namespaceName := some space }

/-- The value of a label. -/
def label? (m : ObjectMeta) (key : String) : Option String :=
  m.labels.bind (·.get? key)

/-- The namespace, empty for an object without one. -/
def space (m : ObjectMeta) : String :=
  m.namespaceName.getD ""

/-- Reads a point in time. -/
def readInstant (s : Source) : Option Instant := do
  Instant.parse? (← s.text).toList

/-- Reads metadata. -/
def decode (s : Source) : Option ObjectMeta := do
  let (fs, extra) ← s.openRecord fieldNames
  return {
    name := ← fs.orElse "name" Source.text ""
    namespaceName := ← fs.optional "namespace" Source.text
    labels := ← fs.optional "labels" Source.labels
    annotations := ← fs.optional "annotations" Source.labels
    resourceVersion := ← fs.optional "resourceVersion" Source.text
    deletionTimestamp := ← fs.optional "deletionTimestamp" readInstant
    extra := extra }

/-- Metadata as JSON. -/
def toJson (m : ObjectMeta) : Json :=
  .obj (("name", .str m.name)
    :: Json.optional "namespace" (m.namespaceName.map .str)
    ++ Json.optional "labels" (m.labels.map Json.ofLabels)
    ++ Json.optional "annotations" (m.annotations.map Json.ofLabels)
    ++ Json.optional "resourceVersion" (m.resourceVersion.map .str)
    ++ Json.optional "deletionTimestamp" (m.deletionTimestamp.map fun t => .str t.render)
    ++ m.extra.entries)

end ObjectMeta

end AppAdmission
