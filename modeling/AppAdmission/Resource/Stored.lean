import AppAdmission.Resource.Records

/-!
# Stored objects

The form in which a store holds an object of any kind: its type, its metadata, and everything else
as free values. Typed resources go into this form and come back through their JSON.
-/

namespace AppAdmission

open Json (Source)

/-- The kinds of objects, in the order in which a store keeps them. -/
inductive ResourceKind where
  | app
  | catalog
  | cluster
  | release
  | configMap
  deriving DecidableEq, Repr

namespace ResourceKind

/-- Every kind, in order. -/
def all : List ResourceKind := [app, catalog, cluster, release, configMap]

/-- The name of a kind as objects carry it. -/
def name : ResourceKind → String
  | app => "App"
  | catalog => "Catalog"
  | cluster => "Cluster"
  | release => "Release"
  | configMap => "ConfigMap"

/-- The place of a kind in the order. -/
def index : ResourceKind → Nat
  | app => 0
  | catalog => 1
  | cluster => 2
  | release => 3
  | configMap => 4

/-- The kind of a name. -/
def ofName? (name : String) : Option ResourceKind :=
  all.find? fun k => k.name == name

/-- Objects of this kind live in a namespace. -/
def isNamespaced (k : ResourceKind) : Bool := k != release

end ResourceKind

/-- An object as a store holds it. -/
structure StoredObject where
  apiVersion : String := ""
  kind : String := ""
  metadata : ObjectMeta := {}
  body : Dict Json := .empty
  deriving DecidableEq

namespace StoredObject

/-- The names of the fields with types of their own. -/
def fieldNames : List String := ["apiVersion", "kind", "metadata"]

/-- Reads an object. -/
def decode (s : Source) : Option StoredObject := do
  let (fs, body) ← s.openRecord fieldNames
  return {
    apiVersion := ← fs.orElse "apiVersion" Source.text ""
    kind := ← fs.orElse "kind" Source.text ""
    metadata := ← fs.orElse "metadata" ObjectMeta.decode {}
    body := body }

/-- An object as JSON. -/
def toJson (o : StoredObject) : Json :=
  .obj ([("apiVersion", .str o.apiVersion), ("kind", .str o.kind), ("metadata", o.metadata.toJson)]
    ++ o.body.entries)

/-- The object in the stored form of a JSON value. -/
def ofJson? (j : Json) : Option StoredObject := decode (.ofJson j.normalise)

/-- A typed resource as its JSON is read from the stored form. -/
def toTyped? {α : Type} (read : Source → Option α) (o : StoredObject) : Option α :=
  read (.ofJson o.toJson.normalise)

/-- The namespace, empty for an object without one. -/
def space (o : StoredObject) : String := o.metadata.space

/-- The name of an object. -/
def name (o : StoredObject) : String := o.metadata.name

end StoredObject

end AppAdmission
