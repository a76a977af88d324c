import AppAdmission.Store.Call
import AppAdmission.Text.FormEncoded

/-!
# Addresses of objects

Where an API server keeps the objects of a kind, and the selectors that stand for a filter in the
query of a list.
-/

namespace AppAdmission

/-- Where an API server keeps the objects of a kind. -/
structure Coordinates where
  group : String
  version : String
  plural : String
  deriving DecidableEq, Repr

/-- The coordinates of a kind; the core group has no name. -/
def ResourceKind.coordinates : ResourceKind → Coordinates
  | app => ⟨"application.giantswarm.io", "v1alpha1", "apps"⟩
  | catalog => ⟨"application.giantswarm.io", "v1alpha1", "catalogs"⟩
  | cluster => ⟨"cluster.x-k8s.io", "v1beta1", "clusters"⟩
  | release => ⟨"release.giantswarm.io", "v1alpha1", "releases"⟩
  | configMap => ⟨"", "v1", "configmaps"⟩

namespace Coordinates

/-- The API version as objects carry it. -/
def apiVersion (c : Coordinates) : String :=
  if c.group = "" then c.version else c.group ++ "/" ++ c.version

/-- The path at which the version of a group begins. -/
def root (c : Coordinates) : List Char :=
  (if c.group = "" then "/api/" else "/apis/").toList ++ c.apiVersion.toList

end Coordinates

/-- The path of the objects of a kind, in a namespace if one is given and the kind has them. -/
def ResourceKind.path (kind : ResourceKind) (space : Option String) : List Char :=
  let c := kind.coordinates
  let within := match space with
    | some s => if kind.isNamespaced then "/namespaces/".toList ++ s.toList else []
    | none => []
  c.root ++ within ++ '/' :: c.plural.toList

namespace ListFilter

/-- The field selector of a filter. -/
def fieldSelector? (f : ListFilter) : Option String :=
  f.name.map fun name => "metadata.name=" ++ name

/-- The label selector of a filter. -/
def labelSelector? (f : ListFilter) : Option String :=
  if f.labels.isEmpty then none
  else some (String.ofList (Text.joinWith ',' (f.labels.entries.map fun e =>
    e.1.toList ++ '=' :: e.2.toList)))

/-- A selector in a query, if there is one. -/
def queryPart (key : String) : Option String → List Char
  | none => []
  | some value => '&' :: key.toList ++ '=' :: FormEncoded.encode value

/-- The selectors of a filter in a query. -/
def query (f : ListFilter) : List Char :=
  queryPart "fieldSelector" f.fieldSelector? ++ queryPart "labelSelector" f.labelSelector?

end ListFilter

end AppAdmission
