import AppAdmission.Decision
import AppAdmission.Resource.Records

/-!
# Looking up releases

Which release a cluster runs and what the release contains, read from the store each time. A
cluster must have exactly one record; the label on it names the release, and the release's own record
lists its components.
-/

namespace AppAdmission.ReleaseLookup

/-- The one record of a cluster among those found. -/
def single (name : String) : List StoredObject → Decision Cluster
  | [] => throw (.clusterNotFound name)
  | [o] => Decision.converted (o.toTyped? Cluster.decode)
  | os => throw (.ambiguousCluster name os.length)

/-- The record of a cluster. -/
def cluster (name : String) : Decision Cluster := do
  single name (← Decision.storeCall "list clusters" (.list .cluster (.named name)))

/-- The release that a record names. -/
def releaseOf (name : String) (record : Cluster) : Decision Version :=
  let subject := "cluster '" ++ name ++ "'"
  match record.releaseLabel? with
  | none => throw (.missingVersion subject (releaseVersionLabel ++ " label"))
  | some raw =>
    match Version.read raw with
    | .ok v => return v
    | .error e => throw (.invalidVersion subject e)

/-- The release that a cluster runs. -/
def releaseVersion (name : String) : Decision Version := do
  releaseOf name (← cluster name)

/-- The version of a component in the release of a version. -/
def componentVersion (v : Version) (component : String) : Decision String := do
  let name := Release.objectName v
  let o ← Decision.storeCall "get release" (.get .release none name)
  let release ← Decision.converted (o.toTyped? Release.decode)
  match release.componentVersion? component with
  | some version => return version
  | none => throw (.missingVersion ("release '" ++ name ++ "'") (component ++ " component"))

end AppAdmission.ReleaseLookup
