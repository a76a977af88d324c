import AppAdmission.Config.Basic
import AppAdmission.Resource.App

/-!
# Policy

Who may install what, and which namespaces configuration may come from. Trusted users and groups
may do anything, and so may Apps in protected namespaces, which belong to the platform. Otherwise a
blacklisted chart from a blacklisted catalog is refused, and so is a reference into a protected
namespace. An entry of the namespace list that begins or ends with a hyphen protects every namespace
that begins or ends with it.
-/

namespace AppAdmission

/-- Who makes a request. -/
structure Actor where
  username : String := ""
  groups : List String := []
  deriving DecidableEq, Repr

namespace Policy

/-- What the policy says. -/
inductive Ruling where
  | allow
  | deny (reason : String)
  deriving DecidableEq, Repr

/-- `entry` begins `text`. -/
def startsB (entry text : String) : Bool := entry.toList.isPrefixOf text.toList

/-- `entry` ends `text`. -/
def endsB (entry text : String) : Bool := entry.toList.isSuffixOf text.toList

/-- The entry protects namespaces by how they begin or end. -/
def isWildcard (entry : String) : Bool := startsB "-" entry || endsB "-" entry

end Policy

namespace PolicyConfig

open Policy

/-- The namespaces protected by their full names. -/
def fixedNamespaces (c : PolicyConfig) : List String :=
  c.namespaceBlacklist.filter fun e => e != "" && !isWildcard e

/-- The entries that protect namespaces by how they begin or end. -/
def wildcards (c : PolicyConfig) : List String :=
  c.namespaceBlacklist.filter fun e => e != "" && isWildcard e

/-- The namespace is protected. -/
def isBlacklisted (c : PolicyConfig) (space : String) : Bool :=
  c.fixedNamespaces.contains space ||
    c.wildcards.any fun e => startsB e space || endsB e space

/-- The actor is trusted, by the beginning of the name or by a group. -/
def isWhitelisted (c : PolicyConfig) (actor : Actor) : Bool :=
  (c.userWhitelist.any fun e => e != "" && startsB e actor.username) ||
    actor.groups.any fun g => c.groupWhitelist.contains g

end PolicyConfig

namespace Policy

/-- The namespaces of a pair of references. -/
def configNamespaces (c : Option AppConfig) : List String :=
  match c with
  | none => []
  | some c => (c.configMap.toList ++ c.secret.toList).map NamespacedRef.space

/-- The namespaces that an App takes its configuration from, in order, without empty ones. -/
def referencedNamespaces (app : App) : List String :=
  (configNamespaces app.spec.config ++ configNamespaces app.spec.userConfig
    ++ app.extraConfigs.map ExtraConfig.space).filter (· != "")

/-- The reason for refusing a chart. -/
def chartReason (spec : AppSpec) : String :=
  "installing " ++ spec.name ++ " from " ++ spec.catalog ++ " catalog is not allowed"

/-- The reason for refusing a reference. -/
def referenceReason (space : String) : String :=
  "references to " ++ space ++ " namespace not allowed"

/-- What the policy says about an actor writing an App. -/
def inspect (c : PolicyConfig) (actor : Actor) (app : App) : Ruling :=
  if c.isWhitelisted actor then .allow
  else if c.fixedNamespaces.contains app.space then .allow
  else if c.appBlacklist.contains app.spec.name && c.catalogBlacklist.contains app.spec.catalog then
    .deny (chartReason app.spec)
  else match (referencedNamespaces app).find? c.isBlacklisted with
    | some space => .deny (referenceReason space)
    | none => .allow

end Policy

end AppAdmission
