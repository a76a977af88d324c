import AppAdmission.Config.Basic
import AppAdmission.Text.Utf8
import AppAdmission.Yaml.Document

/-!
# Configuration files

How the configuration is read from YAML. A text may be written in any way and is what stands there,
be it `5` or `null`; only where a text may be absent do a plain `null` and nothing at all mean that it
is. A list or a record for which nothing is written is an empty one.
-/

namespace AppAdmission

namespace Yaml.Document

variable {α : Type}

/-- Nothing is written. -/
def blankB : Node → Bool
  | .scalar _ .plain "" => true
  | _ => false

/-- The words for an absent value. -/
def nullWords : List String := ["null", "Null", "NULL", "~"]

/-- The tag of an absent value. -/
def nullTag : List UInt8 := Utf8.encode "tag:yaml.org,2002:null".toList

/-- A text. -/
def text (d : Document) (n : Node) : Option String :=
  match d.follow n with
  | .scalar _ _ t => some t
  | _ => none

/-- A list of texts. -/
def texts (d : Document) (n : Node) : Option (List String) :=
  match d.follow n with
  | .sequence _ items => items.mapM d.text
  | n => if blankB n then some [] else none

/-- Whether a value is absent; nothing if it says so by its tag and holds another text. -/
def absent (d : Document) (n : Node) : Option Bool :=
  match d.follow n with
  | .scalar ⟨_, some tag⟩ .plain t =>
    if tag ≠ nullTag then some false else if nullWords.contains t then some true else none
  | .scalar ⟨_, none⟩ .plain t => some (t.isEmpty || nullWords.contains t)
  | _ => some false

/-- A text that may be absent. -/
def nullableText (d : Document) (n : Node) : Option (Option String) := do
  if ← d.absent n then return none else return some (← d.text n)

/-- A plain scalar that says nothing. -/
def nothingB (d : Document) (n : Node) : Bool :=
  match d.follow n with
  | .scalar _ .plain t => t.isEmpty || nullWords.contains t
  | _ => false

/-- What a tag of the document's own names: the text after its exclamation mark. Bytes that are no
text name nothing. -/
def ownName? (tag : List UInt8) : Option String :=
  match Utf8.decode? tag with
  | some ('!' :: name) => some (String.ofList name)
  | _ => none

/-- The name of a variant that carries nothing: a text, or a tag of the document's own before
nothing. -/
def variant (d : Document) (n : Node) : Option String :=
  match (d.follow n).properties.tag.bind ownName? with
  | some name => if d.nothingB n then some name else none
  | none => d.text n

/-- The fields of a record that were given. -/
abbrev Fields := List (String × Node)

/-- The entries of a mapping, if every key is a text. -/
def keyed (d : Document) (entries : List (Node × Node)) : Option Fields :=
  entries.mapM fun e => (d.text e.1).map fun k => (k, e.2)

/-- The fields of a record, each of which may be given only once; other entries are skipped. -/
def record (d : Document) (names : List String) (n : Node) : Option Fields :=
  match d.follow n with
  | .mapping _ entries => do
    let fs := (← d.keyed entries).filter fun f => names.contains f.1
    if decide (fs.map (·.1)).Nodup then return fs else none
  | n => if blankB n then some [] else none

/-- A field that may be left out. -/
def Fields.orElse (fs : Fields) (name : String) (read : Node → Option α) (default : α) : Option α :=
  match Members.find? name fs with
  | none => some default
  | some n => read n

end Yaml.Document

open Yaml (Document Node)

/-- Reads the lists of access control. -/
def PolicyConfig.ofYaml (d : Document) (n : Node) : Option PolicyConfig := do
  let fs ← d.record fieldNames n
  return {
    appBlacklist := ← fs.orElse "appBlacklist" d.texts []
    catalogBlacklist := ← fs.orElse "catalogBlacklist" d.texts []
    groupWhitelist := ← fs.orElse "groupWhitelist" d.texts []
    userWhitelist := ← fs.orElse "userWhitelist" d.texts []
    namespaceBlacklist := ← fs.orElse "namespaceBlacklist" d.texts [] }

/-- Reads a profile. -/
def ComplianceProfile.ofYaml (d : Document) (n : Node) : Option ComplianceProfile := do
  ofName? (← d.variant n)

/-- Reads the compliance options. -/
def ComplianceConfig.ofYaml (d : Document) (n : Node) : Option ComplianceConfig := do
  let fs ← d.record fieldNames n
  return {
    provider := ← fs.orElse "provider" d.text ""
    vintageProviders := ← fs.orElse "vintageProviders" d.texts ["aws", "azure", "kvm"]
    profile := ← fs.orElse "profile" (ComplianceProfile.ofYaml d) .pssCompliance
    cutoffVersion := ← fs.orElse "cutoffVersion" d.nullableText none
    baselineArtifactName := ← fs.orElse "baselineArtifactName" d.nullableText none
    baselineArtifactContent := ← fs.orElse "baselineArtifactContent" d.nullableText none }

/-- What can be wrong with a configuration file. -/
inductive ConfigFault where
  /-- the file cannot be read as text -/
  | unreadable
  /-- the text is no configuration -/
  | malformed
  deriving DecidableEq, Repr

namespace WebhookConfig

/-- Reads a configuration from a document. -/
def ofDocument (d : Document) : Option WebhookConfig := do
  let fs ← d.record ["policy", "compliance"] d.root
  return {
    policy := ← fs.orElse "policy" (PolicyConfig.ofYaml d) {}
    compliance := ← fs.orElse "compliance" (ComplianceConfig.ofYaml d) {} }

/-- Reads a configuration from a text; a blank text is the default one. -/
def ofYaml (text : String) : Except ConfigFault WebhookConfig :=
  if (Text.trim text.toList).isEmpty then .ok {}
  else match (Document.ofText? text.toList).bind ofDocument with
    | some c => .ok c
    | none => .error .malformed

/-- Reads a configuration from the bytes of a file; there are none if there is no such file. -/
def ofFile (file : Option (List UInt8)) : Except ConfigFault WebhookConfig :=
  match file.bind Utf8.decode? with
  | some cs => ofYaml (String.ofList cs)
  | none => .error .unreadable

end WebhookConfig

end AppAdmission
