import AppAdmission.Proofs.Wire.Config
import AppAdmission.Proofs.Wire.Patch
import AppAdmission.Proofs.Wire.Resource
import AppAdmission.Proofs.Wire.Review

/-!
# Texts that were written

The formats that a text can be read as, and what becomes of a value that was read: the text that is
written for it is read as the same value again. A text may spell a value in many ways, and reading it
once leaves one of them. Only a free value that came from a text embedded in the text may be lost, since
what it stands for is written in its place.
-/

namespace AppAdmission

open Json (Source Wire Carried)

/-- The formats of texts. -/
inductive Format where
  | app
  | objectMeta
  | cluster
  | release
  | configMap
  | storedObject
  | policyConfig
  | webhookConfig
  | review
  | patch
  deriving DecidableEq, Repr

namespace Format

/-- What a text in a format stands for. -/
abbrev Value : Format → Type
  | app => App
  | objectMeta => ObjectMeta
  | cluster => Cluster
  | release => Release
  | configMap => ConfigMap
  | storedObject => StoredObject
  | policyConfig => PolicyConfig
  | webhookConfig => WebhookConfig
  | review => AdmissionReview
  | patch => List Patch.Operation

/-- How a format is read. -/
def decode : (f : Format) → Source → Option f.Value
  | app => App.decode
  | objectMeta => ObjectMeta.decode
  | cluster => Cluster.decode
  | release => Release.decode
  | configMap => ConfigMap.decode
  | storedObject => StoredObject.decode
  | policyConfig => PolicyConfig.decode
  | webhookConfig => WebhookConfig.decode
  | review => AdmissionReview.decode
  | patch => Patch.decode

/-- How a format is written. -/
def toJson : (f : Format) → f.Value → Json
  | app => App.toJson
  | objectMeta => ObjectMeta.toJson
  | cluster => Cluster.toJson
  | release => Release.toJson
  | configMap => ConfigMap.toJson
  | storedObject => StoredObject.toJson
  | policyConfig => PolicyConfig.toJson
  | webhookConfig => WebhookConfig.toJson
  | review => AdmissionReview.toJson
  | patch => Patch.toJson

/-- The value of a text. -/
def ofText? (f : Format) (text : String) : Option f.Value :=
  (Source.ofChars? text.toList).bind f.decode

/-- The text of a value. -/
def toText (f : Format) (x : f.Value) : String := (f.toJson x).render

/-- The formats on the wire. -/
def wire : (f : Format) → Wire f.Value
  | app => App.wire
  | objectMeta => ObjectMeta.wire
  | cluster => Cluster.wire
  | release => Release.wire
  | configMap => ConfigMap.wire
  | storedObject => StoredObject.wire
  | policyConfig => PolicyConfig.wire
  | webhookConfig => WebhookConfig.wire
  | review => AdmissionReview.wire
  | patch => Patch.wire

theorem read_wire (f : Format) : f.wire.read = f.decode := by
  cases f <;> rfl

theorem write_wire (f : Format) : f.wire.write = f.toJson := by
  cases f <;> rfl

/-- The free values of a value hold no numbers but integers of 64 bits and minus zero. -/
def Whole (f : Format) (x : f.Value) : Prop := ∀ c ∈ f.wire.carried x, c.value.wholeB = true

instance (f : Format) (x : f.Value) : Decidable (f.Whole x) :=
  inferInstanceAs (Decidable (∀ c ∈ f.wire.carried x, c.value.wholeB = true))

/-- The free values of a value are such that they are kept as they are when its text is read: none has
an object that begins as one that stands for an embedded text, none ends too deep in the text, and none
is null where null stands for no value. -/
def Lasting (f : Format) (x : f.Value) : Prop :=
  ∀ c ∈ f.wire.carried x, c.value.Lasts (1 + c.steps) ∧ (c.optional = true → c.value ≠ .null)

instance (f : Format) (x : f.Value) : Decidable (f.Lasting x) :=
  inferInstanceAs (Decidable (∀ c ∈ f.wire.carried x,
    c.value.Lasts (1 + c.steps) ∧ (c.optional = true → c.value ≠ .null)))

/-- What is carried was kept, so it returns exactly if it lasts. -/
theorem returns_iff {f : Format} {s : Source} {x : f.Value} (h : f.decode s = some x) :
    (∀ c ∈ f.wire.carried x, c.Returns 1) ↔ f.Lasting x := by
  refine forall₂_congr fun c own => ?_
  rw [← read_wire] at h
  obtain ⟨part, -, kept, -⟩ := f.wire.kept h c own
  unfold Carried.Returns
  rw [Source.keep_nested_iff (Source.canonicalB_of_keep kept)]

/-- A written value is read from the tree of its text. -/
theorem ofText?_toText {f : Format} {s : Source} {x : f.Value} (h : f.decode s = some x)
    (whole : f.Whole x) : f.ofText? (f.toText x) = f.decode (Source.nested 1 (f.toJson x)) := by
  rw [← read_wire] at h
  have tree : (f.toJson x).wholeB = true := by
    rw [← write_wire]
    exact f.wire.whole h whole
  unfold ofText? toText Json.render
  rw [String.toList_ofList, Source.ofChars?_renderChars tree, Option.bind_some]

/-- What was read from a text comes back exactly if its free values last. -/
theorem ofText?_toText_iff {f : Format} {s : Source} {x : f.Value} (h : f.decode s = some x)
    (whole : f.Whole x) : f.ofText? (f.toText x) = some x ↔ f.Lasting x := by
  rw [ofText?_toText h whole, ← returns_iff h, ← write_wire, ← read_wire]
  rw [← read_wire] at h
  exact f.wire.back h 1

/-- The free values of what was read from an ordinary text last and hold no other numbers. -/
theorem lasting_of_ordinaryB {f : Format} {cs : List Char} {s : Source} {x : f.Value}
    (read : Source.ofChars? cs = some s) (ordinary : s.ordinaryB = true) (h : f.decode s = some x) :
    f.Whole x ∧ f.Lasting x := by
  have each : ∀ c ∈ f.wire.carried x, c.value.wholeB = true ∧
      c.value.Lasts (1 + c.steps) ∧ (c.optional = true → c.value ≠ .null) := by
    intro c own
    rw [← read_wire] at h
    obtain ⟨part, down, kept, given⟩ := f.wire.kept h c own
    have ordinary' : part.ordinaryB = true := Source.allB_of_inside ordinary down
    obtain ⟨lasts, whole⟩ := Source.lasts_of_keep
      ((Source.nests_of_ofChars? read).inside down) ordinary' kept
    refine ⟨whole, lasts, fun may null => given may ?_⟩
    rw [null] at kept
    exact Source.eq_null_of_keep ordinary' kept
  exact ⟨fun c own => (each c own).1, fun c own => (each c own).2⟩

end Format

/-- Every number in a text is an integer of 64 bits or minus zero. -/
def WholeText (text : String) : Prop := (Source.ofChars? text.toList).any Source.wholeB = true

/-- A text of which, besides, no object has the key of embedded texts. -/
def OrdinaryText (text : String) : Prop := (Source.ofChars? text.toList).any Source.ordinaryB = true

instance (text : String) : Decidable (WholeText text) :=
  inferInstanceAs (Decidable (_ = true))

instance (text : String) : Decidable (OrdinaryText text) :=
  inferInstanceAs (Decidable (_ = true))

namespace Format

/-- **Reading settles a text.** Whatever text is read as a value of a format: if no object in it has
the key of embedded texts and its numbers are integers of 64 bits, the text written for the value is read
as the very value and written for it once more. With that key the value comes back exactly if its free
values last where they are written. -/
theorem written_settled {f : Format} {text : String} {x : f.Value} (h : f.ofText? text = some x) :
    (OrdinaryText text → f.ofText? (f.toText x) = some x ∧
      (f.ofText? (f.toText x)).map f.toText = some (f.toText x)) ∧
    (f.Whole x → (f.ofText? (f.toText x) = some x ↔ f.Lasting x)) := by
  obtain ⟨s, read, decoded⟩ := Option.bind_eq_some_iff.1 h
  refine ⟨fun ordinary => ?_, ofText?_toText_iff decoded⟩
  have tree : s.ordinaryB = true := by
    simpa [OrdinaryText, read] using ordinary
  obtain ⟨whole, lasting⟩ := lasting_of_ordinaryB read tree decoded
  have back := (ofText?_toText_iff decoded whole).2 lasting
  exact ⟨back, by rw [back]; rfl⟩

/-- An App as an array, with null for what is missing, a timestamp with an offset, an object for a
variant and a key that means nothing. -/
def oddApp : String :=
  "[\"v1\", \"App\", \x7b\"x\": \x7b\"b\": [-0, 1], \"a\": null\x7d, \"labels\": null, " ++
  "\"deletionTimestamp\": \"2024-05-01t01:30:00.50+02:00\"\x7d, " ++
  "\x7b\"extraConfigs\": [\x7b\"kind\": \x7b\"secret\": null\x7d, \"name\": \"s\"\x7d], \"odd\": 1\x7d]"

/-- Metadata with a free member that stands for the text embedded in it. -/
def embeddingMeta : String :=
  "\x7b\"x\": \x7b\"" ++ Source.embeddedKey ++ "\": \"[2, \x7b\x7d]\"\x7d\x7d"

/-- The App comes back, and so does the metadata, since what was embedded lasts. -/
theorem written_settled_sample :
    (∃ x, app.ofText? oddApp = some x ∧ OrdinaryText oddApp ∧ app.ofText? (app.toText x) = some x) ∧
      ∃ x, objectMeta.ofText? embeddingMeta = some x ∧ ¬OrdinaryText embeddingMeta ∧
        objectMeta.ofText? (objectMeta.toText x) = some x := by
  have ordinary : OrdinaryText oddApp := by decide +kernel
  obtain ⟨x, read⟩ : ∃ x, app.ofText? oddApp = some x :=
    Option.isSome_iff_exists.1 (by decide +kernel)
  let m : ObjectMeta := { extra := .ofMembers [("x", .arr [.ofInt 2, .obj []])] }
  have read' : objectMeta.ofText? embeddingMeta = some m := by decide +kernel
  have whole : objectMeta.Whole m := by decide
  have lasting : objectMeta.Lasting m := by decide
  exact ⟨⟨x, read, ordinary, ((written_settled read).1 ordinary).1⟩,
    ⟨m, read', by decide +kernel, ((written_settled read').2 whole).2 lasting⟩⟩

/-- Metadata with a free member that has the key of embedded texts, but not as its first one. -/
def lateEmbeddingMeta : String :=
  "\x7b\"x\": \x7b\"a\": \"\", \"" ++ Source.embeddedKey ++ "\": \"2\"\x7d\x7d"

/-- Once written the key comes first, and then the text is not read at all. -/
theorem not_settled_embedding :
    ∃ x : ObjectMeta, WholeText lateEmbeddingMeta ∧ x.deletionTimestamp = none ∧
      objectMeta.ofText? lateEmbeddingMeta = some x ∧
      objectMeta.ofText? (objectMeta.toText x) = none := by
  refine ⟨{ extra := .ofMembers [("x", .obj [(Source.embeddedKey, .str "2"), ("a", .str "")])] }, ?_⟩
  decide +kernel

end Format

end AppAdmission
