import AppAdmission.Proofs.Patch.Place
import AppAdmission.Proofs.Resource.App

/-!
# Places of an App

The places of a document where an App is given what it lacks, and the App that is read after a value
was put there. A place of the document is read into one field, so everything else about the App stays.
-/

namespace AppAdmission

open Json (Source)

namespace App

/-- Where the label of the operator version stands. -/
def labelPlace : List String := ["metadata", "labels", operatorVersionLabel]

/-- Where the configuration stands. -/
def configPlace : List String := ["spec", "config"]

/-- Where the access data of the target cluster stands. -/
def accessPlace : List String := ["spec", "kubeConfig", "secret"]

/-- Where the extra configuration stands. -/
def extrasPlace : List String := ["spec", "extraConfigs"]

/-- The App with a label. -/
def withLabel (a : App) (key value : String) : App :=
  { a with metadata := { a.metadata with labels := a.metadata.labels.map (·.insert key value) } }

/-- The App with a configuration. -/
def withConfig (a : App) (c : AppConfig) : App :=
  { a with spec := { a.spec with config := some c } }

/-- The App with access data where it goes to a cluster. -/
def withAccess (a : App) (r : NamespacedRef) : App :=
  { a with spec := { a.spec with
      kubeConfig := a.spec.kubeConfig.map fun k => { k with secret := some r } } }

/-- The App with its extra configuration. -/
def withExtras (a : App) (es : List ExtraConfig) : App :=
  { a with spec := { a.spec with extraConfigs := some es } }

variable {doc : Json} {a : App}

/-- A label put into the document is a label of the App. -/
theorem decode_put_label {ls : List (String × Json)} (free : doc.canonicalB = true)
    (h : decode (.ofJson doc) = some a) (there : doc.at? ["metadata", "labels"] = some (.obj ls))
    (key value : String) :
    a.metadata.labels.isSome ∧
      decode (.ofJson (doc.put ["metadata", "labels", key] (.str value))) =
        some (a.withLabel key value) := by
  obtain ⟨ms, metadata, member⟩ := Json.at?_pair there
  have sorted := Json.sorted_at? free metadata
  have read := decode_metadata free h metadata
  obtain ⟨-, -, -, labels, -⟩ := (ObjectMeta.decode_obj_iff sorted).1 read
  rw [ObjectMeta.fields, Source.optional_given_of_member (by decide) member] at labels
  obtain ⟨d, found, same⟩ := Option.map_eq_some_iff.1 labels
  have members := (Source.labels_ofJson_iff (Json.sorted_at? free there)).1 found
  have step : doc.put ["metadata", "labels", key] (.str value) =
      doc.put ["metadata", "labels"] (.ofLabels (d.insert key value)) := by
    rw [← Json.insert_ofLabels members]
    exact Json.put_append there [key] (.str value)
  rw [step, decode_put_metadata free h metadata (ObjectMeta.decode_insert_labels sorted read)]
  unfold withLabel
  rw [← same]
  exact ⟨rfl, rfl⟩

/-- A configuration put into the document is the configuration of the App. -/
theorem decode_put_config {ss : List (String × Json)} (free : doc.canonicalB = true)
    (h : decode (.ofJson doc) = some a) (there : doc.at? ["spec"] = some (.obj ss)) (c : AppConfig) :
    decode (.ofJson (doc.put configPlace c.toJson)) = some (a.withConfig c) :=
  decode_put_spec free h there
    (AppSpec.decode_insert_config (Json.sorted_at? free there) (decode_spec free h there) c)

/-- Access data put into the document is that of the App, which then goes to a cluster. -/
theorem decode_put_access {ks : List (String × Json)} (free : doc.canonicalB = true)
    (h : decode (.ofJson doc) = some a) (there : doc.at? ["spec", "kubeConfig"] = some (.obj ks))
    (r : NamespacedRef) :
    decode (.ofJson (doc.put accessPlace r.toJson)) = some (a.withAccess r) := by
  obtain ⟨ss, spec, member⟩ := Json.at?_pair there
  have sorted := Json.sorted_at? free spec
  have read := decode_spec free h spec
  obtain ⟨-, -, -, -, -, -, -, kube⟩ := (AppSpec.decode_obj_iff sorted).1 read
  rw [AppSpec.fields, Source.optional_given_of_member (by decide) member] at kube
  obtain ⟨k, found, same⟩ := Option.map_eq_some_iff.1 kube
  have step : doc.put accessPlace r.toJson =
      doc.put ["spec", "kubeConfig"] (.obj (Members.insert "secret" r.toJson ks)) :=
    Json.put_append there ["secret"] r.toJson
  have inner := KubeConfig.decode_insert_secret (Json.sorted_at? free there) found r
  rw [step, decode_put_spec free h spec
    (AppSpec.decode_insert_kubeConfig sorted read (fun h => by cases h) inner)]
  unfold withAccess
  rw [← same]
  rfl

/-- An array of sources put into the document is the extra configuration of the App. -/
theorem decode_put_extras {ss : List (String × Json)} {items : List Json} {es : List ExtraConfig}
    (free : doc.canonicalB = true) (h : decode (.ofJson doc) = some a)
    (there : doc.at? ["spec"] = some (.obj ss))
    (read : Source.list ExtraConfig.decode (.ofJson (.arr items)) = some es) :
    decode (.ofJson (doc.put extrasPlace (.arr items))) = some (a.withExtras es) :=
  decode_put_spec free h there
    (AppSpec.decode_insert_extraConfigs (Json.sorted_at? free there) (decode_spec free h there) read)

/-- The array of extra configuration in the document holds the sources of the App. -/
theorem decode_extras {items : List Json} (free : doc.canonicalB = true)
    (h : decode (.ofJson doc) = some a) (there : doc.at? extrasPlace = some (.arr items)) :
    Source.list ExtraConfig.decode (.ofJson (.arr items)) = some a.extraConfigs := by
  obtain ⟨ss, spec, member⟩ := Json.at?_pair there
  obtain ⟨-, -, -, -, -, -, extras, -⟩ :=
    (AppSpec.decode_obj_iff (Json.sorted_at? free spec)).1 (decode_spec free h spec)
  rw [AppSpec.fields, Source.optional_given_of_member (by decide) member] at extras
  obtain ⟨es, found, same⟩ := Option.map_eq_some_iff.1 extras
  unfold extraConfigs
  rw [← same]
  exact found

/-- Where the extra configuration should stand there is no object. -/
theorem extras_ne_obj {ms : List (String × Json)} (free : doc.canonicalB = true)
    (h : decode (.ofJson doc) = some a) : doc.at? extrasPlace ≠ some (.obj ms) := by
  intro there
  obtain ⟨ss, spec, member⟩ := Json.at?_pair there
  obtain ⟨-, -, -, -, -, -, extras, -⟩ :=
    (AppSpec.decode_obj_iff (Json.sorted_at? free spec)).1 (decode_spec free h spec)
  rw [AppSpec.fields, Source.optional_given_of_member (by decide) member] at extras
  cases extras

/-- A source at the end of the array is the last one that is read. -/
theorem list_append {items : List Json} {es : List ExtraConfig} {e : ExtraConfig}
    (read : Source.list ExtraConfig.decode (.ofJson (.arr items)) = some es)
    (fits : e.priority < 0x100000000) :
    Source.list ExtraConfig.decode (.ofJson (.arr (items ++ [e.toJson]))) = some (es ++ [e]) := by
  rw [Source.ofJson, Source.list, Source.ofItems_eq_map] at read ⊢
  rw [List.map_append, List.mapM_append, read, List.map_singleton, List.mapM_cons,
    ExtraConfig.decode_toJson fits]
  rfl

/-- The App is the one that a free document holds. -/
structure ReadFrom (doc : Json) (a : App) : Prop where
  free : doc.canonicalB = true
  read : decode (.ofJson doc) = some a

namespace ReadFrom

/-- The operation that sets the label of the operator version puts it in its place. -/
theorem apply_label {result : Json} {version : String} (r : ReadFrom doc a)
    (h : (Patch.Operation.add (Pointer.ofTokens ["metadata", "labels", operatorVersionLabel])
      (.str version)).apply doc = .ok result) :
    result = doc.put labelPlace (.str version) ∧ a.metadata.labels.isSome ∧
      ReadFrom result (a.withLabel operatorVersionLabel version) := by
  obtain ⟨⟨ls, there⟩, rfl⟩ : (∃ ms, doc.at? ["metadata", "labels"] = some (.obj ms)) ∧
      result = doc.put (["metadata", "labels"] ++ [operatorVersionLabel]) (.str version) :=
    Patch.Operation.apply_add_ok (by decide +kernel) (by decide) (by decide) r.free h
  obtain ⟨labelled, read⟩ := decode_put_label r.free r.read there operatorVersionLabel version
  exact ⟨rfl, labelled, Json.canonicalB_put _ r.free rfl, read⟩

/-- The operation that sets the configuration puts it in its place. -/
theorem apply_config {result : Json} {c : AppConfig} (r : ReadFrom doc a)
    (h : (Patch.Operation.add "/spec/config" c.toJson).apply doc = .ok result) :
    result = doc.put configPlace c.toJson ∧ ReadFrom result (a.withConfig c) := by
  obtain ⟨⟨ss, there⟩, rfl⟩ : (∃ ms, doc.at? ["spec"] = some (.obj ms)) ∧
      result = doc.put (["spec"] ++ ["config"]) c.toJson :=
    Patch.Operation.apply_add_ok (by decide) (by decide) (by decide) r.free h
  exact ⟨rfl, Json.canonicalB_put _ r.free c.canonicalB_toJson,
    decode_put_config r.free r.read there c⟩

/-- The operation that sets the access data puts it in its place. -/
theorem apply_access {result : Json} {ref : NamespacedRef} (r : ReadFrom doc a)
    (h : (Patch.Operation.add "/spec/kubeConfig/secret" ref.toJson).apply doc = .ok result) :
    result = doc.put accessPlace ref.toJson ∧ ReadFrom result (a.withAccess ref) := by
  obtain ⟨⟨ks, there⟩, rfl⟩ : (∃ ms, doc.at? ["spec", "kubeConfig"] = some (.obj ms)) ∧
      result = doc.put (["spec", "kubeConfig"] ++ ["secret"]) ref.toJson :=
    Patch.Operation.apply_add_ok (by decide) (by decide) (by decide) r.free h
  exact ⟨rfl, Json.canonicalB_put _ r.free ref.canonicalB_toJson,
    decode_put_access r.free r.read there ref⟩

/-- The operation that starts the extra configuration puts an empty array in its place. -/
theorem apply_start {result : Json} (r : ReadFrom doc a)
    (h : (Patch.Operation.add "/spec/extraConfigs" (.arr [])).apply doc = .ok result) :
    result = doc.put extrasPlace (.arr []) ∧ result.at? extrasPlace = some (.arr []) ∧
      ReadFrom result (a.withExtras []) := by
  obtain ⟨⟨ss, there⟩, rfl⟩ : (∃ ms, doc.at? ["spec"] = some (.obj ms)) ∧
      result = doc.put (["spec"] ++ ["extraConfigs"]) (.arr []) :=
    Patch.Operation.apply_add_ok (by decide) (by decide) (by decide) r.free h
  exact ⟨rfl, Json.at?_put_self there "extraConfigs" (.arr []), Json.canonicalB_put _ r.free rfl,
    decode_put_extras r.free r.read there rfl⟩

/-- The operation that appends a source puts the longer array in its place. -/
theorem apply_append {result : Json} {e : ExtraConfig} (r : ReadFrom doc a)
    (fits : e.priority < 0x100000000)
    (h : (Patch.Operation.add "/spec/extraConfigs/-" e.toJson).apply doc = .ok result) :
    ∃ items, doc.at? extrasPlace = some (.arr items) ∧
      result = doc.put extrasPlace (.arr (items ++ [e.toJson])) ∧
      ReadFrom result (a.withExtras (a.extraConfigs ++ [e])) := by
  rcases Patch.Operation.apply_append_ok (by decide : _ = some (extrasPlace ++ ["-"])) (by decide) r.free h with
    ⟨items, there, rfl⟩ | ⟨ms, there⟩
  · obtain ⟨ss, spec, -⟩ := Json.at?_pair there
    have read := list_append (decode_extras r.free r.read there) fits
    have longer : (Json.arr (items ++ [e.toJson])).canonicalB = true := by
      have old := Json.canonicalB_arr_iff.1 (Json.canonicalB_at? r.free there)
      refine Json.canonicalB_arr_iff.2 fun j member => ?_
      rcases List.mem_append.1 member with member | member
      · exact old j member
      · rw [List.mem_singleton.1 member]
        exact e.canonicalB_toJson
    exact ⟨items, there, rfl, Json.canonicalB_put _ r.free longer,
      decode_put_extras r.free r.read spec read⟩
  · exact absurd there (extras_ne_obj r.free r.read)

end ReadFrom

end App

end AppAdmission
