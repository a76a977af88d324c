import AppAdmission.Proofs.Json.Path
import AppAdmission.Proofs.Json.Record
import AppAdmission.Resource.Metadata

/-!
# Metadata in a document

Metadata read from a free object, and how it changes when a label is put in. The labels that are read
are exactly the members of the labels in the document.
-/

namespace AppAdmission

open Json (Source)

namespace Json.Source

theorem text_ofJson_iff {j : Json} {v : String} : text (ofJson j) = some v ↔ j = .str v := by
  cases j <;> simp [ofJson, text]

/-- The entries of some members are texts. -/
theorem mapM_text_iff {ls : List (String × Json)} {entries : List (String × String)} :
    (ls.mapM fun m => (text (ofJson m.2)).map fun v => (m.1, v)) = some entries ↔
      ls = entries.map fun e => (e.1, .str e.2) := by
  induction ls generalizing entries with
  | nil => cases entries <;> simp
  | cons m rest ih =>
    obtain ⟨k, j⟩ := m
    rw [List.mapM_cons]
    constructor
    · intro h
      obtain ⟨e, first, h⟩ := Option.bind_eq_some_iff.1 h
      obtain ⟨es, others, h⟩ := Option.bind_eq_some_iff.1 h
      obtain ⟨v, read, rfl⟩ := Option.map_eq_some_iff.1 first
      have same : j = .str v := text_ofJson_iff.1 read
      cases h
      rw [ih.1 others, same]
      rfl
    · intro h
      cases entries with
      | nil => cases h
      | cons e es =>
        obtain ⟨first, others⟩ := List.cons.inj h
        cases first
        rw [ih.2 others]
        rfl

/-- The labels of a free object are its members. -/
theorem labels_ofJson_iff {ls : List (String × Json)} (sorted : Members.Sorted ls)
    {d : Dict String} : labels (ofJson (.obj ls)) = some d ↔ Json.obj ls = .ofLabels d := by
  have read : labels (ofJson (.obj ls)) = (ls.mapM fun m =>
      (text (ofJson m.2)).map fun v => (m.1, v)).map OrderedMap.ofMembers := by
    rw [ofJson, labels, ofMembers_eq_map, keyed_map, Option.bind_eq_bind, Option.bind_some,
      List.mapM_map, Function.comp_def]
    cases ls.mapM fun m => (text (ofJson m.2)).map fun v => (m.1, v) <;> rfl
  rw [read, Option.map_eq_some_iff]
  constructor
  · rintro ⟨entries, found, rfl⟩
    obtain rfl := mapM_text_iff.1 found
    have inOrder : Members.Sorted entries := (Members.sorted_map Json.str).1 sorted
    have same : OrderedMap.ofMembers entries = ⟨entries, inOrder⟩ :=
      OrderedMap.ext_entries (Members.sort_of_sorted inOrder)
    rw [same]
    rfl
  · intro h
    refine ⟨d.entries, mapM_text_iff.2 (Json.obj.inj h), ?_⟩
    exact OrderedMap.ext_entries (Members.sort_of_sorted d.sorted)

theorem labels_ofJson_ofLabels (d : Dict String) : labels (ofJson (.ofLabels d)) = some d :=
  (labels_ofJson_iff ((Members.sorted_map Json.str).2 d.sorted)).2 rfl

end Json.Source

namespace Json

/-- A label put into the object of some labels. -/
theorem insert_ofLabels {d : Dict String} {ls : List (String × Json)} (h : obj ls = ofLabels d)
    (key value : String) : obj (Members.insert key (str value) ls) = ofLabels (d.insert key value) := by
  obtain rfl := obj.inj h
  rw [Members.map_insert]
  rfl

theorem find?_ofLabels (d : Dict String) (key : String) :
    (ofLabels d).find? key = (d.get? key).map str :=
  Members.find?_map str key d.entries

end Json

namespace ObjectMeta

/-- The fields of metadata in an object. -/
def fields (ms : List (String × Json)) : Source.Fields := Source.given fieldNames ms

/-- Metadata is read from a free object field by field. -/
theorem decode_obj_iff {ms : List (String × Json)} (sorted : Members.Sorted ms) {m : ObjectMeta} :
    decode (.ofJson (.obj ms)) = some m ↔
      Source.keptOthers fieldNames ms = some m.extra ∧
      (fields ms).orElse "name" Source.text "" = some m.name ∧
      (fields ms).optional "namespace" Source.text = some m.namespaceName ∧
      (fields ms).optional "labels" Source.labels = some m.labels ∧
      (fields ms).optional "annotations" Source.labels = some m.annotations ∧
      (fields ms).optional "resourceVersion" Source.text = some m.resourceVersion ∧
      (fields ms).optional "deletionTimestamp" readInstant = some m.deletionTimestamp := by
  unfold decode fields
  rw [Source.openRecord_ofJson _ sorted]
  constructor
  · intro h
    simp only [Option.bind_eq_bind, Option.bind_eq_some_iff, Option.map_eq_some_iff] at h
    obtain ⟨_, ⟨extra, kept, rfl⟩, _, name, _, space, _, labels, _, notes, _, revision, _, deletion,
      same⟩ := h
    cases same
    exact ⟨kept, name, space, labels, notes, revision, deletion⟩
  · rintro ⟨kept, name, space, labels, notes, revision, deletion⟩
    simp only [kept, Option.map_some, Option.bind_eq_bind, Option.bind_some, name, space, labels,
      notes, revision, deletion]
    rfl

/-- The labels of metadata are the members of its labels in the document. -/
theorem at?_label {ms : List (String × Json)} {m : ObjectMeta} (free : (Json.obj ms).canonicalB = true)
    (h : decode (.ofJson (.obj ms)) = some m) (key : String) :
    (Json.obj ms).at? ["labels", key] = (m.label? key).map .str := by
  obtain ⟨-, -, -, labels, -⟩ := (decode_obj_iff (Json.canonicalB_obj_iff.1 free).1).1 h
  rw [Json.at?_cons, Json.find?]
  unfold label?
  cases given : m.labels with
  | none =>
    rw [given] at labels
    rcases (Source.optional_given_eq_none_iff (by decide)).1 labels with missing | null
    · rw [missing]
      rfl
    · rw [null]
      rfl
  | some d =>
    rw [given] at labels
    obtain ⟨j, there, -, read⟩ := (Source.optional_given_eq_some_iff (by decide)).1 labels
    cases j with
    | obj ls =>
      have sorted := (Json.canonicalB_obj_iff.1 (Json.canonicalB_of_find? free there)).1
      rw [there, (Source.labels_ofJson_iff sorted).1 read, Option.bind_some, Json.at?_cons,
        Json.find?_ofLabels, Option.bind_some]
      cases d.get? key <;> simp
    | null | bool _ | num _ | str _ | arr _ => cases read

/-- Metadata with other labels. -/
theorem decode_insert_labels {ms : List (String × Json)} {m : ObjectMeta} {labels : Dict String}
    (sorted : Members.Sorted ms) (h : decode (.ofJson (.obj ms)) = some m) :
    decode (.ofJson (.obj (Members.insert "labels" (.ofLabels labels) ms))) =
      some { m with labels := some labels } := by
  obtain ⟨kept, name, space, -, notes, revision, deletion⟩ := (decode_obj_iff sorted).1 h
  have read : Source.labels (.ofJson (.ofLabels labels)) = some labels :=
    Source.labels_ofJson_ofLabels labels
  have given : (fields (Members.insert "labels" (.ofLabels labels) ms)).optional "labels"
      Source.labels = some (some labels) :=
    Source.optional_given_insert_self (by decide) (fun h => by cases h) read
  rw [decode_obj_iff (Members.sorted_insert sorted), Source.keptOthers_insert (by decide)]
  unfold fields at *
  simp (disch := decide) only [Source.orElse_given_insert_ne, Source.optional_given_insert_ne]
  exact ⟨kept, name, space, given, notes, revision, deletion⟩

end ObjectMeta

end AppAdmission
