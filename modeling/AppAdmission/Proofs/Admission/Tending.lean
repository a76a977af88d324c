import AppAdmission.Proofs.Admission.Artifact
import AppAdmission.Proofs.Store.Concur

/-!
# Artifacts that were tended to

What any number of requests leave behind in a store: the artifacts of some namespaces, each as it would
be put in its place once, whatever the order and however often. The namespaces alone determine the
objects, apart from their revisions.
-/

namespace AppAdmission.Compliance

variable {settings : ComplianceSettings} {space : String} {spaces spaces' : List String}
  {s t u : MemoryStore}

theorem artifactKey_inj {space space' : String}
    (h : artifactKey settings space = artifactKey settings space') : space = space' :=
  congrArg StoreKey.space h

/-- The artifacts of some namespaces were put in their places, and nothing else was done to the
objects. -/
structure Tended (settings : ComplianceSettings) (spaces : List String) (s t : MemoryStore) : Prop where
  concur : MemoryStore.Concur s t
  others : ∀ key, (∀ space ∈ spaces, key ≠ artifactKey settings space) →
    t.objects.get? key = s.objects.get? key
  placed : ∀ space ∈ spaces, ∃ o, t.objects.get? (artifactKey settings space) = some o ∧
    o.unrevised = restored settings space (s.objects.get? (artifactKey settings space))

namespace Tended

theorem of_objects (h : t.objects = s.objects) : Tended settings [] s t where
  concur := .of_objects h
  others key _ := by rw [h]
  placed := nofun

theorem of_ensured (h : Ensured settings space s t) : Tended settings [space] s t := by
  obtain ⟨placed, put, same⟩ := h
  constructor
  · exact .of_insert rfl put
  · intro key other
    rw [put, OrderedMap.get?_insert_ne _ _ (other space List.mem_cons_self)]
  · intro space' there
    obtain rfl := List.mem_singleton.1 there
    exact ⟨placed, by rw [put, OrderedMap.get?_insert_self], same⟩

/-- An artifact outside the namespaces is as it was. -/
theorem get?_of_not_mem (h : Tended settings spaces s t) (outside : space ∉ spaces) :
    t.objects.get? (artifactKey settings space) = s.objects.get? (artifactKey settings space) :=
  h.others _ fun _ there same => outside (artifactKey_inj same ▸ there)

theorem trans (first : Tended settings spaces s t) (second : Tended settings spaces' t u) :
    Tended settings (spaces ++ spaces') s u := by
  constructor
  · exact first.concur.trans second.concur
  · intro key other
    rw [second.others key fun x there => other x (List.mem_append_right _ there),
      first.others key fun x there => other x (List.mem_append_left _ there)]
  · intro space there
    by_cases later : space ∈ spaces'
    · obtain ⟨o, got, same⟩ := second.placed space later
      refine ⟨o, got, same.trans ?_⟩
      by_cases earlier : space ∈ spaces
      · obtain ⟨o', got', same'⟩ := first.placed space earlier
        rw [got', restored_again same']
      · rw [first.get?_of_not_mem earlier]
    · have earlier : space ∈ spaces := (List.mem_append.1 there).resolve_right later
      rw [second.get?_of_not_mem later]
      exact first.placed space earlier

/-- Only which namespaces there are matters. -/
theorem congr (h : Tended settings spaces s t) (same : ∀ x, x ∈ spaces ↔ x ∈ spaces') :
    Tended settings spaces' s t where
  concur := h.concur
  others key other := h.others key fun x there => other x ((same x).1 there)
  placed x there := h.placed x ((same x).2 there)

/-- The same namespaces tended to from the same store leave the same objects, revisions aside. -/
theorem unrevised_eq (h : Tended settings spaces s t) (h' : Tended settings spaces s u)
    (key : StoreKey) : (t.objects.get? key).map StoredObject.unrevised =
      (u.objects.get? key).map StoredObject.unrevised := by
  by_cases tended : ∃ space ∈ spaces, key = artifactKey settings space
  · obtain ⟨space, there, rfl⟩ := tended
    obtain ⟨o, got, same⟩ := h.placed space there
    obtain ⟨o', got', same'⟩ := h'.placed space there
    rw [got, got', Option.map_some, Option.map_some, same, same']
  · have other : ∀ space ∈ spaces, key ≠ artifactKey settings space :=
      fun space there same => tended ⟨space, there, same⟩
    rw [h.others key other, h'.others key other]

end Tended

end AppAdmission.Compliance
