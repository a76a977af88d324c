import AppAdmission.Proofs.Patch.Location

/-!
# Additions at a place

An operation whose pointer goes by names acts at the place that the names lead to. An addition of a
member is therefore `Json.put`, and an addition at the end of an array puts a longer array there; the
rest of the document is kept.
-/

namespace AppAdmission.Patch

/-- The names of a path stand for no index of an array. -/
def Named (path : List String) : Prop := ∀ token ∈ path, Pointer.index? token = none

instance (path : List String) : Decidable (Named path) :=
  inferInstanceAs (Decidable (∀ token ∈ path, Pointer.index? token = none))

namespace Named

open Pointer (index?)

theorem tail {token : String} {rest : List String} (named : Named (token :: rest)) : Named rest :=
  fun t there => named t (List.mem_cons_of_mem token there)

/-- Under a name that stands for no index is a member. -/
theorem child?_eq {token : String} {rest : List String} (named : Named (token :: rest)) (j : Json) :
    j.child? index? token = j.find? token := by
  cases j with
  | arr items =>
    rw [Json.child?, named token List.mem_cons_self]
    rfl
  | obj _ | null | bool _ | num _ | str _ => rfl

theorem reach?_eq {path : List String} (named : Named path) (j : Json) :
    j.reach? index? path = j.at? path := by
  induction path generalizing j with
  | nil => rw [Json.reach?_nil, Json.at?_nil]
  | cons token rest ih =>
    rw [Json.reach?_cons, Json.at?_cons, named.child?_eq]
    exact congrArg _ (funext (ih named.tail))

/-- A member that is put back is put in. -/
theorem rebuild_eq {path : List String} {j old : Json} (named : Named path) (free : j.canonicalB = true)
    (there : j.at? path = some old) (value : Json) : j.rebuild index? path value = j.put path value := by
  induction path generalizing j with
  | nil => rw [Json.rebuild_nil, Json.put_nil]
  | cons token rest ih =>
    rw [Json.at?_cons] at there
    obtain ⟨child, found, onward⟩ := Option.bind_eq_some_iff.1 there
    obtain ⟨ms, rfl, member⟩ := Json.obj_of_find? found
    have below := ih named.tail (Json.canonicalB_of_find? free member) onward
    have under : (Json.obj ms).child? index? token = some child := member
    rw [Json.rebuild_cons under, below, Json.put, member, Option.getD_some, Json.withChild,
      Members.replace_eq_insert _ (Json.canonicalB_obj_iff.1 free).1 member]

end Named

namespace Operation

/-- An operation that applies acts on the parent of its target and puts back what it makes of it. -/
theorem within_ok {op : Operation} {path : List String} {last : String} {doc result : Json}
    (named : Named path) (free : doc.canonicalB = true)
    (h : op.within (path ++ [last]) doc = .ok result) :
    ∃ parent parent', doc.at? path = some parent ∧ op.onParent last parent = .ok parent' ∧
      result = doc.put path parent' := by
  obtain ⟨parent, parent', found, acted, rfl⟩ := within_ok_iff.1 h
  rw [named.reach?_eq] at found
  exact ⟨parent, parent', found, acted, named.rebuild_eq free found parent'⟩

theorem onParent_add_ok {pointer last : String} {value parent result : Json}
    (name : Pointer.index? last = none ∧ last ≠ "-")
    (h : (add pointer value).onParent last parent = .ok result) :
    ∃ ms, parent = .obj ms ∧ result = .obj (Members.insert last value ms) := by
  cases parent with
  | obj ms =>
    cases h
    exact ⟨ms, rfl, rfl⟩
  | arr items =>
    have fails : (add pointer value).onArray last items = .error (.invalidIndex pointer) := by
      unfold onArray
      split
      · exact absurd rfl name.2
      · rw [name.1]
        rfl
    rw [onParent, fails] at h
    cases h
  | null | bool _ | num _ | str _ => cases h

/-- An addition under a name puts the value there; its parent is an object. -/
theorem apply_add_ok {pointer : String} {path : List String} {last : String} {value doc result : Json}
    (leads : Pointer.tokens? pointer = some (path ++ [last])) (named : Named path)
    (name : Pointer.index? last = none ∧ last ≠ "-") (free : doc.canonicalB = true)
    (h : (add pointer value).apply doc = .ok result) :
    (∃ ms, doc.at? path = some (.obj ms)) ∧ result = doc.put (path ++ [last]) value := by
  have ran : (add pointer value).within (path ++ [last]) doc = .ok result := by
    rw [← h, apply, Operation.path, leads]
  obtain ⟨parent, parent', found, acted, rfl⟩ := within_ok named free ran
  obtain ⟨ms, rfl, rfl⟩ := onParent_add_ok name acted
  refine ⟨⟨ms, found⟩, ?_⟩
  rw [Json.put_append found, Json.put, Json.put_nil]

/-- An addition at the end of an array puts the longer array in its place. -/
theorem apply_append_ok {pointer : String} {path : List String} {value doc result : Json}
    (leads : Pointer.tokens? pointer = some (path ++ ["-"])) (named : Named path)
    (free : doc.canonicalB = true) (h : (add pointer value).apply doc = .ok result) :
    (∃ items, doc.at? path = some (.arr items) ∧ result = doc.put path (.arr (items ++ [value]))) ∨
      ∃ ms, doc.at? path = some (.obj ms) := by
  have ran : (add pointer value).within (path ++ ["-"]) doc = .ok result := by
    rw [← h, apply, Operation.path, leads]
  obtain ⟨parent, parent', found, acted, rfl⟩ := within_ok named free ran
  cases parent with
  | obj ms => exact Or.inr ⟨ms, found⟩
  | arr items =>
    cases acted
    exact Or.inl ⟨items, found, rfl⟩
  | null | bool _ | num _ | str _ => cases acted

end Operation

end AppAdmission.Patch
