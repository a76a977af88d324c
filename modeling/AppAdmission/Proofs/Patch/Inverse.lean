import AppAdmission.Proofs.Patch.Standard

/-!
# Taking operations back

What an operation overwrites or takes away is known from the document before it, and so is the name under
which its target is found afterwards. From the two `inverse?` makes one operation, and this one leads back
to the document exactly, members in their places and elements at their indexes, however the names of the
pointer are spelled.
-/

namespace AppAdmission.Patch.Operation

open Pointer (index?)

/-- The name of the target when the operation is done: an element that was added behind the last one has an
index then. -/
def nameAfter (op : Operation) (last : String) (parent : Json) : String :=
  match op, parent with
  | add .., .arr items => if last = "-" then toString items.length else last
  | _, _ => last

/-- The value that the operation overwrites or takes away. An addition to an array overwrites nothing. -/
def lost? (op : Operation) (last : String) (parent : Json) : Option Json :=
  match op, parent with
  | add .., .arr _ => none
  | _, parent => parent.child? index? last

/-- The operation at a pointer that brings a lost value back: an addition that overwrote nothing is removed
again. -/
def bringBack (op : Operation) (path : String) (lost : Option Json) : Option Operation :=
  match op, lost with
  | add .., none => some (remove path)
  | add .., some old => some (replace path old)
  | replace .., some old => some (replace path old)
  | remove _, some old => some (add path old)
  | replace .., none => none
  | remove _, none => none

/-- The one operation that takes another one back, told from the document before it. -/
def inverse? (op : Operation) (doc : Json) : Option Operation := do
  let tokens ← Pointer.tokens? op.path
  match tokens.getLast? with
  | none => return replace op.path doc
  | some last =>
    let parent ← doc.reach? index? tokens.dropLast
    op.bringBack (Pointer.ofTokens (tokens.dropLast ++ [op.nameAfter last parent])) (op.lost? last parent)

/-- An array to whose end the operation adds is shorter than the bound of indexes, which no array in a
memory reaches. -/
def Bounded (op : Operation) (doc : Json) : Prop :=
  ∀ p items, Pointer.tokens? op.path = some (p ++ ["-"]) → doc.reach? index? p = some (.arr items) →
    items.length < Pointer.indexBound

/-- What is done to an object is taken back. -/
theorem exists_onObject_back {op : Operation} {key : String} {ms ms' : List (String × Json)}
    (sorted : Members.Sorted ms) (h : op.onObject key ms = .ok ms') (path : String) :
    ∃ back, op.bringBack path (Members.find? key ms) = some back ∧ back.path = path ∧
      back.onObject key ms' = .ok ms := by
  cases op with
  | add _ value =>
    cases h
    have there := Members.find?_insert_self key value ms
    cases before : Members.find? key ms with
    | none =>
      refine ⟨remove path, rfl, rfl, ?_⟩
      have erased : Members.erase key (Members.insert key value ms) = Members.erase key ms :=
        Members.filter_insert (fun k => decide (k ≠ key)) (by simp) value ms
      simp only [onObject, there, erased, Members.erase_of_missing before]
    | some old =>
      refine ⟨replace path old, rfl, rfl, ?_⟩
      simp only [onObject, there]
      rw [← Members.replace_eq_insert value sorted before, Members.replace_replace,
        Members.replace_self before]
  | replace _ value =>
    cases before : Members.find? key ms with
    | none => simp [onObject, before] at h
    | some old =>
      simp only [onObject, before, Except.ok.injEq] at h
      subst h
      refine ⟨replace path old, rfl, rfl, ?_⟩
      simp only [onObject, Members.find?_replace_self before value, Members.replace_replace,
        Members.replace_self before]
  | remove _ =>
    cases before : Members.find? key ms with
    | none => simp [onObject, before] at h
    | some old =>
      simp only [onObject, before, Except.ok.injEq] at h
      subst h
      refine ⟨add path old, rfl, rfl, ?_⟩
      simp only [onObject, Members.insert_erase sorted before]

theorem onArray_of_index {op : Operation} {token : String} {i : Nat} (named : index? token = some i)
    (items : List Json) : op.onArray token items = op.atIndex i items := by
  have other : ∀ path value, op = add path value → token ≠ "-" := by
    rintro _ _ _ rfl
    have none : index? "-" = none := by decide
    rw [none] at named
    cases named
  rw [onArray_eq other, named]

/-- When it is done, the target of an operation on an array has an index, and is what was made there. -/
theorem edited_nameAfter {op : Operation} {last : String} {items items' : List Json}
    (bounded : last = "-" → items.length < Pointer.indexBound) (h : op.onArray last items = .ok items') :
    ∃ i, index? (op.nameAfter last (.arr items)) = some i ∧ op.Edited i items items' := by
  by_cases atEnd : ∃ path value, op = add path value ∧ last = "-"
  · obtain ⟨path, value, rfl, rfl⟩ := atEnd
    cases h
    refine ⟨items.length, Pointer.index?_toString (bounded rfl), ?_⟩
    simpa using Edited.insert path value items []
  · have other : ∀ path value, op = add path value → last ≠ "-" :=
      fun path value same dash => atEnd ⟨path, value, same, dash⟩
    have name : op.nameAfter last (.arr items) = last := by
      cases op with
      | add path value => exact if_neg (other path value rfl)
      | replace _ _ | remove _ => rfl
    rw [onArray_eq other] at h
    cases named : index? last with
    | none =>
      rw [named] at h
      cases h
    | some i =>
      rw [named] at h
      exact ⟨i, by rw [name, named], atIndex_ok_iff.1 h⟩

/-- What is done to an array is taken back. -/
theorem exists_onArray_back {op : Operation} {last : String} {items items' : List Json}
    (bounded : last = "-" → items.length < Pointer.indexBound) (h : op.onArray last items = .ok items')
    (path : String) :
    ∃ back, op.bringBack path (op.lost? last (.arr items)) = some back ∧ back.path = path ∧
      back.onArray (op.nameAfter last (.arr items)) items' = .ok items := by
  obtain ⟨i, named, edited⟩ := edited_nameAfter bounded h
  cases edited with
  | insert _ value before after =>
    refine ⟨remove path, rfl, rfl, ?_⟩
    rw [onArray_of_index named, atIndex_ok_iff]
    exact .delete path value before after
  | exchange _ value old before after =>
    have lost : (before ++ old :: after)[before.length]? = some old := by simp
    refine ⟨replace path old, ?_, rfl, ?_⟩
    · have named' : index? last = some before.length := named
      simp [lost?, Json.child?, named', bringBack]
    · rw [onArray_of_index named, atIndex_ok_iff]
      exact .exchange path old value before after
  | delete _ old before after =>
    refine ⟨add path old, ?_, rfl, ?_⟩
    · have named' : index? last = some before.length := named
      simp [lost?, Json.child?, named', bringBack]
    · rw [onArray_of_index named, atIndex_ok_iff]
      exact .insert path old before after

/-- What is done to the parent of the target is taken back. -/
theorem exists_onParent_back {op : Operation} {last : String} {parent parent' : Json}
    (free : parent.canonicalB = true)
    (bounded : ∀ items, parent = .arr items → last = "-" → items.length < Pointer.indexBound)
    (h : op.onParent last parent = .ok parent') (path : String) :
    ∃ back, op.bringBack path (op.lost? last parent) = some back ∧ back.path = path ∧
      back.onParent (op.nameAfter last parent) parent' = .ok parent := by
  cases parent with
  | obj ms =>
    obtain ⟨ms', acted, rfl⟩ := map_ok_iff.1 h
    obtain ⟨back, made, named, again⟩ :=
      exists_onObject_back (Json.canonicalB_obj_iff.1 free).1 acted path
    have lost : op.lost? last (.obj ms) = Members.find? last ms := by cases op <;> rfl
    have name : op.nameAfter last (.obj ms) = last := by cases op <;> rfl
    refine ⟨back, lost ▸ made, named, ?_⟩
    rw [name, onParent, again]
    rfl
  | arr items =>
    obtain ⟨items', acted, rfl⟩ := map_ok_iff.1 h
    obtain ⟨back, made, named, again⟩ := exists_onArray_back (bounded items rfl) acted path
    refine ⟨back, made, named, ?_⟩
    rw [onParent, again]
    rfl
  | null | bool _ | num _ | str _ => cases h

/-- What is done below a location is taken back there. -/
theorem within_back {back : Operation} {p : List String} {name : String} {doc parent parent' : Json}
    (there : doc.reach? index? p = some parent) (again : back.onParent name parent' = .ok parent) :
    back.within (p ++ [name]) (doc.rebuild index? p parent') = .ok doc := by
  have found : (doc.rebuild index? p parent').reach? index? p = some parent' := by
    simpa using Json.reach?_rebuild there parent' []
  rw [within_of_reach? found, again]
  show Except.ok _ = _
  rw [Json.rebuild_rebuild, Json.rebuild_self there]

/-- **Every operation can be taken back by one operation.** In a document in order, whatever operation
applies, its inverse is known from the document and the operation, and it applies to what the operation
has made and gives the document back. -/
theorem apply_inverse {op : Operation} {doc result : Json} (free : doc.canonicalB = true)
    (bounded : op.Bounded doc) (applied : op.apply doc = .ok result) :
    ∃ back, op.inverse? doc = some back ∧ back.apply result = .ok doc := by
  unfold inverse?
  unfold Operation.apply at applied
  cases read : Pointer.tokens? op.path with
  | none =>
    rw [read] at applied
    cases applied
  | some tokens =>
    rw [read] at applied
    rcases List.eq_nil_or_concat tokens with rfl | ⟨p, last, rfl⟩
    · refine ⟨replace op.path doc, rfl, ?_⟩
      have root : Pointer.tokens? (replace op.path doc).path = some [] := read
      rw [Operation.apply, root]
      rfl
    · simp only [List.concat_eq_append] at read applied ⊢
      obtain ⟨parent, parent', found, acted, rfl⟩ := within_ok_iff.1 applied
      have short : ∀ items, parent = .arr items → last = "-" → items.length < Pointer.indexBound := by
        rintro items rfl rfl
        exact bounded p items read found
      obtain ⟨back, made, named, again⟩ :=
        exists_onParent_back (Json.canonicalB_reach? free found) short acted
          (Pointer.ofTokens (p ++ [op.nameAfter last parent]))
      refine ⟨back, by simp [found, made], ?_⟩
      rw [Operation.apply, named, Pointer.tokens?_ofTokens]
      exact within_back found again

/-- An addition at the end of an array is taken back at the index that the new element has. -/
theorem apply_inverse_sample :
    (Json.obj [("a/b", .arr [.null]), ("c", .null)]).canonicalB = true ∧
      (add "/a~1b/-" (.bool true)).Bounded (.obj [("a/b", .arr [.null]), ("c", .null)]) ∧
      (add "/a~1b/-" (.bool true)).apply (.obj [("a/b", .arr [.null]), ("c", .null)]) =
        .ok (.obj [("a/b", .arr [.null, .bool true]), ("c", .null)]) ∧
      (add "/a~1b/-" (.bool true)).inverse? (.obj [("a/b", .arr [.null]), ("c", .null)]) =
        some (remove "/a~1b/1") ∧
      ∃ back, (add "/a~1b/-" (.bool true)).inverse? (.obj [("a/b", .arr [.null]), ("c", .null)]) =
          some back ∧
        back.apply (.obj [("a/b", .arr [.null, .bool true]), ("c", .null)]) =
          .ok (.obj [("a/b", .arr [.null]), ("c", .null)]) := by
  have free : (Json.obj [("a/b", .arr [.null]), ("c", .null)]).canonicalB = true := by decide
  have bounded : (add "/a~1b/-" (.bool true)).Bounded (.obj [("a/b", .arr [.null]), ("c", .null)]) := by
    intro p items read found
    have names : Pointer.tokens? "/a~1b/-" = some (["a/b"] ++ ["-"]) := by decide
    obtain ⟨rfl, -⟩ := List.append_singleton_inj.1 (Option.some.inj (read.symm.trans names))
    obtain rfl : [Json.null] = items := by
      have there : (Json.obj [("a/b", .arr [.null]), ("c", .null)]).reach? index? ["a/b"] =
          some (.arr [.null]) := by decide
      exact Json.arr.inj (Option.some.inj (there.symm.trans found))
    decide
  have applied : (add "/a~1b/-" (.bool true)).apply (.obj [("a/b", .arr [.null]), ("c", .null)]) =
      .ok (.obj [("a/b", .arr [.null, .bool true]), ("c", .null)]) := by decide
  exact ⟨free, bounded, applied, by decide, apply_inverse free bounded applied⟩

end AppAdmission.Patch.Operation
