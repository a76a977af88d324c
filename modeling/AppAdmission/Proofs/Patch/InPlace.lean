import AppAdmission.Proofs.Patch.Sequence
import AppAdmission.Proofs.Patch.Standard

/-!
# Patches in place

A document can be edited where it lies: references lead into it, what is written through one stays
written, and a fault leaves the document as it is at that moment. Nothing here goes back to an earlier
document, and a removal has already taken place when it turns out that there was nothing to remove. Such
an edit comes to the same as an operation on a document that is kept aside: either it does what the
operation does, or it fails in the same way and the document is the one it began with. Of a patch that
stops half way the operations before the fault have been done, and nothing else.
-/

namespace AppAdmission.Patch

open Pointer (index?)

/-- Work on a document that lies in one place. A fault does not take back what was written before. -/
abbrev Editing (α : Type) := EStateM Fault Json α

namespace Editing

/-- Reads the value that a reference leads to. A reference is the row of names gone by. -/
def look (ref : List String) : Editing Json := do
  return ((← get).reach? index? ref).getD .null

/-- Writes through a reference. -/
def write (ref : List String) (value : Json) : Editing Unit :=
  modify fun doc => doc.rebuild index? ref value

end Editing

open Editing (look write)

namespace Operation

/-- Goes on by a name from the value that a reference leads to. -/
def enter (op : Operation) (ref : List String) (token : String) : Editing (List String) := do
  match ← look ref with
  | .obj members =>
    match Members.find? token members with
    | none => throw (.missingPath op.path)
    | some _ => return ref ++ [token]
  | .arr items =>
    match index? token with
    | none => throw (.invalidIndex op.path)
    | some i =>
      match items[i]? with
      | none => throw (.invalidIndex op.path)
      | some _ => return ref ++ [token]
  | _ => throw (.missingPath op.path)

/-- The edit of an object. A removal asks for the member when it has taken it out. -/
def editObject (op : Operation) (ref : List String) (key : String) (members : List (String × Json)) :
    Editing Unit :=
  match op with
  | add _ value => write ref (.obj (Members.insert key value members))
  | replace path value =>
    match Members.find? key members with
    | none => throw (.missingPath path)
    | some _ => write ref (.obj (Members.replace key value members))
  | remove path => do
    write ref (.obj (Members.erase key members))
    match Members.find? key members with
    | none => throw (.missingPath path)
    | some _ => return ()

/-- The edit of an array at an index. -/
def editIndex (op : Operation) (ref : List String) (i : Nat) (items : List Json) : Editing Unit := do
  let inRange := match op with
    | add .. => decide (i ≤ items.length)
    | replace .. | remove .. => decide (i < items.length)
  if inRange then
    match op with
    | add _ value => write ref (.arr (items.insertIdx i value))
    | replace _ value => write ref (.arr (items.set i value))
    | remove _ => write ref (.arr (items.eraseIdx i))
  else throw (.invalidIndex op.path)

/-- The edit of an array. An addition at `-` goes to the end. -/
def editArray (op : Operation) (ref : List String) (token : String) (items : List Json) : Editing Unit :=
  match op, token with
  | add _ value, "-" => write ref (.arr (items ++ [value]))
  | op, token =>
    match index? token with
    | none => throw (.invalidIndex op.path)
    | some i => op.editIndex ref i items

/-- The edit of the value that is the parent of the target. -/
def editParent (op : Operation) (last : String) (ref : List String) : Editing Unit := do
  match ← look ref with
  | .obj members => op.editObject ref last members
  | .arr items => op.editArray ref last items
  | _ => throw (.missingPath op.path)

/-- The operation in place. -/
def edit (op : Operation) : Editing Unit := do
  match Pointer.tokens? op.path with
  | none => throw (.malformedPointer op.path)
  | some tokens =>
    match tokens.getLast? with
    | none =>
      match op with
      | add _ value => set value
      | replace _ value => set value
      | remove _ => throw .rootRemoval
    | some last =>
      let parent ← tokens.dropLast.foldlM op.enter []
      op.editParent last parent

end Operation

/-- The patch in place. -/
def editAll (ops : List Operation) : Editing Unit := forM ops Operation.edit

/-- What editing comes to if it changes the document only when nothing can fail any more. -/
def settled (doc : Json) : Except Fault Json → EStateM.Result Fault Json Unit
  | .ok result => .ok () result
  | .error fault => .error fault doc

/-- The document that editing leaves. -/
def left : EStateM.Result Fault Json Unit → Json
  | .ok _ doc => doc
  | .error _ doc => doc

section Edits

variable {op : Operation} {ref : List String} {doc : Json}

theorem run_look {value : Json} (there : doc.reach? index? ref = some value) :
    (look ref).run doc = .ok value doc := by
  show EStateM.Result.ok ((doc.reach? index? ref).getD .null) doc = _
  rw [there, Option.getD_some]

theorem run_bind_of_ok {α β : Type} {first : Editing α} {a : α} {mid : Json}
    (ran : first.run doc = .ok a mid) (next : α → Editing β) :
    (first >>= next).run doc = (next a).run mid := by
  show EStateM.bind first next doc = _
  have ran' : first doc = .ok a mid := ran
  rw [EStateM.bind, ran']
  rfl

theorem run_bind_of_error {α β : Type} {first : Editing α} {fault : Fault} {mid : Json}
    (ran : first.run doc = .error fault mid) (next : α → Editing β) :
    (first >>= next).run doc = .error fault mid := by
  show EStateM.bind first next doc = _
  have ran' : first doc = .error fault mid := ran
  rw [EStateM.bind, ran']

/-- In place an object is edited as one that is kept aside. -/
theorem run_editObject {key : String} {members : List (String × Json)}
    (there : doc.reach? index? ref = some (.obj members)) :
    (op.editObject ref key members).run doc =
      settled doc ((op.onObject key members).map fun ms => doc.rebuild index? ref (.obj ms)) := by
  unfold Operation.editObject Operation.onObject
  cases op with
  | add path value => rfl
  | replace path value => cases Members.find? key members <;> rfl
  | remove path =>
    cases found : Members.find? key members with
    | none =>
      have kept : doc.rebuild index? ref (.obj (Members.erase key members)) = doc := by
        rw [Members.erase_of_missing found, Json.rebuild_self there]
      show EStateM.Result.error _ (doc.rebuild index? ref (.obj (Members.erase key members))) = _
      rw [kept]
      rfl
    | some old => rfl

theorem run_editIndex (i : Nat) (items : List Json) : (op.editIndex ref i items).run doc =
    settled doc ((op.atIndex i items).map fun items => doc.rebuild index? ref (.arr items)) := by
  unfold Operation.editIndex Operation.atIndex
  cases op with
  | add path value =>
    by_cases fits : i ≤ items.length
    · simp only [fits, decide_true, if_true]
      rfl
    · simp only [fits, decide_false, if_false]
      rfl
  | replace path value | remove path =>
    by_cases fits : i < items.length
    · simp only [fits, decide_true, if_true]
      rfl
    · simp only [fits, decide_false, if_false]
      rfl

theorem editArray_eq {token : String} (other : ∀ path value, op = .add path value → token ≠ "-")
    (items : List Json) : op.editArray ref token items = match index? token with
      | none => throw (.invalidIndex op.path)
      | some i => op.editIndex ref i items := by
  unfold Operation.editArray
  split
  · exact absurd rfl (other _ _ rfl)
  · rfl

/-- In place an array is edited as one that is kept aside. -/
theorem run_editArray (token : String) (items : List Json) : (op.editArray ref token items).run doc =
    settled doc ((op.onArray token items).map fun items => doc.rebuild index? ref (.arr items)) := by
  by_cases atEnd : ∃ path value, op = .add path value ∧ token = "-"
  · obtain ⟨path, value, rfl, rfl⟩ := atEnd
    rfl
  · have other : ∀ path value, op = .add path value → token ≠ "-" :=
      fun path value same last => atEnd ⟨path, value, same, last⟩
    rw [editArray_eq other, Operation.onArray_eq other]
    cases index? token with
    | none => rfl
    | some i => exact run_editIndex i items

/-- In place the parent is edited as one that is kept aside. -/
theorem run_editParent {parent : Json} (there : doc.reach? index? ref = some parent) (last : String) :
    (op.editParent last ref).run doc =
      settled doc ((op.onParent last parent).map (doc.rebuild index? ref)) := by
  unfold Operation.editParent
  rw [run_bind_of_ok (run_look there)]
  cases parent with
  | obj members =>
    refine (run_editObject there).trans ?_
    rw [Operation.onParent]
    cases op.onObject last members <;> rfl
  | arr items =>
    refine (run_editArray last items).trans ?_
    rw [Operation.onParent]
    cases op.onArray last items <;> rfl
  | null | bool _ | num _ | str _ => rfl

/-- Going on by a name finds the value under it, or fails as an operation below the name does. -/
theorem run_enter (op : Operation) {value : Json} (there : doc.reach? index? ref = some value)
    (token : String) :
    (∃ child, value.child? index? token = some child ∧
      (op.enter ref token).run doc = .ok (ref ++ [token]) doc) ∨
    ∃ fault, (op.enter ref token).run doc = .error fault doc ∧
      ∀ next rest, op.within (token :: next :: rest) value = .error fault := by
  unfold Operation.enter
  rw [run_bind_of_ok (run_look there)]
  cases value with
  | obj members =>
    cases found : Members.find? token members with
    | none =>
      refine .inr ⟨.missingPath op.path, by simp only [found]; rfl, fun next rest => ?_⟩
      simp only [Operation.within_cons_cons, found]
    | some child => exact .inl ⟨child, found, by simp only [found]; rfl⟩
  | arr items =>
    cases named : index? token with
    | none =>
      refine .inr ⟨.invalidIndex op.path, rfl, fun next rest => ?_⟩
      simp only [Operation.within_cons_cons, named]
    | some i =>
      cases found : items[i]? with
      | none =>
        refine .inr ⟨.invalidIndex op.path, by simp only [found]; rfl, fun next rest => ?_⟩
        simp only [Operation.within_cons_cons, named, found]
      | some child =>
        exact .inl ⟨child, by simp [Json.child?, named, found], by simp only [found]; rfl⟩
  | null | bool _ | num _ | str _ =>
    exact .inr ⟨.missingPath op.path, rfl, fun next rest => by rw [Operation.within_cons_cons]⟩

/-- Going by the names of the parent finds it, or fails as the operation does. The document is only read
on the way. -/
theorem run_walk (op : Operation) {value : Json} (there : doc.reach? index? ref = some value)
    (tokens : List String) :
    (∃ parent, value.reach? index? tokens = some parent ∧
      (tokens.foldlM op.enter ref).run doc = .ok (ref ++ tokens) doc) ∨
    ∃ fault, (tokens.foldlM op.enter ref).run doc = .error fault doc ∧
      ∀ last, op.within (tokens ++ [last]) value = .error fault := by
  induction tokens generalizing ref value with
  | nil => exact .inl ⟨value, Json.reach?_nil value, by rw [List.append_nil]; rfl⟩
  | cons token rest ih =>
    rw [List.foldlM_cons]
    rcases run_enter op there token with ⟨child, found, entered⟩ | ⟨fault, stopped, fails⟩
    · rw [run_bind_of_ok entered]
      have onward : doc.reach? index? (ref ++ [token]) = some child := by
        rw [Json.reach?_append, there, Option.bind_some, Json.reach?_cons, found, Option.bind_some,
          Json.reach?_nil]
      rcases ih onward with ⟨parent, reached, walked⟩ | ⟨fault, stopped, fails⟩
      · refine .inl ⟨parent, ?_, by rw [walked, List.append_assoc, List.singleton_append]⟩
        rw [Json.reach?_cons, found, Option.bind_some, reached]
      · refine .inr ⟨fault, stopped, fun last => ?_⟩
        rw [List.cons_append, Operation.within_cons_of_child (by simp) found, fails last]
        rfl
    · refine .inr ⟨fault, run_bind_of_error stopped _, fun last => ?_⟩
      obtain ⟨next, others, whole⟩ : ∃ next others, rest ++ [last] = next :: others :=
        List.exists_cons_of_ne_nil (by simp)
      rw [List.cons_append, whole, fails]

/-- In place an operation does what it does to a document that is kept aside, or the document stays. -/
theorem run_edit (op : Operation) (doc : Json) : op.edit.run doc = settled doc (op.apply doc) := by
  unfold Operation.edit Operation.apply
  cases Pointer.tokens? op.path with
  | none => rfl
  | some tokens =>
    rcases List.eq_nil_or_concat tokens with rfl | ⟨p, last, rfl⟩
    · cases op <;> rfl
    · simp only [List.concat_eq_append, List.getLast?_concat, List.dropLast_concat]
      rcases run_walk op (Json.reach?_nil doc) p with
        ⟨parent, reached, walked⟩ | ⟨fault, stopped, fails⟩
      · rw [List.nil_append] at walked
        rw [run_bind_of_ok walked, run_editParent reached, Operation.within_of_reach? reached]
      · rw [run_bind_of_error stopped, fails last]
        rfl

/-- A patch goes on with what its first operation leaves, or stops there. -/
theorem run_editAll_cons (op : Operation) (rest : List Operation) (doc : Json) :
    (editAll (op :: rest)).run doc =
      match op.edit.run doc with
      | .ok _ mid => (editAll rest).run mid
      | .error fault mid => .error fault mid := by
  unfold editAll
  rw [List.forM_cons]
  cases ran : op.edit.run doc with
  | ok _ mid => rw [run_bind_of_ok ran]
  | error fault mid => rw [run_bind_of_error ran]

/-- In place a patch comes to what it comes to on a document that is kept aside. -/
theorem run_editAll (ops : List Operation) (doc : Json) : (editAll ops).run doc =
    match run ops doc with
    | (doc, none) => .ok () doc
    | (doc, some fault) => .error fault doc := by
  induction ops generalizing doc with
  | nil => rfl
  | cons op rest ih =>
    rw [run_editAll_cons, run_edit, run]
    cases op.apply doc with
    | error fault => rfl
    | ok mid => exact ih mid

theorem run_editAll_append (first second : List Operation) (doc : Json) :
    (editAll (first ++ second)).run doc =
      match (editAll first).run doc with
      | .ok _ mid => (editAll second).run mid
      | .error fault mid => .error fault mid := by
  induction first generalizing doc with
  | nil => rfl
  | cons op rest ih =>
    rw [List.cons_append, run_editAll_cons, run_editAll_cons]
    cases op.edit.run doc with
    | ok _ mid => exact ih mid
    | error fault mid => rfl

/-- An operation that fails leaves the document as it was. -/
theorem eq_of_run_edit_error {fault : Fault} {mid : Json} (h : op.edit.run doc = .error fault mid) :
    mid = doc := by
  rw [run_edit] at h
  cases acted : op.apply doc with
  | ok result =>
    rw [acted] at h
    cases h
  | error fault' =>
    rw [acted] at h
    cases h
    rfl

/-- A patch stops at the first operation that fails, with what those before it have made. -/
theorem run_editAll_error_iff {ops : List Operation} {fault : Fault} {mid : Json} :
    (editAll ops).run doc = .error fault mid ↔ ∃ before op after, ops = before ++ op :: after ∧
      (editAll before).run doc = .ok () mid ∧ op.edit.run mid = .error fault mid := by
  constructor
  · intro stopped
    induction ops generalizing doc with
    | nil => cases stopped
    | cons op rest ih =>
      rw [run_editAll_cons] at stopped
      cases ran : op.edit.run doc with
      | ok _ next =>
        rw [ran] at stopped
        obtain ⟨before, culprit, after, rfl, done, fails⟩ := ih stopped
        refine ⟨op :: before, culprit, after, rfl, ?_, fails⟩
        rw [run_editAll_cons, ran]
        exact done
      | error fault' next =>
        rw [ran] at stopped
        cases stopped
        obtain rfl := eq_of_run_edit_error ran
        exact ⟨[], op, rest, rfl, rfl, ran⟩
  · rintro ⟨before, op, after, rfl, done, fails⟩
    rw [run_editAll_append, done]
    show (editAll (op :: after)).run mid = _
    rw [run_editAll_cons, fails]

/-- A patch applies if each of its operations applies to what those before it have left. -/
theorem exists_run_editAll_ok_iff {ops : List Operation} :
    (∃ result, (editAll ops).run doc = .ok () result) ↔ ∀ before op after, ops = before ++ op :: after →
      ∃ result, op.edit.run (left ((editAll before).run doc)) = .ok () result := by
  constructor
  · rintro ⟨result, ran⟩ before op after rfl
    rw [run_editAll_append] at ran
    cases begun : (editAll before).run doc with
    | error fault mid =>
      rw [begun] at ran
      cases ran
    | ok _ mid =>
      rw [begun] at ran
      change (editAll (op :: after)).run mid = _ at ran
      rw [run_editAll_cons] at ran
      cases acted : op.edit.run mid with
      | ok _ next => exact ⟨next, acted⟩
      | error fault next =>
        rw [acted] at ran
        cases ran
  · intro each
    cases ran : (editAll ops).run doc with
    | ok _ result => exact ⟨result, rfl⟩
    | error fault mid =>
      obtain ⟨before, op, after, split, done, fails⟩ := run_editAll_error_iff.1 ran
      obtain ⟨result, acted⟩ := each before op after split
      rw [done] at acted
      change op.edit.run mid = _ at acted
      rw [fails] at acted
      cases acted

end Edits

/-- How a patch goes about the document it is applied to in place.

* `unharmed`: an operation that fails leaves the document as it was;
* `applies_iff`: the patch applies if and only if each operation applies to the document that those before
  it have left;
* `stops_iff`: it fails with a fault and leaves a document if and only if the operations before some one
  have applied and left this document, and this one fails on it with this fault, whatever comes after;
* `continues`: with another patch behind it, it comes to the other one on what it leaves, or to its fault;
* `kept_aside`: all this is what becomes of a document that is kept aside. -/
structure FailsCleanly (ops : List Operation) (doc : Json) : Prop where
  unharmed (op : Operation) (fault : Fault) (mid : Json) :
    op.edit.run doc = .error fault mid → mid = doc
  applies_iff : (∃ result, (editAll ops).run doc = .ok () result) ↔
    ∀ before op after, ops = before ++ op :: after →
      ∃ result, op.edit.run (left ((editAll before).run doc)) = .ok () result
  stops_iff (fault : Fault) (mid : Json) : (editAll ops).run doc = .error fault mid ↔
    ∃ before op after, ops = before ++ op :: after ∧ (editAll before).run doc = .ok () mid ∧
      op.edit.run mid = .error fault mid
  continues (more : List Operation) : (editAll (ops ++ more)).run doc =
    match (editAll ops).run doc with
    | .ok _ mid => (editAll more).run mid
    | .error fault mid => .error fault mid
  kept_aside : (∀ op : Operation, op.edit.run doc = settled doc (op.apply doc)) ∧
    (editAll ops).run doc =
      match run ops doc with
      | (doc, none) => .ok () doc
      | (doc, some fault) => .error fault doc

/-- **Patches fail cleanly.** Whatever the document and the operations, also with pointers that are none,
an operation changes the document only when it can no longer fail, and a patch is done up to its first
fault. -/
theorem editAll_failsCleanly (ops : List Operation) (doc : Json) : FailsCleanly ops doc where
  unharmed _ _ _ := eq_of_run_edit_error
  applies_iff := exists_run_editAll_ok_iff
  stops_iff _ _ := run_editAll_error_iff
  continues more := run_editAll_append ops more doc
  kept_aside := ⟨fun op => run_edit op doc, run_editAll ops doc⟩

end AppAdmission.Patch
