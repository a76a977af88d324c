import AppAdmission.Patch.Apply
import AppAdmission.Proofs.Json.Path
import AppAdmission.Proofs.Patch.Pointer

/-!
# Locations in a document

Names lead from the root of a document through the members of objects and the elements of arrays. Which
element a name stands for is left open: `reach?` and `rebuild` go by any reading of names as indexes. An
operation that applies is its action on the parent of its target, put back by `rebuild`. The locations of
a document are those that are reached by the usual digits of indexes, and what is put back at one of them
is not seen at the others.
-/

namespace AppAdmission

open Pointer (index? ordinal?)

namespace Json

section Reading

variable (index : String → Option Nat)

/-- The value under a name: a member of an object, or the element of an array at the index that the name
stands for. -/
def child? : Json → String → Option Json
  | obj ms, token => Members.find? token ms
  | arr items, token => (index token).bind fun i => items[i]?
  | _, _ => none

/-- The value with another one in the place of the one under a name. -/
def withChild : Json → String → Json → Json
  | obj ms, token, child => obj (Members.replace token child ms)
  | arr items, token, child => arr (((index token).map fun i => items.set i child).getD items)
  | j, _, _ => j

/-- The value that the names lead to. -/
def reach? : Json → List String → Option Json
  | j, [] => some j
  | j, token :: rest => (j.child? index token).bind fun child => child.reach? rest

/-- The value with another one in the place that the names lead to. -/
def rebuild : Json → List String → Json → Json
  | _, [], value => value
  | j, token :: rest, value =>
    match j.child? index token with
    | none => j
    | some child => j.withChild index token (child.rebuild rest value)

variable {index}

@[simp] theorem reach?_nil (j : Json) : j.reach? index [] = some j := by
  cases j <;> rfl

theorem reach?_cons (j : Json) (token : String) (rest : List String) : j.reach? index (token :: rest) =
    (j.child? index token).bind fun child => child.reach? index rest := by
  cases j <;> rfl

@[simp] theorem rebuild_nil (j value : Json) : j.rebuild index [] value = value := by
  cases j <;> rfl

theorem rebuild_cons {j child : Json} {token : String} (there : j.child? index token = some child)
    (rest : List String) (value : Json) : j.rebuild index (token :: rest) value =
      j.withChild index token (child.rebuild index rest value) := by
  rw [rebuild, there]

theorem reach?_append (j : Json) (p q : List String) :
    j.reach? index (p ++ q) = (j.reach? index p).bind fun child => child.reach? index q := by
  induction p generalizing j with
  | nil => simp
  | cons token rest ih =>
    rw [List.cons_append, reach?_cons, reach?_cons, Option.bind_assoc]
    exact congrArg _ (funext ih)

theorem child?_withChild_self {j old : Json} {token : String} (there : j.child? index token = some old)
    (child : Json) : (j.withChild index token child).child? index token = some child := by
  cases j with
  | obj ms => exact Members.find?_replace_self there child
  | arr items =>
    obtain ⟨i, named, within⟩ := Option.bind_eq_some_iff.1 there
    obtain ⟨below, -⟩ := List.getElem?_eq_some_iff.1 within
    simp [child?, withChild, named, below]
  | null | bool _ | num _ | str _ => cases there

/-- Behind the place of a value that is put back is the value. -/
theorem reach?_rebuild {j old : Json} {p : List String} (there : j.reach? index p = some old)
    (value : Json) (q : List String) :
    (j.rebuild index p value).reach? index (p ++ q) = value.reach? index q := by
  induction p generalizing j with
  | nil => simp
  | cons token rest ih =>
    rw [reach?_cons] at there
    obtain ⟨child, found, onward⟩ := Option.bind_eq_some_iff.1 there
    rw [rebuild_cons found, List.cons_append, reach?_cons, child?_withChild_self found, Option.bind_some,
      ih onward]

theorem withChild_self {j child : Json} {token : String} (there : j.child? index token = some child) :
    j.withChild index token child = j := by
  cases j with
  | obj ms => exact congrArg obj (Members.replace_self there)
  | arr items =>
    obtain ⟨i, named, within⟩ := Option.bind_eq_some_iff.1 there
    obtain ⟨below, rfl⟩ := List.getElem?_eq_some_iff.1 within
    simp [withChild, named]
  | null | bool _ | num _ | str _ => cases there

theorem withChild_withChild (j first second : Json) (token : String) :
    (j.withChild index token first).withChild index token second = j.withChild index token second := by
  cases j with
  | obj ms => exact congrArg obj (Members.replace_replace token first second ms)
  | arr items => cases named : index token <;> simp [withChild, named]
  | null | bool _ | num _ | str _ => rfl

/-- The value that is there already can be put back. -/
theorem rebuild_self {j value : Json} {p : List String} (there : j.reach? index p = some value) :
    j.rebuild index p value = j := by
  induction p generalizing j with
  | nil =>
    obtain rfl : j = value := by simpa using there
    rw [rebuild_nil]
  | cons token rest ih =>
    rw [reach?_cons] at there
    obtain ⟨child, found, onward⟩ := Option.bind_eq_some_iff.1 there
    rw [rebuild_cons found, ih onward, withChild_self found]

/-- A second value that is put back takes the place of the first. -/
theorem rebuild_rebuild (j first second : Json) (p : List String) :
    (j.rebuild index p first).rebuild index p second = j.rebuild index p second := by
  induction p generalizing j with
  | nil => simp
  | cons token rest ih =>
    cases found : j.child? index token with
    | none => simp [rebuild, found]
    | some child =>
      rw [rebuild_cons found, rebuild_cons (child?_withChild_self found _), rebuild_cons found, ih,
        withChild_withChild]

theorem canonicalB_child? {j child : Json} {token : String} (free : j.canonicalB = true)
    (there : j.child? index token = some child) : child.canonicalB = true := by
  cases j with
  | obj ms => exact canonicalB_of_find? free there
  | arr items =>
    obtain ⟨i, -, within⟩ := Option.bind_eq_some_iff.1 there
    exact canonicalB_arr_iff.1 free child (List.mem_of_getElem? within)
  | null | bool _ | num _ | str _ => cases there

theorem canonicalB_reach? {j child : Json} {p : List String} (free : j.canonicalB = true)
    (there : j.reach? index p = some child) : child.canonicalB = true := by
  induction p generalizing j with
  | nil =>
    obtain rfl : j = child := by simpa using there
    exact free
  | cons token rest ih =>
    rw [reach?_cons] at there
    obtain ⟨next, found, onward⟩ := Option.bind_eq_some_iff.1 there
    exact ih (canonicalB_child? free found) onward

end Reading

/-- The value at a location. -/
abbrev locate? (doc : Json) (location : List String) : Option Json := doc.reach? ordinal? location

theorem child?_withChild_ne {token other : String} (h : other ≠ token) (j child : Json) :
    (j.withChild ordinal? token child).child? ordinal? other = j.child? ordinal? other := by
  cases j with
  | obj ms => exact Members.find?_replace_ne child ms h
  | arr items =>
    cases named : ordinal? token with
    | none => simp [child?, withChild, named]
    | some i =>
      cases asked : ordinal? other with
      | none => simp [child?, withChild, named, asked]
      | some j =>
        have apart : i ≠ j := by
          rintro rfl
          exact h (Pointer.ordinal?_inj asked named)
        simp [child?, withChild, named, asked, apart]
  | null | bool _ | num _ | str _ => rfl

/-- A value that is put back is not seen apart from its place. -/
theorem locate?_rebuild_of_apart {p q : List String} (h : Apart p q) (j value : Json) :
    (j.rebuild ordinal? p value).locate? q = j.locate? q := by
  induction p generalizing q j with
  | nil => exact absurd List.nil_prefix h.1
  | cons token rest ih =>
    cases q with
    | nil => exact absurd List.nil_prefix h.2
    | cons other others =>
      cases there : j.child? ordinal? token with
      | none => rw [rebuild, there]
      | some child =>
        rw [rebuild_cons there, locate?, locate?, reach?_cons, reach?_cons]
        by_cases same : other = token
        · subst same
          rw [child?_withChild_self there, there]
          exact ih h.tail child
        · rw [child?_withChild_ne same]

/-- The names ask every array on their way for an element by a regular name. -/
def RegularAlong (doc : Json) (tokens : List String) : Prop :=
  ∀ front token back items, tokens = front ++ token :: back → doc.locate? front = some (arr items) →
    Pointer.Regular token

theorem RegularAlong.head {j : Json} {token : String} {rest : List String}
    (h : j.RegularAlong (token :: rest)) {items : List Json} (array : j = arr items) :
    index? token = ordinal? token :=
  (h [] token rest items rfl (array ▸ reach?_nil j)).index?_eq

theorem RegularAlong.child?_eq {j : Json} {token : String} {rest : List String}
    (h : j.RegularAlong (token :: rest)) : j.child? index? token = j.child? ordinal? token := by
  cases j with
  | arr items => rw [child?, child?, h.head rfl]
  | obj _ | null | bool _ | num _ | str _ => rfl

theorem RegularAlong.withChild_eq {j : Json} {token : String} {rest : List String}
    (h : j.RegularAlong (token :: rest)) (child : Json) :
    j.withChild index? token child = j.withChild ordinal? token child := by
  cases j with
  | arr items => rw [withChild, withChild, h.head rfl]
  | obj _ | null | bool _ | num _ | str _ => rfl

theorem RegularAlong.tail {j child : Json} {token : String} {rest : List String}
    (h : j.RegularAlong (token :: rest)) (there : j.child? ordinal? token = some child) :
    child.RegularAlong rest := by
  intro front last back items whole found
  refine h (token :: front) last back items (by rw [whole, List.cons_append]) ?_
  rw [locate?, reach?_cons, there]
  exact found

/-- Regular names lead where their digits lead. -/
theorem RegularAlong.reach?_eq {j : Json} {p more : List String}
    (h : j.RegularAlong (p ++ more)) : j.reach? index? p = j.locate? p := by
  induction p generalizing j with
  | nil => rw [locate?, reach?_nil, reach?_nil]
  | cons token rest ih =>
    rw [locate?, reach?_cons, reach?_cons, h.child?_eq]
    cases there : j.child? ordinal? token with
    | none => rfl
    | some child => exact ih (h.tail there)

theorem RegularAlong.rebuild_eq {j : Json} {p more : List String}
    (h : j.RegularAlong (p ++ more)) (value : Json) :
    j.rebuild index? p value = j.rebuild ordinal? p value := by
  induction p generalizing j with
  | nil => rw [rebuild_nil, rebuild_nil]
  | cons token rest ih =>
    cases there : j.child? ordinal? token with
    | none => rw [rebuild, rebuild, h.child?_eq, there]
    | some child =>
      rw [rebuild_cons there, rebuild_cons (h.child?_eq.trans there), h.withChild_eq, ih (h.tail there)]

end Json

namespace Patch.Operation

theorem within_cons_cons (op : Operation) (token : String) (next : String) (rest : List String)
    (doc : Json) : op.within (token :: next :: rest) doc =
      match doc with
      | .obj members =>
        match Members.find? token members with
        | none => .error (.missingPath op.path)
        | some child => do
          let child ← op.within (next :: rest) child
          return .obj (Members.replace token child members)
      | .arr items =>
        match Pointer.index? token with
        | none => .error (.invalidIndex op.path)
        | some i =>
          match items[i]? with
          | none => .error (.invalidIndex op.path)
          | some child => do
            let child ← op.within (next :: rest) child
            return .arr (items.set i child)
      | _ => .error (.missingPath op.path) := by
  cases doc <;> rfl

/-- What a step makes of the contents of a value it makes of the value. -/
theorem map_ok_iff {f : α → Json} {step : Except Fault α} {result : Json} :
    step.map f = .ok result ↔ ∃ contents, step = .ok contents ∧ result = f contents := by
  cases step <;> simp [Except.map, eq_comm]

/-- An operation below a name acts on the value under the name. -/
theorem within_of_child {op : Operation} {token : String} {doc child : Json}
    (there : doc.child? index? token = some child) (next : String) (rest : List String) :
    op.within (token :: next :: rest) doc =
      (op.within (next :: rest) child).map (doc.withChild index? token) := by
  rw [within_cons_cons]
  cases doc with
  | obj ms =>
    have found : Members.find? token ms = some child := there
    simp only [found]
    cases op.within (next :: rest) child <;> rfl
  | arr items =>
    obtain ⟨i, named, found⟩ := Option.bind_eq_some_iff.1 there
    simp only [named, found]
    cases op.within (next :: rest) child with
    | error fault => rfl
    | ok child' => simp [Except.map, Json.withChild, named, bind, Except.bind, pure, Except.pure]
  | null | bool _ | num _ | str _ => cases there

theorem within_cons_of_child {op : Operation} {token : String} {rest : List String} (more : rest ≠ [])
    {doc child : Json} (there : doc.child? index? token = some child) :
    op.within (token :: rest) doc = (op.within rest child).map (doc.withChild index? token) := by
  obtain ⟨next, others, rfl⟩ := List.exists_cons_of_ne_nil more
  exact within_of_child there next others

/-- An operation below a location acts on the parent there, and what it makes of the parent is put back. -/
theorem within_of_reach? {op : Operation} {p : List String} {doc parent : Json}
    (there : doc.reach? index? p = some parent) (last : String) :
    op.within (p ++ [last]) doc = (op.onParent last parent).map (doc.rebuild index? p) := by
  induction p generalizing doc with
  | nil =>
    obtain rfl : doc = parent := by simpa using there
    simp only [List.nil_append, within]
    cases op.onParent last doc <;> simp [Except.map]
  | cons token rest ih =>
    rw [Json.reach?_cons] at there
    obtain ⟨child, found, onward⟩ := Option.bind_eq_some_iff.1 there
    rw [List.cons_append, within_cons_of_child (by simp) found, ih onward]
    cases op.onParent last parent with
    | error fault => rfl
    | ok parent' => exact congrArg Except.ok (Json.rebuild_cons found rest parent').symm

/-- Below a name with nothing under it no operation applies. -/
theorem within_of_no_child {token : String} {doc : Json} (gone : doc.child? index? token = none)
    (op : Operation) (next : String) (rest : List String) :
    ∃ fault, op.within (token :: next :: rest) doc = .error fault := by
  rw [within_cons_cons]
  cases doc with
  | obj ms =>
    have missing : Members.find? token ms = none := gone
    simp only [missing]
    exact ⟨_, rfl⟩
  | arr items =>
    cases named : index? token with
    | none => exact ⟨_, rfl⟩
    | some i =>
      have missing : items[i]? = none := by simpa [Json.child?, named] using gone
      simp only [missing]
      exact ⟨_, rfl⟩
  | null | bool _ | num _ | str _ => exact ⟨_, rfl⟩

theorem within_cons_ok_iff {op : Operation} {token : String} {rest : List String} (more : rest ≠ [])
    {doc result : Json} : op.within (token :: rest) doc = .ok result ↔
      ∃ child child', doc.child? index? token = some child ∧ op.within rest child = .ok child' ∧
        result = doc.withChild index? token child' := by
  obtain ⟨next, others, rfl⟩ := List.exists_cons_of_ne_nil more
  cases there : doc.child? index? token with
  | none =>
    obtain ⟨fault, fails⟩ := within_of_no_child there op next others
    simp [fails]
  | some child =>
    rw [within_of_child there, map_ok_iff]
    simp

/-- An operation that applies acts on the parent of its target, and what it makes of the parent is put
back. -/
theorem within_ok_iff {op : Operation} {p : List String} {last : String} {doc result : Json} :
    op.within (p ++ [last]) doc = .ok result ↔
      ∃ parent parent', doc.reach? index? p = some parent ∧ op.onParent last parent = .ok parent' ∧
        result = doc.rebuild index? p parent' := by
  induction p generalizing doc result with
  | nil => simp [within, eq_comm]
  | cons token rest ih =>
    rw [List.cons_append, within_cons_ok_iff (by simp), Json.reach?_cons]
    constructor
    · rintro ⟨child, child', there, acted, rfl⟩
      obtain ⟨parent, parent', found, made, rfl⟩ := ih.1 acted
      have onward : (doc.child? index? token).bind (fun child => child.reach? index? rest) =
          some parent := by
        rw [there]
        exact found
      exact ⟨parent, parent', onward, made, (Json.rebuild_cons there rest parent').symm⟩
    · rintro ⟨parent, parent', found, made, rfl⟩
      obtain ⟨child, there, onward⟩ := Option.bind_eq_some_iff.1 found
      have acted := ih.2 ⟨parent, parent', onward, made, rfl⟩
      exact ⟨child, _, there, acted, Json.rebuild_cons there rest parent'⟩

end Patch.Operation

end AppAdmission
