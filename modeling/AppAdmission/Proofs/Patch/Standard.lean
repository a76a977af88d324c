import AppAdmission.Proofs.Patch.Location
import AppAdmission.Proofs.Patch.Sequence
import AppAdmission.Proofs.Patch.Written

/-!
# Operations by the standard

RFC 6902 says of an operation when it applies, what it makes of its target and what it leaves alone:
`Admissible`, `Performed` and the locations that are not `Touched`. An operation conforms to it in every
document if its pointer is well-formed and asks the arrays on its way by regular names.
-/

namespace AppAdmission.Patch.Operation

open Pointer (index? ordinal?)

/-- The index at which an operation acts in an array of some length. An addition at `-` acts behind the
last element. -/
def slot? (op : Operation) (token : String) (count : Nat) : Option Nat :=
  match op with
  | add .. => if token = "-" then some count else ordinal? token
  | replace .. | remove .. => ordinal? token

/-- An array of some length has the index that the operation needs. -/
def Fits (op : Operation) (i count : Nat) : Prop :=
  match op with
  | add .. => i ≤ count
  | replace .. | remove .. => i < count

/-- The operation has something to act on in the parent of its target. -/
def Admits (op : Operation) (token : String) : Json → Prop
  | .obj ms =>
    match op with
    | add .. => True
    | replace .. | remove .. => ∃ old, Members.find? token ms = some old
  | .arr items => ∃ i, op.slot? token items.length = some i ∧ op.Fits i items.length
  | _ => False

/-- There is something in the document for the operation to act on. -/
inductive Admissible (op : Operation) (doc : Json) (tokens : List String) : Prop where
  | root {value : Json} : tokens = [] → op.value? = some value → op.Admissible doc tokens
  | within {p : List String} {last : String} {parent : Json} :
    tokens = p ++ [last] → doc.locate? p = some parent → op.Admits last parent →
      op.Admissible doc tokens

/-- What an operation at an index makes of the elements of an array. -/
inductive Edited : Operation → Nat → List Json → List Json → Prop where
  | insert (path : String) (value : Json) (before after : List Json) :
    Edited (.add path value) before.length (before ++ after) (before ++ value :: after)
  | exchange (path : String) (value old : Json) (before after : List Json) :
    Edited (.replace path value) before.length (before ++ old :: after) (before ++ value :: after)
  | delete (path : String) (old : Json) (before after : List Json) :
    Edited (.remove path) before.length (before ++ old :: after) (before ++ after)

/-- The target is as the operation asks. -/
inductive Performed (op : Operation) (doc : Json) (tokens : List String) (result : Json) : Prop where
  | root : tokens = [] → op.value? = some result → op.Performed doc tokens result
  | member {p : List String} {last : String} {ms ms' : List (String × Json)} :
    tokens = p ++ [last] → doc.locate? p = some (.obj ms) → result.locate? p = some (.obj ms') →
      Members.find? last ms' = op.value? → op.Performed doc tokens result
  | element {p : List String} {last : String} {items items' : List Json} {i : Nat} :
    tokens = p ++ [last] → doc.locate? p = some (.arr items) → result.locate? p = some (.arr items') →
      op.slot? last items.length = some i → op.Edited i items items' → op.Performed doc tokens result

/-- An operation at index `i` of an array of some length moves an element from or to index `j`. -/
def Shifts (op : Operation) (count i j : Nat) : Prop :=
  match op with
  | add .. => i ≤ j ∧ j ≤ count
  | replace .. => False
  | remove .. => i ≤ j ∧ j < count

/-- The locations that an operation may change: the target with all above and below it, and the elements
that are moved with all below them. -/
inductive Touched (op : Operation) (doc : Json) (tokens : List String) : List String → Prop where
  | above {q : List String} : q <+: tokens → op.Touched doc tokens q
  | below {q : List String} : tokens <+: q → op.Touched doc tokens q
  | moved {p rest : List String} {last : String} {items : List Json} {i j : Nat} :
    tokens = p ++ [last] → doc.locate? p = some (.arr items) → op.slot? last items.length = some i →
      op.Shifts items.length i j → op.Touched doc tokens (p ++ toString j :: rest)

/-- An operation at a location does what the standard says. -/
structure Conforms (op : Operation) (doc : Json) (tokens : List String) : Prop where
  applies : (∃ result, Patch.apply [op] doc = .ok result) ↔ op.Admissible doc tokens
  performed {result : Json} : Patch.apply [op] doc = .ok result → op.Performed doc tokens result
  kept {result : Json} {q : List String} : Patch.apply [op] doc = .ok result →
    ¬op.Touched doc tokens q → result.locate? q = doc.locate? q

theorem onRoot_ok_iff {op : Operation} {result : Json} :
    op.onRoot = .ok result ↔ op.value? = some result := by
  cases op with
  | add _ value | replace _ value => simp [onRoot, value?]
  | remove _ => simp [onRoot, value?]

/-- In an object only the member is another. -/
theorem onObject_ok {op : Operation} {key : String} {ms ms' : List (String × Json)}
    (h : op.onObject key ms = .ok ms') : Members.find? key ms' = op.value? ∧
      ∀ other ≠ key, Members.find? other ms' = Members.find? other ms := by
  cases op with
  | add path value =>
    cases h
    exact ⟨Members.find?_insert_self key value ms, fun other => Members.find?_insert_ne value ms⟩
  | replace path value =>
    cases there : Members.find? key ms with
    | none => simp [onObject, there] at h
    | some old =>
      simp only [onObject, there, Except.ok.injEq] at h
      subst h
      exact ⟨Members.find?_replace_self there value, fun other => Members.find?_replace_ne value ms⟩
  | remove path =>
    cases there : Members.find? key ms with
    | none => simp [onObject, there] at h
    | some old =>
      simp only [onObject, there, Except.ok.injEq] at h
      subst h
      exact ⟨Members.find?_erase_self key ms, fun other => Members.find?_erase_ne ms⟩

theorem exists_onObject_iff {op : Operation} {key : String} {ms : List (String × Json)} :
    (∃ ms', op.onObject key ms = .ok ms') ↔ op.Admits key (.obj ms) := by
  cases op with
  | add path value => simp [onObject, Admits]
  | replace path value => cases there : Members.find? key ms <;> simp [onObject, Admits, there]
  | remove path => cases there : Members.find? key ms <;> simp [onObject, Admits, there]

theorem exists_append_of_le {items : List Json} {i : Nat} (h : i ≤ items.length) :
    ∃ before after, items = before ++ after ∧ i = before.length :=
  ⟨items.take i, items.drop i, (List.take_append_drop i items).symm, by simp [h]⟩

theorem exists_append_of_lt {items : List Json} {i : Nat} (h : i < items.length) :
    ∃ before old after, items = before ++ old :: after ∧ i = before.length := by
  obtain ⟨before, after, rfl, rfl⟩ := exists_append_of_le h.le
  cases after with
  | nil => simp at h
  | cons old after => exact ⟨before, old, after, rfl, rfl⟩

theorem insertIdx_append (value : Json) (before after : List Json) :
    (before ++ after).insertIdx before.length value = before ++ value :: after := by
  induction before with
  | nil => rfl
  | cons first rest ih => simp [ih]

/-- At an index an operation makes of the elements what it is to make of them. -/
theorem atIndex_ok_iff {op : Operation} {i : Nat} {items items' : List Json} :
    op.atIndex i items = .ok items' ↔ op.Edited i items items' := by
  constructor
  · intro h
    cases op with
    | add path value =>
      simp only [atIndex] at h
      split at h
      · next fits =>
        obtain ⟨before, after, rfl, rfl⟩ := exists_append_of_le fits
        rw [insertIdx_append] at h
        cases h
        exact .insert path value before after
      · cases h
    | replace path value =>
      simp only [atIndex] at h
      split at h
      · next fits =>
        obtain ⟨before, old, after, rfl, rfl⟩ := exists_append_of_lt fits
        cases h
        simpa using Edited.exchange path value old before after
      · cases h
    | remove path =>
      simp only [atIndex] at h
      split at h
      · next fits =>
        obtain ⟨before, old, after, rfl, rfl⟩ := exists_append_of_lt fits
        cases h
        simpa [List.eraseIdx_append_of_length_le] using Edited.delete path old before after
      · cases h
  · intro edited
    cases edited with
    | insert path value before after => simp [atIndex, insertIdx_append]
    | exchange path value old before after => simp [atIndex]
    | delete path old before after => simp [atIndex, List.eraseIdx_append_of_length_le]

theorem exists_edited_iff {op : Operation} {i : Nat} {items : List Json} :
    (∃ items', op.Edited i items items') ↔ op.Fits i items.length := by
  simp only [← atIndex_ok_iff]
  cases op with
  | add path value => by_cases fits : i ≤ items.length <;> simp [atIndex, Fits, fits]
  | replace path value => by_cases fits : i < items.length <;> simp [atIndex, Fits, fits]
  | remove path => by_cases fits : i < items.length <;> simp [atIndex, Fits, fits]

/-- Apart from an addition at the end, an array is edited at the index that the name stands for. -/
theorem onArray_eq {op : Operation} {token : String}
    (other : ∀ path value, op = add path value → token ≠ "-") (items : List Json) :
    op.onArray token items = match index? token with
      | some i => op.atIndex i items
      | none => .error (.invalidIndex op.path) := by
  unfold onArray
  split
  · exact absurd rfl (other _ _ rfl)
  · rfl

/-- In an array the operation acts at the index that a regular name stands for. -/
theorem onArray_ok_iff {op : Operation} {token : String} {items items' : List Json}
    (regular : index? token = ordinal? token) : op.onArray token items = .ok items' ↔
      ∃ i, op.slot? token items.length = some i ∧ op.Edited i items items' := by
  have plain (other : ∀ path value, op = add path value → token ≠ "-") :
      op.onArray token items = .ok items' ↔ ∃ i, ordinal? token = some i ∧ op.Edited i items items' := by
    rw [onArray_eq other, ← regular]
    cases index? token with
    | none => simp
    | some i => simp [atIndex_ok_iff]
  cases op with
  | add path value =>
    by_cases last : token = "-"
    · subst last
      simp [onArray, slot?, ← atIndex_ok_iff, atIndex, List.insertIdx_length_self]
    · rw [plain fun _ _ _ => last, slot?, if_neg last]
  | replace path value | remove path =>
    refine plain fun _ _ same => ?_
    cases same

theorem exists_onArray_iff {op : Operation} {token : String} {items : List Json}
    (regular : index? token = ordinal? token) :
    (∃ items', op.onArray token items = .ok items') ↔ op.Admits token (.arr items) := by
  simp only [onArray_ok_iff regular, Admits, ← exists_edited_iff]
  exact exists_comm.trans (exists_congr fun i => exists_and_left)

/-- The operation acts on the parent of its target if it has something to act on there. -/
theorem exists_onParent_iff {op : Operation} {token : String} {parent : Json}
    (regular : ∀ items, parent = .arr items → index? token = ordinal? token) :
    (∃ parent', op.onParent token parent = .ok parent') ↔ op.Admits token parent := by
  cases parent with
  | obj ms =>
    rw [← exists_onObject_iff, onParent]
    cases op.onObject token ms <;> simp [Except.map]
  | arr items =>
    rw [← exists_onArray_iff (regular items rfl), onParent]
    cases op.onArray token items <;> simp [Except.map]
  | null | bool _ | num _ | str _ => simp [onParent, Admits]

/-- Elements that are not moved stay, apart from the target. -/
theorem Edited.getElem?_eq {op : Operation} {i j : Nat} {items items' : List Json}
    (h : op.Edited i items items') (other : j ≠ i) (still : ¬op.Shifts items.length i j) :
    items'[j]? = items[j]? := by
  cases h with
  | insert path value before after =>
    simp only [Shifts, List.length_append] at still
    rcases Nat.lt_or_ge j before.length with front | back
    · rw [List.getElem?_append_left front, List.getElem?_append_left front]
    · rw [List.getElem?_eq_none (by simp; omega), List.getElem?_eq_none (by simp; omega)]
  | exchange path value old before after =>
    rcases Nat.lt_or_ge j before.length with front | back
    · rw [List.getElem?_append_left front, List.getElem?_append_left front]
    · obtain ⟨k, behind⟩ : ∃ k, j - before.length = k + 1 := ⟨j - before.length - 1, by omega⟩
      rw [List.getElem?_append_right back, List.getElem?_append_right back, behind,
        List.getElem?_cons_succ, List.getElem?_cons_succ]
  | delete path old before after =>
    simp only [Shifts, List.length_append, List.length_cons] at still
    rcases Nat.lt_or_ge j before.length with front | back
    · rw [List.getElem?_append_left front, List.getElem?_append_left front]
    · rw [List.getElem?_eq_none (by simp; omega), List.getElem?_eq_none (by simp; omega)]

/-- Another name than that of the target stands for another index, if that is not of an element that is
moved. -/
theorem Edited.ne_slot {op : Operation} {token other : String} {i j : Nat} {items items' : List Json}
    (h : op.Edited i items items') (slot : op.slot? token items.length = some i)
    (asked : ordinal? other = some j) (apart : other ≠ token) (still : ¬op.Shifts items.length i j) :
    j ≠ i := by
  rintro rfl
  cases h with
  | insert path value before after => exact still ⟨Nat.le_refl _, by simp⟩
  | exchange path value old before after => exact apart (Pointer.ordinal?_inj asked slot)
  | delete path old before after => exact apart (Pointer.ordinal?_inj asked slot)

/-- What is under another name of the parent stays, if it is no element that is moved. -/
theorem child?_onParent_ne {op : Operation} {token other : String} {parent parent' : Json}
    (regular : ∀ items, parent = .arr items → index? token = ordinal? token)
    (h : op.onParent token parent = .ok parent') (apart : other ≠ token)
    (still : ∀ items i j, parent = .arr items → op.slot? token items.length = some i →
      ordinal? other = some j → ¬op.Shifts items.length i j) :
    parent'.child? ordinal? other = parent.child? ordinal? other := by
  cases parent with
  | obj ms =>
    obtain ⟨ms', acted, rfl⟩ := map_ok_iff.1 h
    exact (onObject_ok acted).2 other apart
  | arr items =>
    obtain ⟨items', acted, rfl⟩ := map_ok_iff.1 h
    obtain ⟨i, slot, edited⟩ := (onArray_ok_iff (regular items rfl)).1 acted
    cases asked : ordinal? other with
    | none => simp [Json.child?, asked]
    | some j =>
      have unmoved := still items i j rfl slot asked
      simpa [Json.child?, asked] using
        edited.getElem?_eq (edited.ne_slot slot asked apart unmoved) unmoved
  | null | bool _ | num _ | str _ => cases h

/-- The parent of the target is as the operation asks. -/
theorem performed_of_onParent {op : Operation} {doc result parent parent' : Json} {p : List String}
    {last : String} (regular : ∀ items, parent = .arr items → index? last = ordinal? last)
    (found : doc.locate? p = some parent) (left : result.locate? p = some parent')
    (h : op.onParent last parent = .ok parent') : op.Performed doc (p ++ [last]) result := by
  cases parent with
  | obj ms =>
    obtain ⟨ms', acted, rfl⟩ := map_ok_iff.1 h
    exact .member rfl found left (onObject_ok acted).1
  | arr items =>
    obtain ⟨items', acted, rfl⟩ := map_ok_iff.1 h
    obtain ⟨i, slot, edited⟩ := (onArray_ok_iff (regular items rfl)).1 acted
    exact .element rfl found left slot edited
  | null | bool _ | num _ | str _ => cases h

section Below

variable {op : Operation} {doc : Json} {p : List String} {last : String}

theorem index?_last (regular : doc.RegularAlong (p ++ [last])) {parent : Json}
    (found : doc.locate? p = some parent) (items : List Json) (array : parent = .arr items) :
    index? last = ordinal? last :=
  (regular p last [] items rfl (array ▸ found)).index?_eq

theorem within_regular_iff (regular : doc.RegularAlong (p ++ [last])) {result : Json} :
    op.within (p ++ [last]) doc = .ok result ↔
      ∃ parent parent', doc.locate? p = some parent ∧ op.onParent last parent = .ok parent' ∧
        result = doc.rebuild ordinal? p parent' := by
  simp only [within_ok_iff, regular.reach?_eq, regular.rebuild_eq]

theorem exists_within_iff (regular : doc.RegularAlong (p ++ [last])) :
    (∃ result, op.within (p ++ [last]) doc = .ok result) ↔ op.Admissible doc (p ++ [last]) := by
  constructor
  · rintro ⟨result, ran⟩
    obtain ⟨parent, parent', found, acted, -⟩ := (within_regular_iff regular).1 ran
    exact .within rfl found ((exists_onParent_iff (index?_last regular found)).1 ⟨parent', acted⟩)
  · rintro (⟨none, -⟩ | ⟨same, found, admits⟩)
    · simp at none
    · obtain ⟨rfl, rfl⟩ := List.append_singleton_inj.1 same
      obtain ⟨parent', acted⟩ := (exists_onParent_iff (index?_last regular found)).2 admits
      exact ⟨_, (within_regular_iff regular).2 ⟨_, parent', found, acted, rfl⟩⟩

theorem performed_of_within (regular : doc.RegularAlong (p ++ [last])) {result : Json}
    (ran : op.within (p ++ [last]) doc = .ok result) : op.Performed doc (p ++ [last]) result := by
  obtain ⟨parent, parent', found, acted, rfl⟩ := (within_regular_iff regular).1 ran
  have left : (doc.rebuild ordinal? p parent').locate? p = some parent' := by
    simpa using Json.reach?_rebuild found parent' []
  exact performed_of_onParent (index?_last regular found) found left acted

/-- What an operation does not touch stays: apart from the parent of its target nothing is rebuilt, and
in the parent only the target is another and elements are moved. -/
theorem locate?_of_within (regular : doc.RegularAlong (p ++ [last])) {result : Json} {q : List String}
    (ran : op.within (p ++ [last]) doc = .ok result) (untouched : ¬op.Touched doc (p ++ [last]) q) :
    result.locate? q = doc.locate? q := by
  obtain ⟨parent, parent', found, acted, rfl⟩ := (within_regular_iff regular).1 ran
  by_cases behind : p <+: q
  · obtain ⟨others, rfl⟩ := behind
    cases others with
    | nil => exact absurd (.above ⟨[last], by simp⟩) untouched
    | cons other rest =>
      have apart : other ≠ last := by
        rintro rfl
        exact untouched (.below ⟨rest, by simp⟩)
      have still : ∀ items i j, parent = .arr items → op.slot? last items.length = some i →
          ordinal? other = some j → ¬op.Shifts items.length i j := by
        rintro items i j rfl slot asked shifts
        obtain rfl := Pointer.ordinal?_eq_some_iff.1 asked
        exact untouched (.moved rfl found slot shifts)
      have same := child?_onParent_ne (index?_last regular found) acted apart still
      calc (doc.rebuild ordinal? p parent').locate? (p ++ other :: rest)
        _ = parent'.locate? (other :: rest) := Json.reach?_rebuild found parent' _
        _ = parent.locate? (other :: rest) := by
          rw [Json.locate?, Json.locate?, Json.reach?_cons, Json.reach?_cons, same]
        _ = (doc.locate? p).bind fun child => child.locate? (other :: rest) := by
          rw [found, Option.bind_some]
        _ = doc.locate? (p ++ other :: rest) := (Json.reach?_append doc p _).symm
  · have before : ¬q <+: p := fun above => untouched (.above (above.trans (List.prefix_append p [last])))
    exact Json.locate?_rebuild_of_apart ⟨behind, before⟩ doc parent'

end Below

/-- **Operations follow the standard.** Whatever the document, an operation with a well-formed pointer
that asks the arrays on its way by regular names conforms to the standard at the location that the
pointer names. -/
theorem apply_conforms {op : Operation} {doc : Json} (formed : Pointer.WellFormed op.path)
    (regular : ∀ tokens, Pointer.ofTokens tokens = op.path → doc.RegularAlong tokens) :
    ∃ tokens, Pointer.ofTokens tokens = op.path ∧ op.Conforms doc tokens := by
  obtain ⟨tokens, named⟩ := Pointer.wellFormed_iff.1 formed
  have along := regular tokens named
  have ran : Patch.apply [op] doc = op.within tokens doc := by
    rw [apply_singleton, apply, ← named, Pointer.tokens?_ofTokens]
  refine ⟨tokens, named, ?_⟩
  rcases List.eq_nil_or_concat tokens with rfl | ⟨p, last, rfl⟩
  · have root {result : Json} : Patch.apply [op] doc = .ok result ↔ op.value? = some result := by
      rw [ran, within, onRoot_ok_iff]
    refine ⟨?_, fun applied => .root rfl (root.1 applied), fun _ untouched => ?_⟩
    · constructor
      · rintro ⟨result, applied⟩
        exact .root rfl (root.1 applied)
      · rintro (⟨-, carried⟩ | ⟨same, -, -⟩)
        · exact ⟨_, root.2 carried⟩
        · simp at same
    · exact absurd (.below List.nil_prefix) untouched
  · simp only [List.concat_eq_append] at *
    constructor
    · rw [ran]
      exact exists_within_iff along
    · rw [ran]
      exact performed_of_within along
    · rw [ran]
      exact locate?_of_within along

/-- The pointer has an escape, and the element is taken out from between others. -/
theorem apply_conforms_sample :
    Pointer.WellFormed (remove "/a~1b/1").path ∧
      (∀ tokens, Pointer.ofTokens tokens = (remove "/a~1b/1").path →
        (Json.obj [("a/b", .arr [.obj [("x", .null)], .bool true, .str "c"])]).RegularAlong tokens) ∧
      ∃ tokens, Pointer.ofTokens tokens = (remove "/a~1b/1").path ∧ (remove "/a~1b/1").Conforms
        (.obj [("a/b", .arr [.obj [("x", .null)], .bool true, .str "c"])]) tokens := by
  have formed : Pointer.WellFormed (remove "/a~1b/1").path :=
    Pointer.wellFormed_iff.2 ⟨["a/b", "1"], by decide⟩
  have regular : ∀ tokens, Pointer.ofTokens tokens = (remove "/a~1b/1").path →
      (Json.obj [("a/b", .arr [.obj [("x", .null)], .bool true, .str "c"])]).RegularAlong tokens := by
    intro tokens named front token back items whole _
    have read : Pointer.tokens? (remove "/a~1b/1").path = some tokens :=
      named ▸ Pointer.tokens?_ofTokens tokens
    have names : Pointer.tokens? (remove "/a~1b/1").path = some ["a/b", "1"] := by decide
    obtain rfl := Option.some.inj (read.symm.trans names)
    have each : ∀ token ∈ ["a/b", "1"], Pointer.Regular token := by decide
    exact each token (whole ▸ List.mem_append_right front List.mem_cons_self)
  exact ⟨formed, regular, apply_conforms formed regular⟩

end AppAdmission.Patch.Operation
