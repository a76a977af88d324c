import AppAdmission.Json.Basic
import AppAdmission.Proofs.Members

/-!
# Places in a document

A path of member names leads to a place. `at?` looks there and `put` puts a value there. What is put
at one place is not seen at a place that neither leads to it nor lies behind it, and a free value stays
one.
-/

namespace AppAdmission.Json

/-- The value at a place, if the path leads to one. -/
def at? : Json → List String → Option Json
  | j, [] => some j
  | j, key :: rest => (j.find? key).bind fun child => child.at? rest

/-- The document with a value at a place. A path that leads through no object changes nothing. -/
def put : Json → List String → Json → Json
  | _, [], value => value
  | obj ms, key :: rest, value =>
    obj (Members.insert key (put ((Members.find? key ms).getD null) rest value) ms)
  | j, _ :: _, _ => j

/-- Neither of two paths begins with the other. -/
def Apart (p q : List String) : Prop := ¬ p <+: q ∧ ¬ q <+: p

instance (p q : List String) : Decidable (Apart p q) :=
  inferInstanceAs (Decidable (_ ∧ _))

theorem Apart.tail {key : String} {p q : List String} (h : Apart (key :: p) (key :: q)) : Apart p q := by
  constructor
  · intro first
    exact h.1 (List.cons_prefix_cons.2 ⟨rfl, first⟩)
  · intro second
    exact h.2 (List.cons_prefix_cons.2 ⟨rfl, second⟩)

@[simp] theorem at?_nil (j : Json) : j.at? [] = some j := by
  cases j <;> rfl

theorem at?_cons (j : Json) (key : String) (rest : List String) :
    j.at? (key :: rest) = (j.find? key).bind fun child => child.at? rest := by
  cases j <;> rfl

@[simp] theorem put_nil (j value : Json) : j.put [] value = value := by
  cases j <;> rfl

theorem at?_append (j : Json) (p q : List String) :
    j.at? (p ++ q) = (j.at? p).bind fun child => child.at? q := by
  induction p generalizing j with
  | nil => simp
  | cons key rest ih =>
    rw [List.cons_append, at?_cons, at?_cons]
    cases j.find? key with
    | none => rfl
    | some child => exact ih child

/-- Only an object has members. -/
theorem obj_of_find? {j child : Json} {key : String} (h : j.find? key = some child) :
    ∃ ms, j = obj ms ∧ Members.find? key ms = some child := by
  cases j with
  | obj ms => exact ⟨ms, rfl, h⟩
  | null | bool _ | num _ | str _ | arr _ => cases h

/-- What is under a key is a member of an object. -/
theorem at?_object {doc child : Json} {key : String} (h : doc.at? [key] = some child) :
    ∃ ms, doc = obj ms ∧ Members.find? key ms = some child := by
  rw [at?_cons] at h
  obtain ⟨_, found, same⟩ := Option.bind_eq_some_iff.1 h
  rw [at?_nil] at same
  cases same
  exact obj_of_find? found

/-- The members of an object stand behind its place. -/
theorem at?_member {doc : Json} {p : List String} {ms : List (String × Json)}
    (h : doc.at? p = some (obj ms)) (key : String) : doc.at? (p ++ [key]) = Members.find? key ms := by
  rw [at?_append, h, Option.bind_some, at?_cons, find?]
  cases Members.find? key ms <;> simp

/-- A place behind a member is a place in an object. -/
theorem at?_pair {doc child : Json} {first second : String} (h : doc.at? [first, second] = some child) :
    ∃ ms, doc.at? [first] = some (obj ms) ∧ Members.find? second ms = some child := by
  have split : doc.at? [first, second] = (doc.at? [first]).bind fun child => child.at? [second] :=
    at?_append doc [first] [second]
  rw [split] at h
  obtain ⟨parent, there, h⟩ := Option.bind_eq_some_iff.1 h
  obtain ⟨ms, rfl, member⟩ := at?_object h
  exact ⟨ms, there, member⟩

/-- A value behind a place is put there by putting the changed value at the place. -/
theorem put_append {j child : Json} {p : List String} (h : j.at? p = some child) (q : List String)
    (value : Json) : j.put (p ++ q) value = j.put p (child.put q value) := by
  induction p generalizing j with
  | nil =>
    obtain rfl : j = child := by simpa using h
    simp
  | cons key rest ih =>
    rw [at?_cons] at h
    obtain ⟨next, found, onward⟩ := Option.bind_eq_some_iff.1 h
    obtain ⟨ms, rfl, there⟩ := obj_of_find? found
    rw [List.cons_append, put, put, there, Option.getD_some, ih onward]

/-- A second value at a place takes the place of the first. -/
theorem put_put (j : Json) (p : List String) (first second : Json) :
    (j.put p first).put p second = j.put p second := by
  induction p generalizing j with
  | nil => simp
  | cons key rest ih =>
    cases j with
    | obj ms =>
      rw [put, put, put, Members.find?_insert_self, Option.getD_some, Members.insert_insert, ih]
    | null | bool _ | num _ | str _ | arr _ => rfl

/-- What is put into an object is there. -/
theorem at?_put_self {j : Json} {p : List String} {ms : List (String × Json)}
    (h : j.at? p = some (obj ms)) (key : String) (value : Json) :
    (j.put (p ++ [key]) value).at? (p ++ [key]) = some value := by
  induction p generalizing j with
  | nil =>
    obtain rfl : j = obj ms := by simpa using h
    simp [put, at?_cons, find?, Members.find?_insert_self]
  | cons k rest ih =>
    rw [at?_cons] at h
    obtain ⟨child, found, onward⟩ := Option.bind_eq_some_iff.1 h
    obtain ⟨_, rfl, there⟩ := obj_of_find? found
    rw [List.cons_append, put, there, Option.getD_some, at?_cons, find?, Members.find?_insert_self]
    exact ih onward

/-- What is put at a place is not seen apart from it. -/
theorem at?_put_of_apart {p q : List String} (h : Apart p q) (j value : Json) :
    (j.put p value).at? q = j.at? q := by
  induction p generalizing q j with
  | nil => exact absurd List.nil_prefix h.1
  | cons key rest ih =>
    cases q with
    | nil => exact absurd List.nil_prefix h.2
    | cons k others =>
      cases j with
      | obj ms =>
        rw [put, at?_cons, at?_cons, find?, find?]
        by_cases same : k = key
        · subst same
          have onward : Apart rest others := h.tail
          rw [Members.find?_insert_self, Option.bind_some, ih onward]
          cases Members.find? k ms with
          | none =>
            cases others with
            | nil => exact absurd List.nil_prefix onward.2
            | cons => rfl
          | some child => rfl
        · rw [Members.find?_insert_ne _ _ same]
      | null | bool _ | num _ | str _ | arr _ => rfl

theorem canonicalMembersB_iff {ms : List (String × Json)} :
    canonicalMembersB ms = true ↔ ∀ m ∈ ms, m.2.canonicalB = true := by
  induction ms with
  | nil => simp [canonicalMembersB]
  | cons m rest ih => simp [canonicalMembersB, ih]

theorem canonicalItemsB_iff {items : List Json} :
    canonicalItemsB items = true ↔ ∀ j ∈ items, j.canonicalB = true := by
  induction items with
  | nil => simp [canonicalItemsB]
  | cons j rest ih => simp [canonicalItemsB, ih]

theorem canonicalB_obj_iff {ms : List (String × Json)} : (obj ms).canonicalB = true ↔
    Members.Sorted ms ∧ ∀ m ∈ ms, m.2.canonicalB = true := by
  rw [canonicalB, Bool.and_eq_true, decide_eq_true_iff, canonicalMembersB_iff]

theorem canonicalB_arr_iff {items : List Json} :
    (arr items).canonicalB = true ↔ ∀ j ∈ items, j.canonicalB = true := by
  rw [canonicalB, canonicalItemsB_iff]

/-- The members of a free value are free values. -/
theorem canonicalB_of_find? {key : String} {child : Json} {ms : List (String × Json)}
    (free : (obj ms).canonicalB = true) (h : Members.find? key ms = some child) :
    child.canonicalB = true :=
  (canonicalB_obj_iff.1 free).2 _ (Members.mem_of_find? h)

theorem canonicalB_at? {j child : Json} {p : List String} (free : j.canonicalB = true)
    (h : j.at? p = some child) : child.canonicalB = true := by
  induction p generalizing j with
  | nil =>
    obtain rfl : j = child := by simpa using h
    exact free
  | cons key rest ih =>
    rw [at?_cons] at h
    obtain ⟨next, found, onward⟩ := Option.bind_eq_some_iff.1 h
    obtain ⟨ms, rfl, there⟩ := obj_of_find? found
    exact ih (canonicalB_of_find? free there) onward

theorem sorted_at? {doc : Json} {p : List String} {ms : List (String × Json)}
    (free : doc.canonicalB = true) (h : doc.at? p = some (obj ms)) : Members.Sorted ms :=
  (canonicalB_obj_iff.1 (canonicalB_at? free h)).1

/-- A free value with a free value put in is one. -/
theorem canonicalB_put {j value : Json} (p : List String) (free : j.canonicalB = true)
    (fresh : value.canonicalB = true) : (j.put p value).canonicalB = true := by
  induction p generalizing j with
  | nil => simpa using fresh
  | cons key rest ih =>
    cases j with
    | obj ms =>
      obtain ⟨sorted, frees⟩ := canonicalB_obj_iff.1 free
      rw [put]
      refine canonicalB_obj_iff.2 ⟨Members.sorted_insert sorted, fun m h => ?_⟩
      rcases Members.mem_insert h with rfl | h
      · apply ih
        cases there : Members.find? key ms with
        | none => rfl
        | some child => exact canonicalB_of_find? free there
      · exact frees m h
    | null | bool _ | num _ | str _ | arr _ => exact free

end AppAdmission.Json
