import AppAdmission.Proofs.Members
import AppAdmission.Proofs.Json.Tree
import AppAdmission.Json.Record

/-!
# Records of objects

What a record reader finds in an object. Of an object whose members are in order every field is given
once, and the fields that are given are the members with the names of the record, so a member that is
put in changes one field at most.
-/

namespace AppAdmission.Json.Source

variable {α : Type}

theorem keyed_map (f : Json → Source) (ms : List (String × Json)) :
    keyed (ms.map fun m => (some m.1, f m.2)) = some (ms.map fun m => (m.1, f m.2)) := by
  induction ms with
  | nil => rfl
  | cons m rest ih => simp only [List.map_cons, keyed, ih]

theorem nestedMembers_eq_map (level : Nat) (ms : List (String × Json)) :
    nestedMembers level ms = ms.map fun m => (some m.1, nested level m.2) := by
  induction ms with
  | nil => rfl
  | cons m rest ih => rw [nestedMembers, ih, List.map_cons]

theorem ofMembers_eq_map (ms : List (String × Json)) :
    ofMembers ms = ms.map fun m => (some m.1, ofJson m.2) := by
  induction ms with
  | nil => rfl
  | cons m rest ih => rw [ofMembers, ih, List.map_cons]

theorem ofItems_eq_map (items : List Json) : ofItems items = items.map ofJson := by
  induction items with
  | nil => rfl
  | cons j rest ih => rw [ofItems, ih, List.map_cons]

/-- A written object is read as a record by its members as they stand. -/
theorem record_nested (names : List String) (level : Nat) (ms : List (String × Json)) :
    record names (nested level (.obj ms)) =
      pick names (ms.map fun m => (m.1, nested (level + 1) m.2)) := by
  rw [nested, record, nestedMembers_eq_map, keyed_map]
  rfl

theorem ofJson_eq_null_iff {j : Json} : ofJson j = .null ↔ j = .null := by
  cases j <;> simp [ofJson]

/-- The fields of a record that an object gives. -/
def given (names : List String) (ms : List (String × Json)) : Fields :=
  (ms.filter fun m => names.contains m.1).map fun m => (m.1, ofJson m.2)

theorem uniqueB_of_sorted {ms : List (String × α)} (sorted : Members.Sorted ms) :
    uniqueB (ms.map (·.1)) = true := by
  induction ms with
  | nil => rfl
  | cons m rest ih =>
    have fresh : m.1 ∉ rest.map (·.1) := Members.not_mem_of_sorted sorted
    rw [List.map_cons, uniqueB, ih (List.pairwise_cons.1 sorted).2]
    simpa using fresh

theorem pick_ofJson (names : List String) {ms : List (String × Json)} (sorted : Members.Sorted ms) :
    pick names (ms.map fun m => (m.1, ofJson m.2)) = some (given names ms) := by
  have same : (ms.map fun m => (m.1, ofJson m.2)).filter (fun m => names.contains m.1) =
      given names ms := by
    unfold given
    rw [List.filter_map]
    rfl
  have once : uniqueB ((given names ms).map (·.1)) = true :=
    uniqueB_of_sorted ((Members.sorted_map ofJson).2 (List.Pairwise.filter _ sorted))
  unfold pick
  simp only [same, once, if_true]

/-- A free object is read as a record by its members with the names of the record. -/
theorem record_ofJson (names : List String) {ms : List (String × Json)}
    (sorted : Members.Sorted ms) : record names (ofJson (.obj ms)) = some (given names ms) := by
  rw [ofJson, record, ofMembers_eq_map, keyed_map]
  exact pick_ofJson names sorted

theorem find?_given {names : List String} {name : String} (h : names.contains name = true)
    (ms : List (String × Json)) :
    Members.find? name (given names ms) = (Members.find? name ms).map ofJson := by
  unfold given
  rw [Members.find?_map, Members.find?_filter h]

theorem find?_given_insert_ne (names : List String) {name key : String} (h : name ≠ key)
    (value : Json) (ms : List (String × Json)) :
    Members.find? name (given names (Members.insert key value ms)) =
      Members.find? name (given names ms) := by
  cases there : names.contains name with
  | true => rw [find?_given there, find?_given there, Members.find?_insert_ne _ _ h]
  | false =>
    unfold given
    rw [Members.find?_map, Members.find?_map, Members.find?_filter_not there,
      Members.find?_filter_not there]

/-- The other members of an open record, kept. -/
def keptOthers (names : List String) (ms : List (String × Json)) : Option (Dict Json) :=
  ((ms.filter fun m => !names.contains m.1).mapM fun m =>
    (keep (ofJson m.2)).map fun j => (m.1, j)).map .ofMembers

/-- A free object is read as an open record if its other members can be kept. -/
theorem openRecord_ofJson (names : List String) {ms : List (String × Json)}
    (sorted : Members.Sorted ms) : openRecord names (ofJson (.obj ms)) =
      (keptOthers names ms).map fun others => (given names ms, others) := by
  have split : (ms.map fun m => (m.1, ofJson m.2)).filter (fun m => !names.contains m.1) =
      (ms.filter fun m => !names.contains m.1).map fun m => (m.1, ofJson m.2) := by
    rw [List.filter_map]
    rfl
  rw [ofJson, openRecord, ofMembers_eq_map, keyed_map]
  simp only [Option.bind_eq_bind, Option.bind_some, pick_ofJson names sorted, split, List.mapM_map,
    Function.comp_def]
  unfold keptOthers
  cases (ms.filter fun m => !names.contains m.1).mapM fun m =>
    (keep (ofJson m.2)).map fun j => (m.1, j) <;> rfl

/-- The other members do not change with a field. -/
theorem keptOthers_insert {names : List String} {key : String} (h : names.contains key = true)
    (value : Json) (ms : List (String × Json)) :
    keptOthers names (Members.insert key value ms) = keptOthers names ms := by
  have same : (Members.insert key value ms).filter (fun m => !names.contains m.1) =
      ms.filter fun m => !names.contains m.1 :=
    Members.filter_insert (fun k => !names.contains k) (by rw [h]; rfl) value ms
  unfold keptOthers
  rw [same]

/-- A value that is given is read. -/
theorem Fields.orElse_of_find {fs : Fields} {name : String} {s : Source} (read : Source → Option α)
    (default : α) (h : Members.find? name fs = some s) : fs.orElse name read default = read s := by
  rw [Fields.orElse, h]

theorem Fields.need_congr {fs gs : Fields} {name : String}
    (h : Members.find? name fs = Members.find? name gs) (read : Source → Option α) :
    fs.need name read = gs.need name read := by
  rw [Fields.need, Fields.need, h]

theorem Fields.orElse_congr {fs gs : Fields} {name : String}
    (h : Members.find? name fs = Members.find? name gs) (read : Source → Option α) (default : α) :
    fs.orElse name read default = gs.orElse name read default := by
  rw [Fields.orElse, Fields.orElse, h]

/-- A member that is put in is given. -/
theorem find?_given_insert_self {names : List String} {key : String}
    (h : names.contains key = true) (value : Json) (ms : List (String × Json)) :
    Members.find? key (given names (Members.insert key value ms)) = some (ofJson value) := by
  rw [find?_given h, Members.find?_insert_self]
  rfl

theorem nullable_of_ne_null {s : Source} (read : Source → Option α) (h : s ≠ .null) :
    nullable read s = (read s).map some := by
  cases s <;> first | exact absurd rfl h | rfl

/-- A value that is given and not null is read. -/
theorem Fields.optional_of_find {fs : Fields} {name : String} {s : Source} {read : Source → Option α}
    {a : α} (h : Members.find? name fs = some s) (there : s ≠ .null) (value : read s = some a) :
    fs.optional name read = some (some a) := by
  rw [Fields.optional, Fields.orElse_of_find _ _ h, nullable_of_ne_null read there, value]
  rfl

/-- A member does not matter to the other fields. -/
theorem orElse_given_insert_ne {names : List String} {name key : String} (h : name ≠ key)
    {value : Json} {ms : List (String × Json)} {read : Source → Option α} {default : α} :
    (given names (Members.insert key value ms)).orElse name read default =
      (given names ms).orElse name read default :=
  Fields.orElse_congr (find?_given_insert_ne names h value ms) read default

theorem optional_given_insert_ne {names : List String} {name key : String} (h : name ≠ key)
    {value : Json} {ms : List (String × Json)} {read : Source → Option α} :
    (given names (Members.insert key value ms)).optional name read =
      (given names ms).optional name read :=
  orElse_given_insert_ne h

theorem need_given_insert_ne {names : List String} {name key : String} (h : name ≠ key)
    {value : Json} {ms : List (String × Json)} {read : Source → Option α} :
    (given names (Members.insert key value ms)).need name read = (given names ms).need name read :=
  Fields.need_congr (find?_given_insert_ne names h value ms) read

/-- The field of a member that is put in is read from it. -/
theorem orElse_given_insert_self {names : List String} {key : String}
    (h : names.contains key = true) {value : Json} {ms : List (String × Json)}
    {read : Source → Option α} {default : α} :
    (given names (Members.insert key value ms)).orElse key read default = read (ofJson value) :=
  Fields.orElse_of_find _ _ (find?_given_insert_self h value ms)

theorem need_given_insert_self {names : List String} {key : String}
    (h : names.contains key = true) {value : Json} {ms : List (String × Json)}
    {read : Source → Option α} :
    (given names (Members.insert key value ms)).need key read = read (ofJson value) := by
  rw [Fields.need, find?_given_insert_self h value ms]
  rfl

theorem optional_given_insert_self {names : List String} {key : String}
    (h : names.contains key = true) {value : Json} {ms : List (String × Json)}
    {read : Source → Option α} {a : α} (there : value ≠ .null) (given : read (ofJson value) = some a) :
    (Source.given names (Members.insert key value ms)).optional key read = some (some a) :=
  Fields.optional_of_find (find?_given_insert_self h value ms) (mt ofJson_eq_null_iff.1 there) given

/-- A number below the bound is read. -/
theorem smaller_int {n bound : Nat} (h : n < bound) : smaller bound (num (some (.int n))) = some n := by
  have whole : integer (num (some (.int n))) = some (n : Int) := rfl
  unfold smaller
  rw [whole]
  simp [h]

/-- A field that may be null is read as none if it is missing or null. -/
theorem optional_given_eq_none_iff {names : List String} {name : String}
    (h : names.contains name = true) {ms : List (String × Json)} {read : Source → Option α} :
    (given names ms).optional name read = some none ↔
      Members.find? name ms = none ∨ Members.find? name ms = some .null := by
  unfold Fields.optional Fields.orElse
  rw [find?_given h]
  cases Members.find? name ms with
  | none => simp
  | some j =>
    by_cases empty : j = .null
    · simp [empty, ofJson, nullable]
    · simp [empty, nullable_of_ne_null read (mt ofJson_eq_null_iff.1 empty)]

theorem isNone_iff_of_optional {names : List String} {name : String}
    (h : names.contains name = true) {ms : List (String × Json)} {read : Source → Option α}
    {value : Option α} (found : (given names ms).optional name read = some value) :
    value.isNone ↔ Members.find? name ms = none ∨ Members.find? name ms = some .null := by
  have iff : (given names ms).optional name read = some none ↔ _ := optional_given_eq_none_iff h
  rw [← iff, found, Option.isNone_iff_eq_none, Option.some.injEq]

/-- A field that may be null is read from the member that is there. -/
theorem optional_given_of_member {names : List String} {name : String}
    (h : names.contains name = true) {ms : List (String × Json)} {j : Json}
    (member : Members.find? name ms = some j) (read : Source → Option α) :
    (given names ms).optional name read = nullable read (ofJson j) := by
  rw [Fields.optional, Fields.orElse, find?_given h, member]
  rfl

/-- A field that may be null has the value that is read from what is given. -/
theorem optional_given_eq_some_iff {names : List String} {name : String}
    (h : names.contains name = true) {ms : List (String × Json)} {read : Source → Option α} {a : α} :
    (given names ms).optional name read = some (some a) ↔
      ∃ j, Members.find? name ms = some j ∧ j ≠ .null ∧ read (ofJson j) = some a := by
  unfold Fields.optional Fields.orElse
  rw [find?_given h]
  cases Members.find? name ms with
  | none => simp
  | some j =>
    by_cases empty : j = .null
    · simp [empty, ofJson, nullable]
    · simp [empty, nullable_of_ne_null read (mt ofJson_eq_null_iff.1 empty)]

end AppAdmission.Json.Source
