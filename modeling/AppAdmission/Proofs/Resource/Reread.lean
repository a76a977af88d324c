import AppAdmission.Proofs.Resource.Written

/-!
# Values that are looked at again

A free value that is looked at again is kept as it is exactly if none of its objects begins as one that
stands for an embedded text; how deep it is nested does not matter any more. So the free members of a
record are carried over, and each field is read from the member under its name.
-/

namespace AppAdmission.Json

mutual

/-- What is brought in order is a free value. -/
theorem canonicalB_normalise : (j : Json) → j.normalise.canonicalB = true
  | null | bool _ | num _ | str _ => rfl
  | arr items => canonicalItemsB_normaliseItems items
  | obj members => by
    refine canonicalB_obj_iff.2 ⟨Members.sorted_sort _, fun m there => ?_⟩
    exact canonicalMembersB_iff.1 (canonicalMembersB_normaliseMembers members) m
      (Members.mem_of_mem_sort there)

theorem canonicalItemsB_normaliseItems : (items : List Json) →
    canonicalItemsB (normaliseItems items) = true
  | [] => rfl
  | j :: rest => by
    rw [normaliseItems, canonicalItemsB, canonicalB_normalise j, canonicalItemsB_normaliseItems rest]
    rfl

theorem canonicalMembersB_normaliseMembers : (ms : List (String × Json)) →
    canonicalMembersB (normaliseMembers ms) = true
  | [] => rfl
  | (k, j) :: rest => by
    rw [normaliseMembers, canonicalMembersB, canonicalB_normalise j, canonicalMembersB_normaliseMembers rest]
    rfl

end

theorem normalise_normalise (j : Json) : j.normalise.normalise = j.normalise :=
  normalise_of_canonicalB _ (canonicalB_normalise j)

theorem canonicalB_ofLabels (d : Dict String) : (ofLabels d).canonicalB = true := by
  rw [← normalise_ofLabels]
  exact canonicalB_normalise _

/-- An object that has not the key of embedded texts and has plain values is plain when it is brought in
order. -/
theorem plainB_normalise_obj {ms : List (String × Json)}
    (each : ∀ m ∈ ms, m.1 ≠ Source.embeddedKey ∧ m.2.normalise.plainB = true) :
    (obj ms).normalise.plainB = true := by
  have member (m : String × Json) (there : m ∈ Members.sort (normaliseMembers ms)) :
      m.1 ≠ Source.embeddedKey ∧ m.2.plainB = true := by
    have among := Members.mem_of_mem_sort there
    rw [normaliseMembers_eq_map] at among
    obtain ⟨m', there', rfl⟩ := List.mem_map.1 among
    exact each m' there'
  exact plainB_obj_iff.2 ⟨fun m first => (member m (List.mem_of_mem_head? first)).1,
    fun m there => (member m there).2⟩

namespace Source

variable {embedded : String → Option Json}

mutual

/-- Whether a value is kept does not depend on where it is written. -/
theorem keepAny_ofJson (level : Nat) : (j : Json) →
    keepAny embedded (ofJson j) = keepAny embedded (nested level j)
  | .null | .bool _ | .num _ | .str _ => rfl
  | .arr items => by
    rw [ofJson, nested, keepAny, keepAny, keepItems_ofItems (level + 1) items]
  | .obj members => by
    have first : embeddedText? (ofMembers members) = embeddedText? (nestedMembers (level + 1) members) := by
      match members with
      | [] => rfl
      | (k, .str s) :: [] => rfl
      | (k, .str s) :: (k', j') :: rest => rfl
      | (k, .null) :: rest | (k, .bool _) :: rest | (k, .num _) :: rest | (k, .arr _) :: rest
      | (k, .obj _) :: rest => cases rest <;> rfl
    rw [ofJson, nested, keepAny, keepAny, first, keepMembers_ofMembers (level + 1) members]

theorem keepItems_ofItems (level : Nat) : (items : List Json) →
    keepItems embedded (ofItems items) = keepItems embedded (nestedItems level items)
  | [] => rfl
  | j :: rest => by
    rw [ofItems, nestedItems, keepItems, keepItems, keepAny_ofJson level j, keepItems_ofItems level rest]

theorem keepMembers_ofMembers (level : Nat) : (ms : List (String × Json)) →
    keepMembers embedded (ofMembers ms) = keepMembers embedded (nestedMembers level ms)
  | [] => rfl
  | (k, j) :: rest => by
    simp only [ofMembers, nestedMembers, keepMembers, keepAny_ofJson level j,
      keepMembers_ofMembers level rest]

end

theorem keep_ofJson (j : Json) : keep (ofJson j) = keepAny Source.embedded (ofJson j) := by
  have flat : (ofJson j).reach = 0 := by cases j <;> rfl
  unfold keep keepShallow
  rw [flat, if_pos (Nat.zero_le _)]

/-- A free value that is looked at again is kept as it is exactly if it is plain. -/
theorem keep_ofJson_iff {j : Json} (free : j.canonicalB = true) :
    keep (ofJson j) = some j ↔ j.plainB = true := by
  rw [keep_ofJson, keepAny_ofJson 1]
  exact ⟨plainB_of_keepAny_nested settles_embedded j free, keepAny_nested j 1 free⟩

/-- Of a value that is kept at all and was kept before, nothing is lost. -/
theorem plainB_of_keep {j j' : Json} (free : j.canonicalB = true) (frank : j.frankB = true)
    (h : keep (ofJson j) = some j') : j.plainB = true := by
  obtain ⟨v, spells, same⟩ := spelled_of_keep h
  rw [spelled_ofJson, normalise_of_canonicalB j free] at spells
  obtain rfl := Option.some.inj spells
  exact (keep_ofJson_iff free).1 (same.2 frank ▸ h)

variable {α : Type} {names : List String} {ms : List (String × Json)} {rest : Dict Json}

/-- The members of an object besides some names are those of a map. -/
theorem filter_eq_entries (sorted : Members.Sorted ms)
    (found : ∀ key ∉ names, Members.find? key ms = rest.get? key)
    (apart : ∀ e ∈ rest.entries, e.1 ∉ names) :
    (ms.filter fun m => !names.contains m.1) = rest.entries := by
  refine Members.ext_of_sorted (List.Pairwise.filter _ sorted) rest.sorted fun key => ?_
  cases named : names.contains key with
  | true =>
    have none := @Members.find?_filter_not String Json _ (fun k => !names.contains k) key
      (by rw [named]; rfl) ms
    exact none.trans (OrderedMap.get?_eq_none_of_apart apart (List.contains_iff_mem.1 named)).symm
  | false =>
    have own := @Members.find?_filter String Json _ (fun k => !names.contains k) key
      (by rw [named]; rfl) ms
    exact own.trans (found key fun there => by rw [List.contains_iff_mem.2 there] at named; cases named)

/-- Other members that are plain are carried over. -/
theorem keptOthers_of_plain (sorted : Members.Sorted ms)
    (found : ∀ key ∉ names, Members.find? key ms = rest.get? key)
    (apart : ∀ e ∈ rest.entries, e.1 ∉ names)
    (free : ∀ e ∈ rest.entries, e.2.canonicalB = true) (plain : ∀ e ∈ rest.entries, e.2.plainB = true) :
    keptOthers names ms = some rest := by
  have kept : (rest.entries.mapM fun e => (keep (ofJson e.2)).map fun j => (e.1, j)) = some rest.entries := by
    refine Wire.mapM_eq_some_iff.2 (List.forall₂_same.2 fun e there => ?_)
    rw [(keep_ofJson_iff (free e there)).2 (plain e there)]
    rfl
  rw [keptOthers, filter_eq_entries sorted found apart, kept, Option.map_some, Wire.ofMembers_entries]

/-- A field that may be left out is read from the member under its name. -/
theorem orElse_given {name : String} (h : names.contains name = true) (read : Source → Option α)
    (default : α) : (given names ms).orElse name read default =
      (Members.find? name ms).elim (some default) fun j => read (ofJson j) := by
  rw [Fields.orElse, find?_given h]
  cases Members.find? name ms <;> rfl

theorem orElse_given_of_member {name : String} (h : names.contains name = true) {j : Json}
    (member : Members.find? name ms = some j) (read : Source → Option α) (default : α) :
    (given names ms).orElse name read default = read (ofJson j) := by
  rw [orElse_given h, member]
  rfl

/-- A field that may be null is read from the member under its name, if there is one. -/
theorem optional_given_of_written {name : String} (h : names.contains name = true) {o : Option α}
    {write : α → Json} (member : Members.find? name ms = o.map write) (solid : ∀ a, write a ≠ .null)
    {read : Source → Option α} (value : ∀ a ∈ o, read (ofJson (write a)) = some a) :
    (given names ms).optional name read = some o := by
  cases o with
  | none => exact (optional_given_eq_none_iff h).2 (Or.inl member)
  | some a => exact (optional_given_eq_some_iff h).2 ⟨write a, member, solid a, value a rfl⟩

end Source

end AppAdmission.Json
