import AppAdmission.Proofs.Json.Lasting

/-!
# What a tree spells

A tree that is read spells a value, in which every object is taken as it stands, also one that has the key
of embedded texts alone. What is kept of the tree is the same value exactly if the value has no such object.
-/

namespace AppAdmission.Json

mutual

/-- No object in a value has the key of embedded texts alone. -/
def frankB : Json → Bool
  | arr items => frankItemsB items
  | obj members => (members.map (·.1) != [Source.embeddedKey]) && frankMembersB members
  | _ => true

/-- `frankB` on the items of an array. -/
def frankItemsB : List Json → Bool
  | [] => true
  | j :: rest => frankB j && frankItemsB rest

/-- `frankB` on the values of members. -/
def frankMembersB : List (String × Json) → Bool
  | [] => true
  | (_, j) :: rest => frankB j && frankMembersB rest

end

theorem frankItemsB_iff {items : List Json} :
    frankItemsB items = true ↔ ∀ j ∈ items, j.frankB = true := by
  induction items with
  | nil => simp [frankItemsB]
  | cons j rest ih => simp [frankItemsB, ih]

theorem frankMembersB_iff {ms : List (String × Json)} :
    frankMembersB ms = true ↔ ∀ m ∈ ms, m.2.frankB = true := by
  induction ms with
  | nil => simp [frankMembersB]
  | cons m rest ih => simp [frankMembersB, ih]

theorem frankB_obj_iff {ms : List (String × Json)} : (obj ms).frankB = true ↔
    ms.map (·.1) ≠ [Source.embeddedKey] ∧ ∀ m ∈ ms, m.2.frankB = true := by
  rw [frankB, Bool.and_eq_true, frankMembersB_iff, bne_iff_ne]

theorem frankB_lone (v : Json) : (obj [(Source.embeddedKey, v)]).frankB = false := by
  simp [frankB]

mutual

/-- A free value is in order as it is. -/
theorem normalise_of_canonicalB : (j : Json) → j.canonicalB = true → j.normalise = j
  | null, _ | bool _, _ | num _, _ | str _, _ => rfl
  | arr items, free => by
    rw [normalise, normaliseItems_of_canonicalB items free]
  | obj members, free => by
    rw [canonicalB, Bool.and_eq_true, decide_eq_true_iff] at free
    rw [normalise, normaliseMembers_of_canonicalB members free.2, Members.sort_of_sorted free.1]

theorem normaliseItems_of_canonicalB : (items : List Json) → canonicalItemsB items = true →
    normaliseItems items = items
  | [], _ => rfl
  | j :: rest, free => by
    rw [canonicalItemsB, Bool.and_eq_true] at free
    rw [normaliseItems, normalise_of_canonicalB j free.1, normaliseItems_of_canonicalB rest free.2]

theorem normaliseMembers_of_canonicalB : (ms : List (String × Json)) → canonicalMembersB ms = true →
    normaliseMembers ms = ms
  | [], _ => rfl
  | (k, j) :: rest, free => by
    rw [canonicalMembersB, Bool.and_eq_true] at free
    rw [normaliseMembers, normalise_of_canonicalB j free.1, normaliseMembers_of_canonicalB rest free.2]

end

namespace Source

mutual

/-- The value that a tree spells. -/
def spelled : Source → Option Json
  | null => some .null
  | bool b => some (.bool b)
  | num n => n.map .num
  | str s => s.map .str
  | arr items _ => (spelledItems items).map .arr
  | obj members _ => (spelledMembers members).map fun ms => .obj (Members.sort ms)

/-- `spelled` on the items of an array. -/
def spelledItems : List Source → Option (List Json)
  | [] => some []
  | s :: rest =>
    match spelled s, spelledItems rest with
    | some j, some js => some (j :: js)
    | _, _ => none

/-- `spelled` on the members of an object. -/
def spelledMembers : List (Option String × Source) → Option (List (String × Json))
  | [] => some []
  | (k, s) :: rest =>
    match k, spelled s, spelledMembers rest with
    | some k, some j, some ms => some ((k, j) :: ms)
    | _, _, _ => none

end

mutual

/-- A value that is looked at again spells itself, brought in order. -/
theorem spelled_ofJson : (j : Json) → spelled (ofJson j) = some j.normalise
  | .null | .bool _ | .num _ | .str _ => rfl
  | .arr items => by
    rw [ofJson, spelled, spelledItems_ofItems items]
    rfl
  | .obj members => by
    rw [ofJson, spelled, spelledMembers_ofMembers members]
    rfl

theorem spelledItems_ofItems : (items : List Json) →
    spelledItems (ofItems items) = some (normaliseItems items)
  | [] => rfl
  | j :: rest => by
    rw [ofItems, spelledItems, spelled_ofJson j, spelledItems_ofItems rest]
    rfl

theorem spelledMembers_ofMembers : (ms : List (String × Json)) →
    spelledMembers (ofMembers ms) = some (normaliseMembers ms)
  | [] => rfl
  | (k, j) :: rest => by
    simp only [ofMembers, spelledMembers, spelled_ofJson j, spelledMembers_ofMembers rest,
      normaliseMembers]

end

/-! ## What is kept is frank -/

/-- What texts stand for is frank. -/
def Franks (embedded : String → Option Json) : Prop :=
  ∀ t j, embedded t = some j → j.frankB = true

variable {embedded : String → Option Json}

theorem Franks.settles (franks : Franks embedded) : Settles embedded := by
  intro t v h
  have frank := franks t _ h
  rw [frankB_lone] at frank
  cases frank

mutual

theorem frankB_of_keepAny (franks : Franks embedded) : (s : Source) → (j : Json) →
    keepAny embedded s = some j → j.frankB = true
  | .null, _, h | .bool _, _, h => by
    cases h
    rfl
  | .num n, j, h => by
    obtain ⟨n, -, rfl⟩ := Option.map_eq_some_iff.1 h
    rfl
  | .str s, j, h => by
    obtain ⟨s, -, rfl⟩ := Option.map_eq_some_iff.1 h
    rfl
  | .arr items _, j, h => by
    obtain ⟨js, kept, rfl⟩ := Option.map_eq_some_iff.1 h
    exact frankItemsB_iff.2 (frankB_of_keepItems franks items js kept)
  | .obj members reach, j, h => by
    have apart (v : Json) : some j ≠ some (.obj [(embeddedKey, v)]) := by
      rw [← h]
      exact keepAny_ne_lone franks.settles (.obj members reach) v
    rw [keepAny] at h
    split at h
    · next t _ =>
      obtain ⟨t, -, meant⟩ := Option.bind_eq_some_iff.1 h
      exact franks t j meant
    · obtain ⟨ms, kept, rfl⟩ := Option.map_eq_some_iff.1 h
      refine frankB_obj_iff.2 ⟨fun alone => ?_, fun m there => ?_⟩
      · obtain ⟨m, same, key⟩ := List.map_eq_singleton_iff.1 alone
        refine apart m.2 ?_
        rw [same, ← key]
      · exact frankB_of_keepMembers franks members ms kept m (Members.mem_of_mem_sort there)

theorem frankB_of_keepItems (franks : Franks embedded) : (items : List Source) →
    (js : List Json) → keepItems embedded items = some js → ∀ j ∈ js, j.frankB = true
  | [], js, h => by
    cases h
    simp
  | s :: rest, js, h => by
    rw [keepItems] at h
    split at h
    · next j js' first others =>
      cases h
      intro i there
      rcases List.mem_cons.1 there with rfl | there
      · exact frankB_of_keepAny franks s i first
      · exact frankB_of_keepItems franks rest js' others i there
    · cases h

theorem frankB_of_keepMembers (franks : Franks embedded) :
    (members : List (Option String × Source)) → (ms : List (String × Json)) →
    keepMembers embedded members = some ms → ∀ m ∈ ms, m.2.frankB = true
  | [], ms, h => by
    cases h
    simp
  | (k, s) :: rest, ms, h => by
    unfold keepMembers at h
    split at h
    · next k' j ms' first others =>
      cases h
      intro m there
      rcases List.mem_cons.1 there with rfl | there
      · exact frankB_of_keepAny franks s j first
      · exact frankB_of_keepMembers franks rest ms' others m there
    · cases h

end

theorem franks_embeddedWithin (fuel : Nat) : Franks (embeddedWithin fuel) := by
  induction fuel with
  | zero => exact fun _ _ h => nomatch h
  | succ fuel ih =>
    intro t j h
    obtain ⟨s, -, kept⟩ := Option.bind_eq_some_iff.1 h
    unfold keepShallow at kept
    split at kept
    · exact frankB_of_keepAny ih s j kept
    · cases kept

theorem franks_embedded : Franks Source.embedded := fun t => franks_embeddedWithin t.length t

/-- What is kept is frank. -/
theorem frankB_of_keep {s : Source} {j : Json} (h : s.keep = some j) : j.frankB = true := by
  unfold keep keepShallow at h
  split at h
  · exact frankB_of_keepAny franks_embedded s j h
  · cases h

/-! ## What is kept of a frank value -/

theorem eq_of_embeddedText? {members : List (Option String × Source)} {t : String}
    (h : embeddedText? members = some (some t)) : members = [(some embeddedKey, .str (some t))] := by
  match members with
  | [] => cases h
  | (none, s) :: rest => cases h
  | (some k, s) :: rest =>
    rw [embeddedText?] at h
    by_cases key : k = embeddedKey
    · rw [if_pos key] at h
      cases rest with
      | nil =>
        cases s with
        | str t' =>
          cases h
          rw [key]
        | null | bool _ | num _ | arr _ _ | obj _ _ => cases h
      | cons m rest => cases h
    · rw [if_neg key] at h
      cases h

/-- A member that was kept and the one that was spelled. -/
structure Tells (kept given : String × Json) : Prop where
  key : kept.1 = given.1
  frank : given.2.frankB = true → kept.2 = given.2

/-- Among members that tell one another the same one is found. -/
theorem find?_tells {ms vs : List (String × Json)} (tell : List.Forall₂ Tells ms vs) (key : String) :
    (∀ v ∈ Members.find? key vs, v.frankB = true) → Members.find? key ms = Members.find? key vs := by
  induction tell with
  | nil => exact fun _ => rfl
  | @cons m v _ _ first _ ih =>
    intro frank
    unfold Members.find? at frank ⊢
    rw [first.key]
    split
    · next own =>
      rw [if_pos own] at frank
      rw [first.frank (frank v.2 rfl)]
    · next other =>
      rw [if_neg other] at frank
      exact ih frank

/-- Members that are frank when they are sorted are those that were kept. -/
theorem sort_eq_of_tells {ms vs : List (String × Json)} (tell : List.Forall₂ Tells ms vs)
    (frank : ∀ v ∈ Members.sort vs, v.2.frankB = true) : Members.sort ms = Members.sort vs := by
  refine Members.ext_of_sorted (Members.sorted_sort ms) (Members.sorted_sort vs) fun key => ?_
  have found := Members.find?_sort key vs
  rw [Members.find?_sort, found]
  refine find?_tells (List.rel_reverse tell) key fun v there => ?_
  rw [← found] at there
  exact frank (key, v) (Members.mem_of_find? there)

mutual

/-- What is kept was spelled, and a frank value is kept as it was spelled. -/
theorem spelled_of_keepAny : (s : Source) → (j : Json) → keepAny embedded s = some j →
    ∃ v, s.spelled = some v ∧ (v.frankB = true → j = v)
  | .null, j, h | .bool _, j, h => by
    cases h
    exact ⟨_, rfl, fun _ => rfl⟩
  | .num _, j, h | .str _, j, h => ⟨j, h, fun _ => rfl⟩
  | .arr items _, j, h => by
    obtain ⟨js, kept, rfl⟩ := Option.map_eq_some_iff.1 h
    obtain ⟨vs, spells, same⟩ := spelled_of_keepItems items js kept
    refine ⟨.arr vs, ?_, fun frank => congrArg Json.arr (same frank)⟩
    rw [spelled, spells]
    rfl
  | .obj members _, j, h => by
    rw [keepAny] at h
    split at h
    · next t begins =>
      -- the object stands for a text and is not frank
      obtain ⟨t, rfl, -⟩ := Option.bind_eq_some_iff.1 h
      rw [eq_of_embeddedText? begins]
      refine ⟨.obj [(embeddedKey, .str t)], rfl, fun frank => ?_⟩
      rw [frankB_lone] at frank
      cases frank
    · obtain ⟨ms, kept, rfl⟩ := Option.map_eq_some_iff.1 h
      obtain ⟨vs, spells, tell⟩ := spelled_of_keepMembers members ms kept
      refine ⟨.obj (Members.sort vs), ?_, fun frank => ?_⟩
      · rw [spelled, spells]
        rfl
      · rw [sort_eq_of_tells tell (frankB_obj_iff.1 frank).2]

theorem spelled_of_keepItems : (items : List Source) → (js : List Json) →
    keepItems embedded items = some js →
    ∃ vs, spelledItems items = some vs ∧ (frankItemsB vs = true → js = vs)
  | [], js, h => by
    cases h
    exact ⟨[], rfl, fun _ => rfl⟩
  | s :: rest, js, h => by
    rw [keepItems] at h
    split at h
    · next j js' first others =>
      cases h
      obtain ⟨v, spells, same⟩ := spelled_of_keepAny s j first
      obtain ⟨vs, spells', same'⟩ := spelled_of_keepItems rest js' others
      refine ⟨v :: vs, ?_, fun frank => ?_⟩
      · rw [spelledItems, spells, spells']
      · rw [frankItemsB, Bool.and_eq_true] at frank
        rw [same frank.1, same' frank.2]
    · cases h

theorem spelled_of_keepMembers : (members : List (Option String × Source)) →
    (ms : List (String × Json)) → keepMembers embedded members = some ms →
    ∃ vs, spelledMembers members = some vs ∧ List.Forall₂ Tells ms vs
  | [], ms, h => by
    cases h
    exact ⟨[], rfl, .nil⟩
  | (k, s) :: rest, ms, h => by
    unfold keepMembers at h
    split at h
    · next k' j ms' first others =>
      cases h
      obtain ⟨v, spells, same⟩ := spelled_of_keepAny s j first
      obtain ⟨vs, spells', tell⟩ := spelled_of_keepMembers rest ms' others
      refine ⟨(k', v) :: vs, ?_, .cons ⟨rfl, same⟩ tell⟩
      simp only [spelledMembers, spells, spells']
    · cases h

end

/-- **What is kept.** What is kept of a tree is the value that it spells exactly if no object in that value
has the key of embedded texts alone. -/
theorem spelled_of_keep {s : Source} {j : Json} (h : s.keep = some j) :
    ∃ v, s.spelled = some v ∧ (j = v ↔ v.frankB = true) := by
  have frank : j.frankB = true := frankB_of_keep h
  unfold keep keepShallow at h
  split at h
  · obtain ⟨v, spells, same⟩ := spelled_of_keepAny s j h
    exact ⟨v, spells, fun kept => kept ▸ frank, same⟩
  · cases h

end Source

end AppAdmission.Json
