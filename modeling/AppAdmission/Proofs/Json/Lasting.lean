import AppAdmission.Proofs.Json.Free
import AppAdmission.Proofs.Json.Kept
import AppAdmission.Proofs.Json.Nesting

/-!
# Free values that come back

A free value that is written at some level of a text is kept as it is exactly if none of its objects
begins as one that stands for an embedded text and its containers end by the deepest level. Of a text
without the key of embedded texts every value that is kept is of this kind at the level where it stood.
-/

namespace AppAdmission.Json

/-- No object in the value begins as one that stands for an embedded text, and the containers of the
value end by the deepest level when it is written at the given one. -/
structure Lasts (level : Nat) (j : Json) : Prop where
  plain : j.plainB = true
  shallow : 0 < j.depth → level + j.depth ≤ Source.maxDepth + 1

instance (level : Nat) (j : Json) : Decidable (j.Lasts level) :=
  decidable_of_iff (j.plainB = true ∧ (0 < j.depth → level + j.depth ≤ Source.maxDepth + 1))
    ⟨fun h => ⟨h.1, h.2⟩, fun h => ⟨h.plain, h.shallow⟩⟩

namespace Source

section Everywhere

variable (number : Option Number → Bool) (key : Option String → Bool)

mutual

/-- Every number and every key is fit. -/
def allB : Source → Bool
  | null | bool _ | str _ => true
  | num n => number n
  | arr items _ => allItemsB items
  | obj members _ => allMembersB members

/-- `allB` on the items of an array. -/
def allItemsB : List Source → Bool
  | [] => true
  | s :: rest => allB s && allItemsB rest

/-- `allB` on the members of an object. -/
def allMembersB : List (Option String × Source) → Bool
  | [] => true
  | (k, s) :: rest => key k && allB s && allMembersB rest

end

variable {number key}

theorem allItemsB_iff {items : List Source} :
    allItemsB number key items = true ↔ ∀ s ∈ items, s.allB number key = true := by
  induction items with
  | nil => simp [allItemsB]
  | cons s rest ih => simp [allItemsB, ih]

theorem allMembersB_iff {members : List (Option String × Source)} :
    allMembersB number key members = true ↔
      ∀ m ∈ members, key m.1 = true ∧ m.2.allB number key = true := by
  induction members with
  | nil => simp [allMembersB]
  | cons m rest ih => simp [allMembersB, ih, and_assoc]

theorem allB_of_inside {n : Nat} {s part : Source} (h : s.allB number key = true)
    (down : Inside n s part) : part.allB number key = true := by
  induction down with
  | here => exact h
  | item among _ ih => exact ih (allItemsB_iff.1 h _ among)
  | member among _ ih => exact ih (allMembersB_iff.1 h _ among).2

end Everywhere

/-- Every number is an integer of 64 bits or minus zero. -/
def wholeB : Source → Bool := allB (·.any Number.wholeB) fun _ => true

/-- Every number is an integer of 64 bits or minus zero, and no object has the key of embedded texts. -/
def ordinaryB : Source → Bool := allB (·.any Number.wholeB) (· != some embeddedKey)

variable {embedded : String → Option Json}

theorem exists_of_keepItems {items : List Source} {js : List Json}
    (h : keepItems embedded items = some js) : ∀ j ∈ js, ∃ s ∈ items, keepAny embedded s = some j := by
  induction items generalizing js with
  | nil =>
    cases h
    exact nofun
  | cons s rest ih =>
    unfold keepItems at h
    split at h
    · next j js' first others =>
      cases h
      intro k there
      rcases List.mem_cons.1 there with rfl | there
      · exact ⟨s, List.mem_cons_self, first⟩
      · obtain ⟨s', among, kept⟩ := ih others k there
        exact ⟨s', List.mem_cons_of_mem s among, kept⟩
    · cases h

theorem exists_of_keepMembers {members : List (Option String × Source)} {ms : List (String × Json)}
    (h : keepMembers embedded members = some ms) :
    ∀ m ∈ ms, ∃ m' ∈ members, m'.1 = some m.1 ∧ keepAny embedded m'.2 = some m.2 := by
  induction members generalizing ms with
  | nil =>
    cases h
    exact nofun
  | cons m rest ih =>
    unfold keepMembers at h
    split at h
    · next k j ms' named first others =>
      cases h
      intro n there
      rcases List.mem_cons.1 there with rfl | there
      · exact ⟨_, List.mem_cons_self, named, first⟩
      · obtain ⟨m', among, kept⟩ := ih others n there
        exact ⟨m', List.mem_cons_of_mem _ among, kept⟩
    · cases h

theorem keys_of_keepMembers {members : List (Option String × Source)} {ms : List (String × Json)}
    (h : keepMembers embedded members = some ms) : members.map (·.1) = ms.map fun m => some m.1 := by
  induction members generalizing ms with
  | nil =>
    cases h
    rfl
  | cons m rest ih =>
    unfold keepMembers at h
    split at h
    · next k j ms' named first others =>
      cases h
      rw [List.map_cons, List.map_cons, ih others, named]
    · cases h

theorem embeddedText?_of_ordinaryB {members : List (Option String × Source)}
    (h : allMembersB (·.any Number.wholeB) (· != some embeddedKey) members = true) :
    embeddedText? members = none := by
  match members with
  | [] => rfl
  | (none, s) :: rest => rfl
  | (some k, s) :: rest =>
    have other : k ≠ embeddedKey := by
      have first := (allMembersB_iff.1 h _ List.mem_cons_self).1
      simpa using first
    simp [embeddedText?, other]

/-- What is kept of an ordinary value is plain and whole, and its containers were within the value. -/
theorem kept_of_ordinaryB {level : Nat} {s : Source} {j : Json} (nests : Nests level s)
    (ordinary : s.ordinaryB = true) (h : keepAny embedded s = some j) :
    j.plainB = true ∧ j.wholeB = true ∧ (0 < j.depth → level + j.depth ≤ s.reach + 1) := by
  induction nests generalizing j with
  | null | bool =>
    cases h
    exact ⟨rfl, rfl, nofun⟩
  | @num level n =>
    obtain ⟨n, rfl, rfl⟩ := Option.map_eq_some_iff.1 h
    exact ⟨rfl, ordinary, nofun⟩
  | str =>
    obtain ⟨s, -, rfl⟩ := Option.map_eq_some_iff.1 h
    exact ⟨rfl, rfl, nofun⟩
  | @arr level reach items own each within ih =>
    obtain ⟨js, kept, rfl⟩ := Option.map_eq_some_iff.1 h
    have item (j : Json) (there : j ∈ js) : j.plainB = true ∧ j.wholeB = true ∧
        j.depth ≤ reach - level := by
      obtain ⟨s, among, came⟩ := exists_of_keepItems kept j there
      obtain ⟨plain, whole, deep⟩ := ih s among (allItemsB_iff.1 ordinary s among) came
      have low := within s among
      exact ⟨plain, whole, by omega⟩
    have deepest : depthItems js ≤ reach - level := depthItems_le fun j there => (item j there).2.2
    refine ⟨plainItemsB_iff.2 fun j there => (item j there).1,
      wholeItemsB_iff.2 fun j there => (item j there).2.1, fun _ => ?_⟩
    show level + (depthItems js + 1) ≤ reach + 1
    omega
  | @obj level reach members own each within ih =>
    rw [keepAny, embeddedText?_of_ordinaryB ordinary] at h
    obtain ⟨ms, kept, rfl⟩ := Option.map_eq_some_iff.1 h
    have member (m : String × Json) (there : m ∈ Members.sort ms) : m.1 ≠ embeddedKey ∧
        m.2.plainB = true ∧ m.2.wholeB = true ∧ m.2.depth ≤ reach - level := by
      obtain ⟨m', among, named, came⟩ := exists_of_keepMembers kept m (Members.mem_of_mem_sort there)
      obtain ⟨keyless, ordinary'⟩ := allMembersB_iff.1 ordinary m' among
      obtain ⟨plain, whole, deep⟩ := ih m' among ordinary' came
      have low := within m' among
      refine ⟨?_, plain, whole, by omega⟩
      rintro key
      simp [named, key] at keyless
    have deepest : depthMembers (Members.sort ms) ≤ reach - level :=
      depthMembers_le fun m there => (member m there).2.2.2
    refine ⟨plainB_obj_iff.2 ⟨fun m first => (member m (List.mem_of_mem_head? first)).1,
      fun m there => (member m there).2.1⟩, wholeMembersB_iff.2 fun m there => (member m there).2.2.1,
      fun _ => ?_⟩
    show level + (depthMembers (Members.sort ms) + 1) ≤ reach + 1
    omega

/-- What is kept of an ordinary value lasts at the level where the value was. -/
theorem lasts_of_keep {level : Nat} {s : Source} {j : Json} (nests : Nests level s)
    (ordinary : s.ordinaryB = true) (h : s.keep = some j) : j.Lasts level ∧ j.wholeB = true := by
  unfold keep keepShallow at h
  split at h
  · next low =>
    obtain ⟨plain, whole, deep⟩ := kept_of_ordinaryB nests ordinary h
    exact ⟨⟨plain, fun some => (deep some).trans (Nat.add_le_add_right low 1)⟩, whole⟩
  · cases h

/-- Of ordinary values only null is kept as null. -/
theorem eq_null_of_keep {s : Source} (ordinary : s.ordinaryB = true) (h : s.keep = some .null) :
    s = .null := by
  unfold keep keepShallow at h
  split at h
  · cases s with
    | null => rfl
    | bool b => cases h
    | num n | str t =>
      obtain ⟨_, -, same⟩ := Option.map_eq_some_iff.1 h
      cases same
    | arr items reach =>
      obtain ⟨_, -, same⟩ := Option.map_eq_some_iff.1 h
      cases same
    | obj members reach =>
      rw [keepAny, embeddedText?_of_ordinaryB ordinary] at h
      obtain ⟨_, -, same⟩ := Option.map_eq_some_iff.1 h
      cases same
  · cases h

/-! ## What does not last is not kept -/

/-- No text stands for an object that stands for a text itself. -/
def Settles (embedded : String → Option Json) : Prop :=
  ∀ t v, embedded t ≠ some (.obj [(embeddedKey, v)])

theorem keepAny_ne_lone (settles : Settles embedded) (s : Source) (v : Json) :
    keepAny embedded s ≠ some (.obj [(embeddedKey, v)]) := by
  intro h
  cases s with
  | null | bool _ => cases h
  | num _ | str _ | arr _ _ =>
    obtain ⟨_, -, same⟩ := Option.map_eq_some_iff.1 h
    cases same
  | obj members reach =>
    rw [keepAny] at h
    split at h
    · obtain ⟨t, -, meant⟩ := Option.bind_eq_some_iff.1 h
      exact settles t v meant
    · next unembedded =>
      obtain ⟨ms, kept, same⟩ := Option.map_eq_some_iff.1 h
      have alone : Members.sort ms = [(embeddedKey, v)] := Json.obj.inj same
      cases ms with
      | nil => cases alone
      | cons m rest =>
        -- the key that comes first is there when the members are sorted, and it is another one
        have other : m.1 ≠ embeddedKey := by
          have keys := keys_of_keepMembers kept
          cases members with
          | nil => cases keys
          | cons m' rest' =>
            obtain ⟨k, s⟩ := m'
            obtain rfl : k = some m.1 := (List.cons.inj keys).1
            intro key
            simp [embeddedText?, key] at unembedded
        have found := Members.find?_sort m.1 (m :: rest)
        rw [alone, List.reverse_cons, Members.find?_append] at found
        simp [Members.find?, other.symm] at found

theorem settles_embeddedWithin (fuel : Nat) : Settles (embeddedWithin fuel) := by
  induction fuel with
  | zero => exact fun _ _ h => nomatch h
  | succ fuel ih =>
    intro t v h
    obtain ⟨s, -, kept⟩ := Option.bind_eq_some_iff.1 h
    unfold keepShallow at kept
    split at kept
    · exact keepAny_ne_lone ih s v kept
    · cases kept

theorem settles_embedded : Settles Source.embedded := fun t => settles_embeddedWithin t.length t

/-- Members in order stay in order when they are kept. -/
theorem sorted_of_keepMembers_nested {members ms : List (String × Json)} {level : Nat}
    (sorted : Members.Sorted members) (h : keepMembers embedded (nestedMembers level members) = some ms) :
    Members.Sorted ms := by
  have keys := keys_of_keepMembers h
  rw [nestedMembers_eq_map, List.map_map] at keys
  have same : ms.map (·.1) = members.map (·.1) := by
    refine List.map_injective_iff.2 (Option.some_injective String) ?_
    rw [List.map_map, List.map_map]
    exact keys.symm
  exact Members.sorted_of_keys _ same (List.pairwise_map.2 sorted)

mutual

/-- A free value that is kept as it is, when it was written, is plain. -/
theorem plainB_of_keepAny_nested (settles : Settles embedded) : (j : Json) → {level : Nat} →
    j.canonicalB = true → keepAny embedded (nested level j) = some j → j.plainB = true
  | .null, _, _, _ | .bool _, _, _, _ | .num _, _, _, _ | .str _, _, _, _ => rfl
  | .arr items, level, free, h => by
    obtain ⟨js, kept, same⟩ := Option.map_eq_some_iff.1 h
    rw [Json.arr.inj same] at kept
    exact plainItemsB_of_keepItems_nested settles items free kept
  | .obj members, level, free, h => by
    rw [canonicalB, Bool.and_eq_true, decide_eq_true_iff] at free
    rw [nested, keepAny] at h
    split at h
    · next t begins =>
      -- a lone member whose value is a text would have to stand for itself
      obtain ⟨t, read, meant⟩ := Option.bind_eq_some_iff.1 h
      match members with
      | [] => cases begins
      | (k, j) :: rest =>
        rw [nestedMembers, embeddedText?] at begins
        split at begins
        · next key =>
          subst key
          cases rest with
          | nil => exact absurd meant (settles t j)
          | cons m rest =>
            cases begins
            cases read
        · cases begins
    · next unembedded =>
      obtain ⟨ms, kept, same⟩ := Option.map_eq_some_iff.1 h
      have stays : ms = members := by
        rw [← Members.sort_of_sorted (sorted_of_keepMembers_nested free.1 kept)]
        exact Json.obj.inj same
      rw [stays] at kept
      refine plainB_obj_iff.2 ⟨?_, plainMembersB_iff.1
        (plainMembersB_of_keepMembers_nested settles members free.2 kept)⟩
      intro m first key
      cases members with
      | nil => cases first
      | cons m' rest =>
        cases first
        simp [nestedMembers, embeddedText?, key] at unembedded

theorem plainItemsB_of_keepItems_nested (settles : Settles embedded) : (items : List Json) →
    {level : Nat} → canonicalItemsB items = true →
    keepItems embedded (nestedItems level items) = some items → plainItemsB items = true
  | [], _, _, _ => rfl
  | j :: rest, level, free, h => by
    rw [canonicalItemsB, Bool.and_eq_true] at free
    rw [nestedItems, keepItems] at h
    split at h
    · next first others =>
      cases h
      rw [plainItemsB, plainB_of_keepAny_nested settles j free.1 first,
        plainItemsB_of_keepItems_nested settles rest free.2 others]
      rfl
    · cases h

theorem plainMembersB_of_keepMembers_nested (settles : Settles embedded) :
    (members : List (String × Json)) → {level : Nat} → canonicalMembersB members = true →
    keepMembers embedded (nestedMembers level members) = some members → plainMembersB members = true
  | [], _, _, _ => rfl
  | (k, j) :: rest, level, free, h => by
    rw [canonicalMembersB, Bool.and_eq_true] at free
    rw [nestedMembers] at h
    unfold keepMembers at h
    split at h
    · next named first others =>
      cases h
      rw [plainMembersB, plainB_of_keepAny_nested settles j free.1 first,
        plainMembersB_of_keepMembers_nested settles rest free.2 others]
      rfl
    · cases h

end

theorem le_deepest (level : Nat) (values : List Source) :
    level ≤ deepest level values ∧ ∀ s ∈ values, s.reach ≤ deepest level values := by
  induction values generalizing level with
  | nil => exact ⟨Nat.le_refl level, nofun⟩
  | cons s rest ih =>
    obtain ⟨low, each⟩ := ih (max level s.reach)
    refine ⟨(Nat.le_max_left _ _).trans low, fun t there => ?_⟩
    rcases List.mem_cons.1 there with rfl | there
    · exact (Nat.le_max_right _ _).trans low
    · exact each t there

mutual

/-- A written value reaches as deep as its depth says. -/
theorem le_reach_nested : (j : Json) → (level : Nat) → 0 < j.depth →
    level + j.depth ≤ (nested level j).reach + 1
  | .null, _, h | .bool _, _, h | .num _, _, h | .str _, _, h => nomatch h
  | .arr items, level, _ => by
    obtain ⟨low, each⟩ := le_deepest level (nestedItems (level + 1) items)
    exact Nat.succ_le_succ (depthItems_le_reach items low each)
  | .obj members, level, _ => by
    obtain ⟨low, each⟩ := le_deepest level ((nestedMembers (level + 1) members).map (·.2))
    exact Nat.succ_le_succ (depthMembers_le_reach members low fun m there =>
      each m.2 (List.mem_map_of_mem there))

theorem depthItems_le_reach : (items : List Json) → {level n : Nat} → level ≤ n →
    (∀ s ∈ nestedItems (level + 1) items, s.reach ≤ n) → level + depthItems items ≤ n
  | [], _, _, low, _ => low
  | j :: rest, level, n, low, each => by
    have others := depthItems_le_reach rest low fun s there => each s (List.mem_cons_of_mem _ there)
    have own := each _ List.mem_cons_self
    have first := le_reach_nested j (level + 1)
    rw [depthItems]
    omega

theorem depthMembers_le_reach : (members : List (String × Json)) → {level n : Nat} → level ≤ n →
    (∀ m ∈ nestedMembers (level + 1) members, m.2.reach ≤ n) → level + depthMembers members ≤ n
  | [], _, _, low, _ => low
  | (k, j) :: rest, level, n, low, each => by
    have others := depthMembers_le_reach rest low fun m there => each m (List.mem_cons_of_mem _ there)
    have own : (nested (level + 1) j).reach ≤ n := each _ List.mem_cons_self
    have first := le_reach_nested j (level + 1)
    rw [depthMembers]
    omega

end

/-- **What comes back.** A free value that was written at a level is kept as it is exactly if it lasts
there. -/
theorem keep_nested_iff {j : Json} {level : Nat} (free : j.canonicalB = true) :
    keep (nested level j) = some j ↔ j.Lasts level := by
  constructor
  · intro h
    unfold keep keepShallow at h
    split at h
    · next low =>
      refine ⟨plainB_of_keepAny_nested settles_embedded j free h, fun some => ?_⟩
      exact (le_reach_nested j level some).trans (Nat.add_le_add_right low 1)
    · cases h
  · rintro ⟨plain, shallow⟩
    rcases Nat.eq_zero_or_pos j.depth with flat | deep
    · cases j with
      | null | bool _ | num _ | str _ => rfl
      | arr _ | obj _ => cases flat
    · exact keep_nested free plain (shallow deep)

end Source

end AppAdmission.Json
