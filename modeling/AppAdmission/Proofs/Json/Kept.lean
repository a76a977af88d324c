import AppAdmission.Proofs.Json.Path
import AppAdmission.Proofs.Json.Record

/-!
# Keeping what was written

The tree of a written value is kept as the value, if it is not nested too deep and none of its objects
can be taken for an embedded text. It is sound in any case: a reader that puts it aside may look at it
later.
-/

namespace AppAdmission.Json

mutual

/-- How many containers there are around the innermost part of a value. -/
def depth : Json → Nat
  | arr items => depthItems items + 1
  | obj members => depthMembers members + 1
  | _ => 0

/-- The depth of the deepest item. -/
def depthItems : List Json → Nat
  | [] => 0
  | j :: rest => max (depth j) (depthItems rest)

/-- The depth of the deepest member. -/
def depthMembers : List (String × Json) → Nat
  | [] => 0
  | (_, j) :: rest => max (depth j) (depthMembers rest)

end

mutual

/-- No object in a value begins as one that stands for an embedded text. -/
def plainB : Json → Bool
  | arr items => plainItemsB items
  | obj members => (members.head?.map (·.1) != some Source.embeddedKey) && plainMembersB members
  | _ => true

/-- `plainB` on the items of an array. -/
def plainItemsB : List Json → Bool
  | [] => true
  | j :: rest => plainB j && plainItemsB rest

/-- `plainB` on the values of members. -/
def plainMembersB : List (String × Json) → Bool
  | [] => true
  | (_, j) :: rest => plainB j && plainMembersB rest

end

theorem plainItemsB_iff {items : List Json} :
    plainItemsB items = true ↔ ∀ j ∈ items, j.plainB = true := by
  induction items with
  | nil => simp [plainItemsB]
  | cons j rest ih => simp [plainItemsB, ih]

theorem plainMembersB_iff {ms : List (String × Json)} :
    plainMembersB ms = true ↔ ∀ m ∈ ms, m.2.plainB = true := by
  induction ms with
  | nil => simp [plainMembersB]
  | cons m rest ih => simp [plainMembersB, ih]

theorem plainB_obj_iff {ms : List (String × Json)} : (obj ms).plainB = true ↔
    (∀ m ∈ ms.head?, m.1 ≠ Source.embeddedKey) ∧ ∀ m ∈ ms, m.2.plainB = true := by
  rw [plainB, Bool.and_eq_true, plainMembersB_iff]
  cases ms <;> simp

theorem depthItems_le {items : List Json} {n : Nat} (each : ∀ j ∈ items, j.depth ≤ n) :
    depthItems items ≤ n := by
  induction items with
  | nil => exact Nat.zero_le n
  | cons j rest ih =>
    exact Nat.max_le.2 ⟨each j List.mem_cons_self, ih fun k there => each k (List.mem_cons_of_mem j there)⟩

theorem depthMembers_le {ms : List (String × Json)} {n : Nat} (each : ∀ m ∈ ms, m.2.depth ≤ n) :
    depthMembers ms ≤ n := by
  induction ms with
  | nil => exact Nat.zero_le n
  | cons m rest ih =>
    exact Nat.max_le.2 ⟨each m List.mem_cons_self, ih fun k there => each k (List.mem_cons_of_mem m there)⟩

theorem depth_le_depthItems {j : Json} {items : List Json} (h : j ∈ items) :
    j.depth ≤ depthItems items := by
  induction items with
  | nil => cases h
  | cons k rest ih =>
    rw [depthItems]
    rcases List.mem_cons.1 h with rfl | later
    · exact Nat.le_max_left _ _
    · exact (ih later).trans (Nat.le_max_right _ _)

namespace Source

theorem deepest_le {level n : Nat} {values : List Source} (own : level ≤ n)
    (each : ∀ s ∈ values, s.reach ≤ n) : deepest level values ≤ n := by
  induction values generalizing level with
  | nil => exact own
  | cons s rest ih =>
    have first : s.reach ≤ n := each s List.mem_cons_self
    exact ih (Nat.max_le.2 ⟨own, first⟩) fun t there => each t (List.mem_cons_of_mem s there)

mutual

/-- The deepest level of a written value is the one where it begins and its depth together. -/
theorem reach_nested : (j : Json) → {level n : Nat} → level + j.depth ≤ n + 1 →
    (nested level j).reach ≤ n
  | .null, _, _, _ | .bool _, _, _, _ | .num _, _, _, _ | .str _, _, _, _ => Nat.zero_le _
  | .arr items, level, n, h => by
    rw [depth] at h
    exact deepest_le (by omega) (reach_nestedItems items (by omega))
  | .obj members, level, n, h => by
    rw [depth] at h
    refine deepest_le (by omega) fun s there => ?_
    obtain ⟨m, among, rfl⟩ := List.mem_map.1 there
    exact reach_nestedMembers members (by omega) m among

theorem reach_nestedItems : (items : List Json) → {level n : Nat} →
    level + depthItems items ≤ n + 1 → ∀ s ∈ nestedItems level items, s.reach ≤ n
  | [], _, _, _, _, there => nomatch there
  | j :: rest, level, n, h, s, there => by
    rw [depthItems] at h
    rcases List.mem_cons.1 there with rfl | there
    · exact reach_nested j (by omega)
    · exact reach_nestedItems rest (by omega) s there

theorem reach_nestedMembers : (members : List (String × Json)) → {level n : Nat} →
    level + depthMembers members ≤ n + 1 → ∀ m ∈ nestedMembers level members, m.2.reach ≤ n
  | [], _, _, _, _, there => nomatch there
  | (k, j) :: rest, level, n, h, m, there => by
    rw [depthMembers] at h
    rcases List.mem_cons.1 there with rfl | there
    · exact reach_nested j (by omega)
    · exact reach_nestedMembers rest (by omega) m there

end

mutual

/-- What was written is sound. -/
theorem soundB_nested : (j : Json) → (level : Nat) → (nested level j).soundB = true
  | .null, _ | .bool _, _ | .num _, _ | .str _, _ => rfl
  | .arr items, level => soundItemsB_nested items (level + 1)
  | .obj members, level => soundMembersB_nested members (level + 1)

theorem soundItemsB_nested : (items : List Json) → (level : Nat) →
    soundItemsB (nestedItems level items) = true
  | [], _ => rfl
  | j :: rest, level => by
    rw [nestedItems, soundItemsB, soundB_nested j level, soundItemsB_nested rest level]
    rfl

theorem soundMembersB_nested : (members : List (String × Json)) → (level : Nat) →
    soundMembersB (nestedMembers level members) = true
  | [], _ => rfl
  | (k, j) :: rest, level => by
    rw [nestedMembers, soundMembersB, soundB_nested j level, soundMembersB_nested rest level]
    rfl

end

/-- A written value that is not nested too deep can be put aside. -/
theorem asideB_nested {j : Json} {level : Nat} (shallow : level + j.depth ≤ maxDepth + 1) :
    (nested level j).asideB = true := by
  have within : (nested level j).reach ≤ maxDepth := reach_nested j shallow
  simp [asideB, within, soundB_nested]

theorem embeddedText?_nestedMembers {members : List (String × Json)} {level : Nat}
    (plain : (Json.obj members).plainB = true) : embeddedText? (nestedMembers level members) = none := by
  cases members with
  | nil => rfl
  | cons m rest =>
    obtain ⟨k, j⟩ := m
    have other : k ≠ embeddedKey := by
      rw [plainB, Bool.and_eq_true] at plain
      simpa using plain.1
    simp [nestedMembers, embeddedText?, other]

variable {embedded : String → Option Json}

mutual

/-- A written free value without embedded texts is kept as it is. -/
theorem keepAny_nested : (j : Json) → (level : Nat) → j.canonicalB = true → j.plainB = true →
    keepAny embedded (nested level j) = some j
  | .null, _, _, _ | .bool _, _, _, _ | .num _, _, _, _ | .str _, _, _, _ => rfl
  | .arr items, level, free, plain => by
    rw [canonicalB] at free
    rw [plainB] at plain
    rw [nested, keepAny, keepItems_nested items (level + 1) free plain]
    rfl
  | .obj members, level, free, plain => by
    have unembedded : embeddedText? (nestedMembers (level + 1) members) = none :=
      embeddedText?_nestedMembers plain
    rw [canonicalB, Bool.and_eq_true] at free
    rw [plainB, Bool.and_eq_true] at plain
    have sorted : Members.Sorted members := decide_eq_true_iff.1 free.1
    rw [nested, keepAny, unembedded, keepMembers_nested members (level + 1) free.2 plain.2]
    simp only [Option.map_some, Members.sort_of_sorted sorted]

theorem keepItems_nested : (items : List Json) → (level : Nat) → canonicalItemsB items = true →
    plainItemsB items = true → keepItems embedded (nestedItems level items) = some items
  | [], _, _, _ => rfl
  | j :: rest, level, free, plain => by
    rw [canonicalItemsB, Bool.and_eq_true] at free
    rw [plainItemsB, Bool.and_eq_true] at plain
    rw [nestedItems, keepItems, keepAny_nested j level free.1 plain.1,
      keepItems_nested rest level free.2 plain.2]

theorem keepMembers_nested : (members : List (String × Json)) → (level : Nat) →
    canonicalMembersB members = true → plainMembersB members = true →
    keepMembers embedded (nestedMembers level members) = some members
  | [], _, _, _ => rfl
  | (k, j) :: rest, level, free, plain => by
    rw [canonicalMembersB, Bool.and_eq_true] at free
    rw [plainMembersB, Bool.and_eq_true] at plain
    simp only [nestedMembers, keepMembers, keepAny_nested j level free.1 plain.1,
      keepMembers_nested rest level free.2 plain.2]

end

/-- A written free value without embedded texts that is not nested too deep is kept as it is. -/
theorem keep_nested {j : Json} {level : Nat} (free : j.canonicalB = true) (plain : j.plainB = true)
    (shallow : level + j.depth ≤ maxDepth + 1) : keep (nested level j) = some j := by
  have within : (nested level j).reach ≤ maxDepth := reach_nested j shallow
  unfold keep keepShallow
  rw [if_pos within]
  exact keepAny_nested j level free plain

end Source

end AppAdmission.Json
