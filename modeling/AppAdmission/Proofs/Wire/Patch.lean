import AppAdmission.Proofs.Json.Slot
import AppAdmission.Proofs.Patch.Written

/-!
# Patches on the wire

How patches are read and written. All that an operation carries is its value, which stands in the
operation when it is read, whether that is an object or an array, and when it is written.
-/

namespace AppAdmission.Patch

open Json (Source Wire Carried)

namespace Operation

theorem asideB_of_keep {level : Nat} {v j : Json} (h : Source.keep (Source.nested level v) = some j) :
    (Source.nested level v).asideB = true := by
  unfold Source.keep Source.keepShallow at h
  split at h
  · next low => simp [Source.asideB, low, Source.soundB_nested]
  · cases h

/-- An operation with a value comes back exactly if its value is kept as it is. -/
theorem decode_nested_iff {op : Operation} {v : Json} {level : Nat} (carries : op.value? = some v) :
    decode (Source.nested level op.toJson) = some op ↔
      Source.keep (Source.nested (level + 1) v) = some v := by
  have aside : Source.keep (Source.nested (level + 1) v) = some v →
      (Source.nested (level + 1) v).asideB = true := asideB_of_keep
  cases op with
  | add path w =>
    cases carries
    rw [toJson, decode_valued (.inl rfl)]
    simpa using aside
  | replace path w =>
    cases carries
    rw [toJson, decode_valued (.inr rfl)]
    simpa using aside
  | remove path => cases carries

theorem mem_of_need {fs : Source.Fields} {name : String} {read : Source → Option Json} {v : Json}
    (h : fs.need name read = some v) : ∃ s, (name, s) ∈ fs ∧ read s = some v := by
  obtain ⟨s, found, read⟩ := Option.bind_eq_some_iff.1 h
  exact ⟨s, Members.mem_of_find? found, read⟩

/-- The value of an operation that is given by its members is one of them. -/
theorem value_of_ofMembers {name : String} {members : Source.Fields} {op : Operation} {v : Json}
    (h : ofMembers name members = some op) (carries : op.value? = some v) :
    ∃ m ∈ members, m.2.keep = some v := by
  obtain ⟨fs, picked, h⟩ := Option.bind_eq_some_iff.1 h
  obtain ⟨path, -, h⟩ := Option.bind_eq_some_iff.1 h
  have among {w : Json} (h : fs.need "value" Source.keep = some w) : ∃ m ∈ members, m.2.keep = some w := by
    obtain ⟨s, there, kept⟩ := mem_of_need h
    exact ⟨_, (Json.mem_of_pick picked _ there).1, kept⟩
  split at h
  · obtain ⟨w, needed, same⟩ := Option.bind_eq_some_iff.1 h
    cases same
    cases carries
    exact among needed
  · obtain ⟨w, needed, same⟩ := Option.bind_eq_some_iff.1 h
    cases same
    cases carries
    exact among needed
  · cases h
    cases carries
  · cases h

/-- The value of an operation stands in what the operation is read from. -/
theorem value_of_decode {s : Source} {op : Operation} {v : Json} (h : decode s = some op)
    (carries : op.value? = some v) : ∃ part, Source.Inside 1 s part ∧ part.keep = some v := by
  unfold decode at h
  split at h
  · obtain ⟨ms, read, h⟩ := Option.bind_eq_some_iff.1 h
    obtain ⟨tag, -, h⟩ := Option.bind_eq_some_iff.1 h
    obtain ⟨name, -, h⟩ := Option.bind_eq_some_iff.1 h
    dsimp only at h
    split at h
    · obtain ⟨m, left, kept⟩ := value_of_ofMembers h carries
      have member := Json.mem_of_keyed read m (List.mem_filter.1 left).1
      exact ⟨m.2, .member member .here, kept⟩
    · cases h
  · obtain ⟨name, -, h⟩ := Option.bind_eq_some_iff.1 h
    split at h
    · obtain ⟨path, -, same⟩ := Option.bind_eq_some_iff.1 h
      cases same
      cases carries
    · cases h
  · next value _ =>
    obtain ⟨name, -, h⟩ := Option.bind_eq_some_iff.1 h
    obtain ⟨path, -, h⟩ := Option.bind_eq_some_iff.1 h
    obtain ⟨w, kept, h⟩ := Option.bind_eq_some_iff.1 h
    have same : w = v := by
      split at h
      · cases h
        exact Option.some.inj carries
      · split at h
        · cases h
          exact Option.some.inj carries
        · cases h
    exact ⟨value, .item (by simp) .here, by rw [kept, same]⟩
  · cases h

/-- Operations on the wire. -/
def wire : Wire Operation where
  read := decode
  write := toJson
  carried op := op.value?.toList.map fun v => { steps := 1, optional := false, value := v }
  kept {s op} h c there := by
    obtain ⟨v, given, rfl⟩ := List.mem_map.1 there
    obtain ⟨part, down, kept⟩ := value_of_decode h (Option.mem_toList.1 given)
    exact ⟨part, down, kept, nofun⟩
  back {s op} h level := by
    cases carries : op.value? with
    | none =>
      refine ⟨fun _ => nofun, fun _ => ?_⟩
      cases op with
      | add _ _ | replace _ _ => cases carries
      | remove path => rfl
    | some v => simp [decode_nested_iff carries, Carried.Returns]
  whole {s op} h each := by
    cases op with
    | add path v | replace path v =>
      have own : v.wholeB = true := each _ (List.mem_singleton_self _)
      simp [toJson, Json.wholeB, Json.wholeMembersB, own]
    | remove path => rfl

end Operation

/-- Patches on the wire. -/
def wire : Wire (List Operation) := Operation.wire.list

theorem read_wire : wire.read = decode := rfl

theorem write_wire : wire.write = toJson := rfl

end AppAdmission.Patch
