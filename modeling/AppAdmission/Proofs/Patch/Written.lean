import AppAdmission.Patch.Operation
import AppAdmission.Proofs.Json.Kept

/-!
# Patches that were written

A patch is read back from its own tree. The members of an operation are put aside until its name is
known, and its value is kept as a free one, so what a value must be to come back is what a free value
must be to be kept.
-/

namespace AppAdmission.Patch

open Json (Source)

/-- The value that an operation carries, if it carries one. -/
def Operation.value? : Operation → Option Json
  | add _ v => some v
  | replace _ v => some v
  | remove _ => none

/-- The values of a patch are free, and its numbers are integers that stay integers. -/
def Integral (ops : List Operation) : Prop :=
  ∀ op ∈ ops, ∀ v ∈ op.value?, v.canonicalB = true ∧ v.integralB = true

instance (ops : List Operation) : Decidable (Integral ops) :=
  inferInstanceAs (Decidable (∀ op ∈ ops, ∀ v ∈ op.value?, v.canonicalB = true ∧ v.integralB = true))

/-- No object in the values of a patch begins as one that stands for an embedded text. -/
def Plain (ops : List Operation) : Prop :=
  ∀ op ∈ ops, ∀ v ∈ op.value?, v.plainB = true

instance (ops : List Operation) : Decidable (Plain ops) :=
  inferInstanceAs (Decidable (∀ op ∈ ops, ∀ v ∈ op.value?, v.plainB = true))

namespace Operation

/-- An operation with a value is read by its name, its path and its value, which must be fit to be put
aside. -/
theorem decode_valued {name path : String} {v : Json} {level : Nat}
    (named : name = "add" ∨ name = "replace") :
    decode (Source.nested level (.obj [("op", .str name), ("path", .str path), ("value", v)])) =
      if (Source.nested (level + 1) v).asideB then
        (Source.keep (Source.nested (level + 1) v)).map
          (if name = "add" then add path else replace path)
      else none := by
  have whole : Source.nested level (.obj [("op", .str name), ("path", .str path), ("value", v)]) =
      .obj [(some "op", .str (some name)), (some "path", .str (some path)),
        (some "value", Source.nested (level + 1) v)] _ := rfl
  have read : Source.keyed [(some "op", .str (some name)), (some "path", .str (some path)),
        (some "value", Source.nested (level + 1) v)] =
      some [("op", .str (some name)), ("path", .str (some path)),
        ("value", Source.nested (level + 1) v)] := rfl
  have tag : Source.pick ["op"] [("op", .str (some name)), ("path", .str (some path)),
        ("value", Source.nested (level + 1) v)] = some [("op", .str (some name))] := rfl
  have others : Source.pick ["path", "value"] [("path", .str (some path)),
        ("value", Source.nested (level + 1) v)] =
      some [("path", .str (some path)), ("value", Source.nested (level + 1) v)] := rfl
  have path_aside : (Source.str (some path)).asideB = true := rfl
  rw [whole, decode]
  rcases named with rfl | rfl
  · simp [read, tag, Source.Fields.need, Members.find?, Source.text, path_aside, ofMembers, others,
      Option.map_eq_bind]
  · simp [read, tag, Source.Fields.need, Members.find?, Source.text, path_aside, ofMembers, others,
      Option.map_eq_bind]

/-- An operation whose value is free, holds no embedded text and is not nested too deep is read as it
was written. -/
theorem decode_nested {op : Operation} {level : Nat}
    (free : ∀ v ∈ op.value?, v.canonicalB = true) (plain : ∀ v ∈ op.value?, v.plainB = true)
    (shallow : level + op.toJson.depth ≤ Source.maxDepth + 1) :
    decode (Source.nested level op.toJson) = some op := by
  have valued {name path : String} {v : Json} (named : name = "add" ∨ name = "replace")
      (free : v.canonicalB = true) (plain : v.plainB = true) (shallow : level +
        (Json.obj [("op", .str name), ("path", .str path), ("value", v)]).depth ≤ Source.maxDepth + 1) :
      decode (Source.nested level (.obj [("op", .str name), ("path", .str path), ("value", v)])) =
        some (if name = "add" then add path v else replace path v) := by
    have within : level + 1 + v.depth ≤ Source.maxDepth + 1 := by
      simp only [Json.depth, Json.depthMembers] at shallow
      omega
    rw [decode_valued named, if_pos (Source.asideB_nested within), Source.keep_nested free plain within]
    split <;> rfl
  cases op with
  | add path v => exact valued (.inl rfl) (free v rfl) (plain v rfl) shallow
  | replace path v => exact valued (.inr rfl) (free v rfl) (plain v rfl) shallow
  | remove path => rfl

end Operation

/-- A patch of operations that come back comes back. -/
theorem mapM_decode_nested {ops : List Operation} {level : Nat}
    (each : ∀ op ∈ ops, Operation.decode (Source.nested level op.toJson) = some op) :
    (Source.nestedItems level (ops.map Operation.toJson)).mapM Operation.decode = some ops := by
  induction ops with
  | nil => rfl
  | cons op rest ih =>
    have others := ih fun op there => each op (List.mem_cons_of_mem _ there)
    rw [List.map_cons, Source.nestedItems, List.mapM_cons, each op List.mem_cons_self, others]
    rfl

/-- A patch whose values are free, hold no embedded text and are not nested too deep is read as it was
written. -/
theorem decode_nested {ops : List Operation} (integral : Integral ops) (plain : Plain ops)
    (shallow : (toJson ops).depth ≤ Source.maxDepth) : decode (Source.nested 1 (toJson ops)) = some ops := by
  refine mapM_decode_nested fun op there => ?_
  have within : op.toJson.depth ≤ Json.depthItems (ops.map Operation.toJson) :=
    Json.depth_le_depthItems (List.mem_map_of_mem there)
  rw [toJson, Json.depth] at shallow
  exact Operation.decode_nested (fun v carries => (integral op there v carries).1) (plain op there)
    (by omega)

/-- The numbers of a patch are those of its values. -/
theorem integralB_toJson {ops : List Operation} (integral : Integral ops) :
    (toJson ops).integralB = true := by
  induction ops with
  | nil => rfl
  | cons op rest ih =>
    have others : Json.integralItemsB (rest.map Operation.toJson) = true :=
      ih fun op there => integral op (List.mem_cons_of_mem _ there)
    have first : op.toJson.integralB = true := by
      have own := integral op List.mem_cons_self
      cases op with
      | add path v => simp [Operation.toJson, Json.integralB, Json.integralMembersB, (own v rfl).2]
      | replace path v => simp [Operation.toJson, Json.integralB, Json.integralMembersB, (own v rfl).2]
      | remove path => rfl
    show Json.integralItemsB (op.toJson :: rest.map Operation.toJson) = true
    rw [Json.integralItemsB, first, others]
    rfl

end AppAdmission.Patch
