import AppAdmission.Patch.Apply

/-!
# Patches one after another

A patch is applied operation by operation, so a patch that is put together from two comes to the
second applied to what the first leaves. A longer patch that applies has every beginning of it apply.
-/

namespace AppAdmission.Patch

@[simp] theorem apply_nil (doc : Json) : apply [] doc = .ok doc := rfl

theorem apply_cons (op : Operation) (ops : List Operation) (doc : Json) :
    apply (op :: ops) doc = (op.apply doc).bind (apply ops) := by
  unfold apply
  rw [run]
  cases op.apply doc <;> rfl

theorem apply_singleton (op : Operation) (doc : Json) : apply [op] doc = op.apply doc := by
  rw [apply_cons]
  cases op.apply doc <;> rfl

/-- Two patches in a row are one patch. -/
theorem apply_append (first second : List Operation) (doc : Json) :
    apply (first ++ second) doc = (apply first doc).bind (apply second) := by
  induction first generalizing doc with
  | nil => rfl
  | cons op rest ih =>
    rw [List.cons_append, apply_cons, apply_cons]
    cases h : op.apply doc with
    | error fault => rfl
    | ok doc => exact ih doc

theorem apply_append_of_ok {first second : List Operation} {doc mid : Json}
    (h : apply first doc = .ok mid) : apply (first ++ second) doc = apply second mid := by
  rw [apply_append, h]
  rfl

theorem apply_cons_ok_iff {op : Operation} {ops : List Operation} {doc result : Json} :
    apply (op :: ops) doc = .ok result ↔
      ∃ mid, op.apply doc = .ok mid ∧ apply ops mid = .ok result := by
  rw [apply_cons]
  cases h : op.apply doc with
  | error fault => simp [Except.bind]
  | ok mid => simp [Except.bind]

theorem apply_append_ok_iff {first second : List Operation} {doc result : Json} :
    apply (first ++ second) doc = .ok result ↔
      ∃ mid, apply first doc = .ok mid ∧ apply second mid = .ok result := by
  rw [apply_append]
  cases h : apply first doc with
  | error fault => simp [Except.bind]
  | ok mid => simp [Except.bind]

end AppAdmission.Patch
