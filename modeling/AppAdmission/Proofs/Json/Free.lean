import AppAdmission.Review
import AppAdmission.Proofs.Json.Path

/-!
# Kept values are free

A value that is kept holds the members of every object in order of their keys, each once. So the
documents that arrive in requests are free values, whatever text they were given as.
-/

namespace AppAdmission

namespace Json.Source

/-- What texts stand for is free. -/
def Frees (embedded : String → Option Json) : Prop :=
  ∀ t j, embedded t = some j → j.canonicalB = true

variable {embedded : String → Option Json}

mutual

theorem canonicalB_of_keepAny (frees : Frees embedded) : (s : Source) → (j : Json) →
    s.keepAny embedded = some j → j.canonicalB = true
  | .null, _, h | .bool _, _, h => by
    cases h
    rfl
  | .num n, j, h => by
    obtain ⟨n, -, rfl⟩ := Option.map_eq_some_iff.1 h
    rfl
  | .str s, j, h => by
    obtain ⟨s, -, rfl⟩ := Option.map_eq_some_iff.1 h
    rfl
  | .arr items _, j, h => by
    obtain ⟨js, kept, rfl⟩ := Option.map_eq_some_iff.1 h
    exact canonicalB_arr_iff.2 (canonicalB_of_keepItems frees items js kept)
  | .obj members _, j, h => by
    rw [keepAny] at h
    split at h
    · next t _ =>
      obtain ⟨t, -, meant⟩ := Option.bind_eq_some_iff.1 h
      exact frees t j meant
    · obtain ⟨ms, kept, rfl⟩ := Option.map_eq_some_iff.1 h
      refine canonicalB_obj_iff.2 ⟨Members.sorted_sort ms, fun m there => ?_⟩
      exact canonicalB_of_keepMembers frees members ms kept m (Members.mem_of_mem_sort there)

theorem canonicalB_of_keepItems (frees : Frees embedded) : (items : List Source) →
    (js : List Json) → keepItems embedded items = some js → ∀ j ∈ js, j.canonicalB = true
  | [], js, h => by
    cases h
    simp
  | s :: rest, js, h => by
    rw [keepItems] at h
    split at h
    · next j js' first others =>
      cases h
      intro i there
      rcases List.mem_cons.1 there with rfl | there
      · exact canonicalB_of_keepAny frees s i first
      · exact canonicalB_of_keepItems frees rest js' others i there
    · cases h

theorem canonicalB_of_keepMembers (frees : Frees embedded) :
    (members : List (Option String × Source)) → (ms : List (String × Json)) →
    keepMembers embedded members = some ms → ∀ m ∈ ms, m.2.canonicalB = true
  | [], ms, h => by
    cases h
    simp
  | (k, s) :: rest, ms, h => by
    unfold keepMembers at h
    split at h
    · next k' j ms' first others =>
      cases h
      intro m there
      rcases List.mem_cons.1 there with rfl | there
      · exact canonicalB_of_keepAny frees s j first
      · exact canonicalB_of_keepMembers frees rest ms' others m there
    · cases h

end

theorem canonicalB_of_keepShallow (frees : Frees embedded) {s : Source} {j : Json}
    (h : s.keepShallow embedded = some j) : j.canonicalB = true := by
  unfold keepShallow at h
  split at h
  · exact canonicalB_of_keepAny frees s j h
  · cases h

theorem frees_embeddedWithin (fuel : Nat) : Frees (embeddedWithin fuel) := by
  induction fuel with
  | zero =>
    intro t j h
    cases h
  | succ fuel ih =>
    intro t j h
    obtain ⟨s, -, kept⟩ := Option.bind_eq_some_iff.1 h
    exact canonicalB_of_keepShallow ih kept

/-- A value that is kept is free. -/
theorem canonicalB_of_keep {s : Source} {j : Json} (h : s.keep = some j) : j.canonicalB = true :=
  canonicalB_of_keepShallow (fun t => frees_embeddedWithin t.length t) h

/-- A value of a field that may be null was read from something. -/
theorem Fields.exists_of_optional {α : Type} {fs : Fields} {name : String} {read : Source → Option α}
    {a : α} (h : fs.optional name read = some (some a)) : ∃ s, read s = some a := by
  unfold Fields.optional Fields.orElse at h
  split at h
  · cases h
  · next s _ =>
    cases s with
    | null => cases h
    | bool _ | num _ | str _ | arr _ _ | obj _ _ =>
      obtain ⟨b, found, same⟩ := Option.map_eq_some_iff.1 h
      cases same
      exact ⟨_, found⟩

end Json.Source

/-- The document of a request that was read is free. -/
theorem ReviewRequest.canonicalB_object {s : Json.Source} {r : ReviewRequest} {document : Json}
    (h : decode s = some r) (there : r.object = some document) : document.canonicalB = true := by
  unfold decode at h
  simp only [Option.bind_eq_bind, Option.bind_eq_some_iff] at h
  obtain ⟨fs, -, _, -, _, -, _, -, _, -, _, -, _, -, object, found, _, -, _, -, same⟩ := h
  cases same
  cases there
  obtain ⟨s, kept⟩ := Json.Source.Fields.exists_of_optional found
  exact Json.Source.canonicalB_of_keep kept

/-- The document of a request in an envelope that was read is free. -/
theorem AdmissionReview.canonicalB_object {s : Json.Source} {review : AdmissionReview}
    {wire : ReviewRequest} {document : Json} (h : decode s = some review)
    (given : review.request = some wire) (there : wire.object = some document) :
    document.canonicalB = true := by
  unfold decode at h
  simp only [Option.bind_eq_bind, Option.bind_eq_some_iff] at h
  obtain ⟨fs, -, _, -, _, -, request, found, _, -, same⟩ := h
  cases same
  cases given
  obtain ⟨s, read⟩ := Json.Source.Fields.exists_of_optional found
  exact ReviewRequest.canonicalB_object read there

end AppAdmission
