import AppAdmission.Proofs.Patch.Standard

/-!
# Where pointers lead

Any row of names has a pointer, which is read as exactly these names: the empty row and the row of one
empty name stay apart, and names that look like escapes come back as they are. An operation at the pointer
acts on the parent that all names but the last lead to, under the last one, and puts back what it makes of
it. The other way round, text that is read as names is the pointer of these names if and only if each of
its tildes has a zero or a one behind it.
-/

namespace AppAdmission

namespace Pointer

/-- Each tilde has a zero or a one behind it. -/
def TildesEscape (path : String) : Prop :=
  ∀ front back, path.toList = front ++ '~' :: back → back.head? ∈ [some '0', some '1']

theorem Escaped.head?_of_tilde {cs : List Char} (h : Escaped cs) :
    ∀ front back, cs = front ++ '~' :: back → back.head? ∈ [some '0', some '1'] := by
  have plain {d : Char} {rest : List Char} (other : d ≠ '~')
      (ih : ∀ front back, rest = front ++ '~' :: back → back.head? ∈ [some '0', some '1']) :
      ∀ front back, d :: rest = front ++ '~' :: back → back.head? ∈ [some '0', some '1'] := by
    intro front back whole
    cases front with
    | nil => exact absurd (List.cons.inj whole).1 other
    | cons _ front => exact ih front back (List.cons.inj whole).2
  -- The character behind a tilde is no tilde, so the next tilde lies behind the escape.
  have escape {d : Char} {rest : List Char} (digit : some d ∈ [some '0', some '1']) (other : d ≠ '~')
      (ih : ∀ front back, rest = front ++ '~' :: back → back.head? ∈ [some '0', some '1']) :
      ∀ front back, '~' :: d :: rest = front ++ '~' :: back → back.head? ∈ [some '0', some '1'] := by
    intro front back whole
    cases front with
    | nil =>
      obtain ⟨-, rfl⟩ := List.cons.inj whole
      exact digit
    | cons _ front => exact plain other ih front back (List.cons.inj whole).2
  induction h with
  | nil =>
    intro front back whole
    simp at whole
  | zero _ ih => exact escape (by decide) (by decide) ih
  | one _ ih => exact escape (by decide) (by decide) ih
  | plain other _ ih => exact plain other ih

theorem escaped_of_head? {cs : List Char}
    (h : ∀ front back, cs = front ++ '~' :: back → back.head? ∈ [some '0', some '1']) : Escaped cs := by
  induction cs with
  | nil => exact .nil
  | cons c rest ih =>
    have others := ih fun front back whole => h (c :: front) back (by rw [whole, List.cons_append])
    by_cases tilde : c = '~'
    · subst tilde
      have behind := h [] rest rfl
      cases others with
      | nil | zero _ | one _ => simp at behind
      | @plain d rest _ escaped =>
        simp only [List.head?_cons, List.mem_cons, Option.some.injEq, List.not_mem_nil, or_false]
          at behind
        rcases behind with rfl | rfl
        · exact .zero escaped
        · exact .one escaped
    · exact .plain tilde others

theorem escaped_iff {path : String} : Escaped path.toList ↔ TildesEscape path :=
  ⟨Escaped.head?_of_tilde, escaped_of_head?⟩

/-- Text that is read as names begins with a slash, if it is not empty. -/
theorem begins_of_tokens? {path : String} {tokens : List String} (read : tokens? path = some tokens) :
    path.toList.head? ∈ [none, some '/'] := by
  unfold tokens? at read
  split at read
  · next empty => simp [empty]
  · next rest whole => simp [whole]
  · cases read

/-- A text is the pointer of the names that are read from it if its tildes are escapes. -/
theorem ofTokens_eq_iff {path : String} {tokens : List String} (read : tokens? path = some tokens) :
    ofTokens tokens = path ↔ TildesEscape path := by
  rw [← escaped_iff]
  constructor
  · rintro rfl
    exact (wellFormed_ofTokens tokens).escaped
  · intro escaped
    obtain ⟨tokens', named⟩ := wellFormed_iff.1 ⟨begins_of_tokens? read, escaped⟩
    have same : tokens? path = some tokens' := named ▸ tokens?_ofTokens tokens'
    obtain rfl := Option.some.inj (read.symm.trans same)
    exact named

end Pointer

namespace Patch.Operation

open Pointer (index?)

/-- What the operation makes of a document at the location that some names lead to: at the root it leaves
its value, below a parent it acts on the parent under the last name, and the document around the parent
stays. -/
inductive ActsAt (op : Operation) (doc : Json) : List String → Json → Prop where
  | root {result : Json} : op.value? = some result → op.ActsAt doc [] result
  | below {p : List String} {last : String} {parent parent' : Json} :
    doc.reach? index? p = some parent → op.onParent last parent = .ok parent' →
      op.ActsAt doc (p ++ [last]) (doc.rebuild index? p parent')

theorem actsAt_nil_iff {op : Operation} {doc result : Json} :
    op.ActsAt doc [] result ↔ op.value? = some result := by
  constructor
  · intro acts
    generalize whole : ([] : List String) = tokens at acts
    cases acts with
    | root carried => exact carried
    | below _ _ => simp at whole
  · exact .root

theorem actsAt_concat_iff {op : Operation} {doc result : Json} {p : List String} {last : String} :
    op.ActsAt doc (p ++ [last]) result ↔ ∃ parent parent', doc.reach? index? p = some parent ∧
      op.onParent last parent = .ok parent' ∧ result = doc.rebuild index? p parent' := by
  constructor
  · intro acts
    generalize whole : p ++ [last] = tokens at acts
    cases acts with
    | root _ => simp at whole
    | below found acted =>
      obtain ⟨rfl, rfl⟩ := List.append_singleton_inj.1 whole
      exact ⟨_, _, found, acted, rfl⟩
  · rintro ⟨parent, parent', found, acted, rfl⟩
    exact .below found acted

theorem within_eq_ok_iff {op : Operation} {tokens : List String} {doc result : Json} :
    op.within tokens doc = .ok result ↔ op.ActsAt doc tokens result := by
  rcases List.eq_nil_or_concat tokens with rfl | ⟨p, last, rfl⟩
  · rw [within, onRoot_ok_iff, actsAt_nil_iff]
  · rw [List.concat_eq_append, within_ok_iff, actsAt_concat_iff]

end Patch.Operation

namespace Pointer

open Patch (Operation)

/-- **Pointers encode rows of names faithfully.** The pointer of any names is read as these names, and an
operation at it acts at the location they lead to; and text that is read as names is their pointer if and
only if its tildes are escapes. -/
theorem tokens?_faithful :
    (∀ tokens, tokens? (ofTokens tokens) = some tokens) ∧
    (∀ (op : Operation) (tokens : List String), op.path = ofTokens tokens → ∀ doc result,
      op.apply doc = .ok result ↔ op.ActsAt doc tokens result) ∧
    ∀ path tokens, tokens? path = some tokens → (ofTokens tokens = path ↔ TildesEscape path) := by
  refine ⟨tokens?_ofTokens, ?_, fun path tokens => ofTokens_eq_iff⟩
  intro op tokens named doc result
  have ran : op.apply doc = op.within tokens doc := by
    rw [Operation.apply, named, tokens?_ofTokens]
  rw [ran, Operation.within_eq_ok_iff]

/-- The first pointer has an empty name and names that look like escapes; the second text is read as
names and is not their pointer, since its last tilde stands for itself. -/
theorem tokens?_faithful_sample :
    tokens? (ofTokens ["", "~1", "a/b~0"]) = some ["", "~1", "a/b~0"] ∧
    (Operation.remove "//~01/a~1b~00").path = ofTokens ["", "~1", "a/b~0"] ∧
    (∀ doc result, (Operation.remove "//~01/a~1b~00").apply doc = .ok result ↔
      (Operation.remove "//~01/a~1b~00").ActsAt doc ["", "~1", "a/b~0"] result) ∧
    tokens? "/a~2" = some ["a~2"] ∧ (ofTokens ["a~2"] = "/a~2" ↔ TildesEscape "/a~2") := by
  obtain ⟨back, acts, only⟩ := tokens?_faithful
  have named : (Operation.remove "//~01/a~1b~00").path = ofTokens ["", "~1", "a/b~0"] := by decide
  have read : tokens? "/a~2" = some ["a~2"] := by decide
  exact ⟨back _, named, acts _ _ named, read, only _ _ read⟩

end Pointer

end AppAdmission
