import Mathlib.Order.Defs.LinearOrder
import AppAdmission.Version.Basic

/-!
# The order of versions

Every comparison of parts of versions is one of keys in lexicographic order: first whether an identifier
is a number, then how large it is, then how it is spelled. The order of versions is therefore transitive
and total. Without the build metadata it is the precedence of versions, in which two versions are equal
exactly if their numbers and pre-releases are; the build metadata decides within one precedence only.
-/

namespace AppAdmission.Version

open Std (TransCmp OrientedCmp LawfulEqCmp)

/-- Numbers come before other identifiers. -/
def rank (id : List Char) : Nat := if numericB id then 0 else 1

/-- The length of a number, leading zeros included. -/
def width (id : List Char) : Nat := if numericB id then id.length else 0

/-- The length of a number without leading zeros. -/
def magnitude (id : List Char) : Nat := if numericB id then (significant id).length else 0

/-- The spelling of an identifier, of a number without leading zeros. -/
def spelling (id : List Char) : List Char := if numericB id then significant id else id

/-- No pre-release comes after all others. -/
def finality (ids : List (List Char)) : Nat := if ids.isEmpty then 1 else 0

theorem compareLists_eq (item : List Char → List Char → Ordering) :
    compareLists item = List.compareLex item := by
  funext a b
  induction a generalizing b with
  | nil => cases b <;> rfl
  | cons x xs ih =>
    cases b with
    | nil => rfl
    | cons y ys => rw [compareLists, List.compareLex_cons_cons, ih]

theorem compareChars_eq : compareChars = List.compareLex (compareOn Char.toNat) := by
  funext a b
  induction a generalizing b with
  | nil => cases b <;> rfl
  | cons x xs ih =>
    cases b with
    | nil => rfl
    | cons y ys => rw [compareChars, List.compareLex_cons_cons, ih, compareOn]

theorem compare_zero_one : compare 0 1 = Ordering.lt := rfl

theorem compare_one_zero : compare 1 0 = Ordering.gt := rfl

/-- Identifiers of pre-releases by their keys. -/
theorem comparePreItem_eq :
    comparePreItem = compareLex (compareOn rank) (compareLex (compareOn width) compareChars) := by
  funext a b
  cases ha : numericB a <;> cases hb : numericB b <;>
    simp [comparePreItem, compareLex, compareOn, rank, width, ha, hb, compare_zero_one,
      compare_one_zero]

/-- Identifiers of build metadata by their keys. -/
theorem compareBuildItem_eq : compareBuildItem =
    compareLex (compareOn rank) (compareLex (compareOn magnitude)
      (compareLex (fun a b => compareChars (spelling a) (spelling b)) (compareOn width))) := by
  funext a b
  cases ha : numericB a <;> cases hb : numericB b <;>
    simp [compareBuildItem, compareLex, compareOn, rank, width, magnitude, spelling, ha, hb,
      compare_zero_one, compare_one_zero, Ordering.then_assoc]

theorem comparePre_eq :
    comparePre = compareLex (compareOn finality) (compareLists comparePreItem) := by
  funext a b
  cases a <;> cases b <;> simp [comparePre, compareLex, compareOn, finality, compareLists,
    compare_zero_one, compare_one_zero]

/-- Keys that are compared in a transitive order give one. -/
theorem transCmp_on {α β : Type} (cmp : β → β → Ordering) [TransCmp cmp] (key : α → β) :
    TransCmp fun a b => cmp (key a) (key b) where
  eq_swap := OrientedCmp.eq_swap
  isLE_trans := TransCmp.isLE_trans

instance : TransCmp compareChars := by
  rw [compareChars_eq]
  infer_instance

instance : TransCmp comparePreItem := by
  rw [comparePreItem_eq]
  infer_instance

instance : TransCmp compareBuildItem := by
  have := transCmp_on compareChars spelling
  rw [compareBuildItem_eq]
  infer_instance

instance : TransCmp comparePre := by
  rw [comparePre_eq, compareLists_eq]
  infer_instance

instance : TransCmp compareBuild := by
  have same : compareBuild = List.compareLex compareBuildItem := compareLists_eq compareBuildItem
  rw [same]
  infer_instance

/-- Which of two versions comes first by their numbers and pre-releases. -/
def precedence (a b : Version) : Ordering :=
  (compare a.major b.major).then <|
    (compare a.minor b.minor).then <|
      (compare a.patch b.patch).then (comparePre a.pre b.pre)

instance : TransCmp precedence := by
  have pre := transCmp_on comparePre Version.pre
  have same : precedence = compareLex (compareOn major) (compareLex (compareOn minor)
      (compareLex (compareOn patch) fun a b => comparePre a.pre b.pre)) := rfl
  rw [same]
  infer_instance

/-- The build metadata decides within one precedence. -/
theorem cmp_eq (a b : Version) : a.cmp b = (a.precedence b).then (compareBuild a.build b.build) := by
  simp only [cmp, precedence, Ordering.then_assoc]

/-- The order of versions is transitive and total. -/
instance : TransCmp cmp := by
  have build := transCmp_on compareBuild Version.build
  have same : cmp = compareLex precedence fun a b => compareBuild a.build b.build := by
    funext a b
    exact cmp_eq a b
  rw [same]
  infer_instance

/-- What is not before a version that is not before a third is not before it either. -/
theorem ltB_eq_false_of_later {v v' cutoff : Version} (recent : v.ltB cutoff = false)
    (later : v'.cmp v ≠ .lt) : v'.ltB cutoff = false := by
  have notBefore {a b : Version} : (a.cmp b).isGE = true ↔ a.cmp b ≠ .lt := by
    cases a.cmp b <;> simp [Ordering.isGE]
  have recent' : v.cmp cutoff ≠ .lt := by simpa [ltB] using recent
  have both := notBefore.1 (TransCmp.isGE_trans (notBefore.2 later) (notBefore.2 recent'))
  simpa [ltB] using both

instance : LawfulEqCmp compareChars := by
  have char : LawfulEqCmp (compareOn Char.toNat) :=
    { compare_self := Nat.compare_eq_eq.2 rfl
      eq_of_compare := fun h => Char.toNat_inj.1 (Nat.compare_eq_eq.1 h) }
  rw [compareChars_eq]
  infer_instance

instance : LawfulEqCmp comparePreItem where
  compare_self := Std.ReflCmp.compare_self
  eq_of_compare {a b} h := by
    -- the spelling is the last of the keys, and it is all of the identifier
    rw [comparePreItem_eq] at h
    have keys := Ordering.then_eq_eq.1 h
    exact LawfulEqCmp.eq_of_compare (Ordering.then_eq_eq.1 keys.2).2

/-- Pre-releases that are neither before nor after each other are the same. -/
theorem comparePre_eq_eq_iff {a b : List (List Char)} : comparePre a b = .eq ↔ a = b := by
  rw [comparePre_eq, compareLists_eq]
  constructor
  · intro h
    exact LawfulEqCmp.eq_of_compare (Ordering.then_eq_eq.1 h).2
  · rintro rfl
    exact Std.ReflCmp.compare_self

/-- The same numbers and the same pre-release. -/
structure SamePrecedence (a b : Version) : Prop where
  major : a.major = b.major
  minor : a.minor = b.minor
  patch : a.patch = b.patch
  pre : a.pre = b.pre

theorem precedence_eq_eq_iff {a b : Version} : a.precedence b = .eq ↔ a.SamePrecedence b := by
  simp only [precedence, Ordering.then_eq_eq, Nat.compare_eq_eq, comparePre_eq_eq_iff]
  constructor
  · rintro ⟨major, minor, patch, pre⟩
    exact ⟨major, minor, patch, pre⟩
  · intro same
    exact ⟨same.major, same.minor, same.patch, same.pre⟩

/-- Versions of one precedence compare alike with others. -/
theorem SamePrecedence.precedence_eq {a b : Version} (same : a.SamePrecedence b) (c : Version) :
    a.precedence c = b.precedence c := by
  unfold precedence
  rw [same.major, same.minor, same.patch, same.pre]

/-- A version is before another if its precedence is, or within one precedence its build metadata. -/
theorem ltB_iff {a b : Version} : a.ltB b = true ↔
    a.precedence b = .lt ∨ a.SamePrecedence b ∧ compareBuild a.build b.build = .lt := by
  rw [ltB, beq_iff_eq, cmp_eq, Ordering.then_eq_lt, precedence_eq_eq_iff]

/-- Versions of one precedence are on the same side of a third exactly if this has another precedence or
their build metadata is on the same side of its own. -/
theorem SamePrecedence.ltB_iff_ltB_iff {a b : Version} (same : a.SamePrecedence b) (c : Version) :
    (a.ltB c = true ↔ b.ltB c = true) ↔ (a.SamePrecedence c →
      (compareBuild a.build c.build = .lt ↔ compareBuild b.build c.build = .lt)) := by
  have alike : b.SamePrecedence c ↔ a.SamePrecedence c := by
    rw [← precedence_eq_eq_iff, ← precedence_eq_eq_iff, same.precedence_eq]
  rw [ltB_iff, ltB_iff, ← same.precedence_eq, alike]
  by_cases level : a.SamePrecedence c
  · have notBefore : a.precedence c ≠ .lt := by
      rw [precedence_eq_eq_iff.2 level]
      decide
    simp [level, notBefore]
  · simp [level]

/-- Nothing comes before no build metadata. -/
theorem compareBuild_nil_ne_lt (build : List (List Char)) : compareBuild build [] ≠ .lt := by
  cases build <;> simp [compareBuild, compareLists]

end AppAdmission.Version
