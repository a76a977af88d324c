import Mathlib.Algebra.BigOperators.Group.List.Basic
import Mathlib.Algebra.Ring.Nat
import AppAdmission.Proofs.Instant
import AppAdmission.Proofs.Server.Timeout
import AppAdmission.Proofs.Text.Blank

/-!
# The grammar of timeouts

The texts of timeouts are the rows of parts, with white space around them, and what is read of a row is
the exact sum of its parts as long as it fits. Rows may be put one behind the other, and the order of the
parts does not matter.
-/

namespace AppAdmission.Timeout

open Text

/-- The length of a unit in milliseconds. -/
def Measure.millis : Measure → Nat
  | milli => 1
  | second => 1000
  | minute => 60 * 1000
  | hour => 3600 * 1000

/-- The length of a part in milliseconds. -/
def Part.millis (p : Part) : Nat := decimalValue p.digits * p.measure.millis

/-- The sum of parts in milliseconds. -/
def millis (ps : List Part) : Nat := (ps.map Part.millis).sum

theorem Part.nanos_eq (p : Part) : p.nanos = 1000000 * p.millis := by
  have unit : p.measure.nanos = 1000000 * p.measure.millis := by cases p.measure <;> rfl
  unfold nanos millis
  rw [unit, Nat.mul_left_comm]

/-- Every part is a whole number of milliseconds. -/
theorem total_eq (ps : List Part) : total ps = 1000000 * millis ps := by
  induction ps with
  | nil => rfl
  | cons p ps ih =>
    have whole : millis (p :: ps) = p.millis + millis ps := rfl
    rw [total, ih, p.nanos_eq, whole, Nat.mul_add]

theorem total_append (ps qs : List Part) : total (ps ++ qs) = total ps + total qs := by
  simp only [total_eq, millis, List.map_append, List.sum_append, Nat.mul_add]

theorem total_perm {ps qs : List Part} (reordered : ps.Perm qs) : total ps = total qs := by
  rw [total_eq, total_eq, millis, millis, (reordered.map Part.millis).sum_eq]

theorem texts_append (ps qs : List Part) : texts (ps ++ qs) = texts ps ++ texts qs :=
  List.flatMap_append

theorem texts_eq_nil_iff {ps : List Part} : texts ps = [] ↔ ps = [] := by
  cases ps with
  | nil => simp [texts]
  | cons p ps => simp [texts, Part.text, p.given]

/-- The text of a row of parts is made of digits and units. -/
theorem isBlank_of_mem_texts {ps : List Part} : ∀ c ∈ texts ps, isBlank c = false := by
  intro c there
  obtain ⟨p, -, own⟩ := List.mem_flatMap.1 there
  rcases List.mem_append.1 own with digit | unit
  · exact Instant.isBlank_of_isDigit (p.decimal c digit)
  · have all : p.measure.text.all (!isBlank ·) = true := by cases p.measure <;> rfl
    simpa using List.all_eq_true.1 all c unit

theorem trim_texts (ps : List Part) : trim (texts ps) = texts ps := trim_of_solid isBlank_of_mem_texts

theorem ends_nil : Ends [] := fun c there => absurd there (Option.not_mem_none c)

/-- A row of parts is read as its sum, if that fits. -/
theorem readParts_texts {fuel sum : Nat} {ps : List Part} (enough : (texts ps).length ≤ fuel)
    (fits : sum < wordBound * second) : readParts fuel sum (texts ps) =
      if sum + total ps < wordBound * second then .duration (sum + total ps) else .overflow := by
  by_cases whole : sum + total ps < wordBound * second
  · rw [if_pos whole]
    induction ps generalizing fuel sum with
    | nil => cases fuel <;> rfl
    | cons p ps ih =>
      have split : texts (p :: ps) = p.text ++ texts ps := rfl
      have long := length_text p
      rw [split, List.length_append] at enough
      obtain ⟨fuel, rfl⟩ : ∃ n, fuel = n + 1 := ⟨fuel - 1, by omega⟩
      rw [total] at whole ⊢
      have first : sum + p.nanos < wordBound * second := by omega
      have ends : Ends (texts ps) := by simpa using ends_texts ps ends_nil
      rw [split, readParts_text fuel sum p ends, if_pos first, ih (by omega) first (by omega),
        Nat.add_assoc]
  · rw [if_neg whole]
    exact readParts_of_exceeds enough (List.append_nil _).symm ends_nil fits (Nat.le_of_not_lt whole)

/-- What is read as a duration is a row of parts. -/
theorem exists_of_duration {fuel sum d : Nat} {cs : List Char}
    (read : readParts fuel sum cs = .duration d) : ∃ ps, cs = texts ps := by
  induction fuel generalizing sum cs with
  | zero =>
    cases cs with
    | nil => exact ⟨[], rfl⟩
    | cons => cases read
  | succ fuel ih =>
    by_cases finished : cs = []
    · exact ⟨[], finished⟩
    · obtain ⟨p, rest, rfl, ends⟩ := exists_part finished (by rw [read]; nofun)
      rw [readParts_text fuel sum p ends] at read
      split at read
      · obtain ⟨ps, rfl⟩ := ih read
        exact ⟨p :: ps, rfl⟩
      · cases read

/-- The text, without the white space around it, is a row of parts. -/
def IsRow (raw : String) (ps : List Part) : Prop := ps ≠ [] ∧ trim raw.toList = texts ps

theorem IsRow.parse_eq {raw : String} {ps : List Part} (row : IsRow raw ps) : parse raw =
    if total ps < wordBound * second then .duration (total ps) else .overflow := by
  obtain ⟨some, same⟩ := row
  have more : (texts ps).isEmpty = false := by
    rw [List.isEmpty_eq_false_iff]
    exact mt texts_eq_nil_iff.1 some
  unfold parse
  simp only [same, more, Bool.false_eq_true, if_false]
  rw [readParts_texts (Nat.le_refl _) (by decide), Nat.zero_add]

theorem exists_isRow {raw : String} {d : Nat} (read : parse raw = .duration d) : ∃ ps, IsRow raw ps := by
  unfold parse at read
  simp only at read
  split at read
  · cases read
  · next more =>
    obtain ⟨ps, same⟩ := exists_of_duration read
    refine ⟨ps, ?_, same⟩
    rintro rfl
    exact more (by rw [same]; rfl)

/-- A text is read as a duration exactly if it is a row of parts with a sum that fits. -/
theorem parse_eq_duration_iff {raw : String} {d : Nat} : parse raw = .duration d ↔
    ∃ ps, IsRow raw ps ∧ total ps < wordBound * second ∧ d = total ps := by
  constructor
  · intro read
    obtain ⟨ps, row⟩ := exists_isRow read
    rw [row.parse_eq] at read
    split at read
    · next fits => exact ⟨ps, row, fits, (Reading.duration.inj read).symm⟩
    · cases read
  · rintro ⟨ps, row, fits, rfl⟩
    rw [row.parse_eq, if_pos fits]

theorem IsRow.append {a b : String} {ps qs : List Part} (row : IsRow a ps) (row' : IsRow b qs)
    (bare : trim a.toList = a.toList) (bare' : trim b.toList = b.toList) :
    IsRow (a ++ b) (ps ++ qs) := by
  refine ⟨by simp [row.1], ?_⟩
  rw [String.toList_append, ← bare, ← bare', row.2, row'.2, ← texts_append, trim_texts]

/-- **Timeouts are sums of rows of parts.** Unless the text begins with parts of which the sum is
`2 ^ 64` seconds or more, it is a duration exactly if it is a row of parts with white space around it,
and then it is their exact sum; any other text is no timeout. The sum does not depend on the order of the
parts, and two rows that are put one behind the other make the sum of both, or one too large. -/
theorem parse_sums :
    (∀ raw, ¬Exceeds (trim raw.toList) →
      (∀ d, parse raw = .duration d ↔ ∃ ps, IsRow raw ps ∧ d = 1000000 * millis ps) ∧
      ((¬∃ ps, IsRow raw ps) → parse raw = .notTimeout)) ∧
    (∀ raw raw' ps ps', IsRow raw ps → IsRow raw' ps' → ps.Perm ps' → parse raw = parse raw') ∧
    ∀ a b x y, trim a.toList = a.toList → trim b.toList = b.toList →
      parse a = .duration x → parse b = .duration y →
      parse (a ++ b) = if x + y < wordBound * second then .duration (x + y) else .overflow := by
  refine ⟨fun raw fits => ⟨fun d => ?_, fun other => ?_⟩, ?_, ?_⟩
  · have small {ps : List Part} (row : IsRow raw ps) : total ps < wordBound * second := by
      by_contra large
      exact fits ⟨ps, [], by rw [row.2, List.append_nil], nofun, Nat.le_of_not_lt large⟩
    simp only [parse_eq_duration_iff, ← total_eq]
    constructor
    · rintro ⟨ps, row, -, same⟩
      exact ⟨ps, row, same⟩
    · rintro ⟨ps, row, same⟩
      exact ⟨ps, row, small row, same⟩
  · cases read : parse raw with
    | notTimeout => rfl
    | overflow => exact absurd ((parse_eq_overflow_iff raw).1 read) fits
    | duration d => exact absurd (exists_isRow read) other
  · intro raw raw' ps ps' row row' reordered
    rw [row.parse_eq, row'.parse_eq, total_perm reordered]
  · intro a b x y bare bare' read read'
    obtain ⟨ps, row, -, rfl⟩ := parse_eq_duration_iff.1 read
    obtain ⟨qs, row', -, rfl⟩ := parse_eq_duration_iff.1 read'
    rw [(row.append row' bare bare').parse_eq, total_append]

/-- A minute and a half is the same in either order, also with white space around it, and a minute in
front of it is added. -/
theorem parse_sums_sample :
    ¬Exceeds (trim " 1m30s ".toList) ∧
    (∃ ps, IsRow " 1m30s " ps ∧ 90000000000 = 1000000 * millis ps) ∧
    parse " 1m30s " = parse "30s1m" ∧
    parse ("1m" ++ "1m30s") = .duration 150000000000 := by
  obtain ⟨reads, reorders, joins⟩ := parse_sums
  let minute : Part := ⟨['1'], .minute, nofun, List.all_eq_true.1 rfl, by decide, by decide⟩
  let half : Part := ⟨['3', '0'], .second, nofun, List.all_eq_true.1 rfl, by decide, by decide⟩
  have fits : ¬Exceeds (trim " 1m30s ".toList) := by
    rw [← parse_eq_overflow_iff]
    decide +kernel
  refine ⟨fits, ((reads _ fits).1 _).1 (by decide +kernel), ?_, ?_⟩
  · exact reorders _ _ [minute, half] [half, minute] ⟨nofun, by decide +kernel⟩
      ⟨nofun, by decide +kernel⟩ (List.Perm.swap ..)
  · exact joins "1m" "1m30s" 60000000000 90000000000 (by decide +kernel) (by decide +kernel)
      (by decide +kernel) (by decide +kernel)

end AppAdmission.Timeout
