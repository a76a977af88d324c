import Mathlib.Data.List.TakeWhile
import AppAdmission.Text.Blank

/-!
# White space around a text

White space that is put around a text is cut off again with the white space of the text itself, a text that
has none at its ends stays as it is, and nothing else is ever cut off.
-/

namespace AppAdmission.Text

variable {pad pad' cs : List Char}

theorem trimLeft_append (blank : ∀ c ∈ pad, isBlank c = true) : trimLeft (pad ++ cs) = trimLeft cs :=
  List.dropWhile_append_of_pos blank

theorem trimRight_append (blank : ∀ c ∈ pad, isBlank c = true) : trimRight (cs ++ pad) = trimRight cs := by
  have mirrored : ∀ c ∈ pad.reverse, isBlank c = true := fun c there => blank c (List.mem_reverse.1 there)
  unfold trimRight
  rw [List.reverse_append, List.dropWhile_append_of_pos mirrored]

/-- White space around a text does not matter. -/
theorem trim_surrounded (blank : ∀ c ∈ pad, isBlank c = true) (blank' : ∀ c ∈ pad', isBlank c = true) :
    trim (pad ++ cs ++ pad') = trim cs := by
  unfold trim
  rw [List.append_assoc, trimLeft_append blank]
  by_cases all : trimLeft cs = []
  · have nothing : trimLeft (cs ++ pad') = [] := by
      unfold trimLeft at all ⊢
      rw [List.dropWhile_append, all]
      exact List.dropWhile_eq_nil_iff.2 blank'
    rw [nothing, all]
  · have solid : trimLeft (cs ++ pad') = trimLeft cs ++ pad' := by
      unfold trimLeft at all ⊢
      rw [List.dropWhile_append, if_neg (by simpa using all)]
    rw [solid, trimRight_append blank']

/-- A text without white space stays as it is. -/
theorem trim_of_solid (solid : ∀ c ∈ cs, isBlank c = false) : trim cs = cs := by
  have none {cs : List Char} (solid : ∀ c ∈ cs, isBlank c = false) : cs.dropWhile isBlank = cs := by
    cases cs with
    | nil => rfl
    | cons c rest => exact trimLeft_solid (solid c List.mem_cons_self)
  have mirrored : cs.reverse.dropWhile isBlank = cs.reverse :=
    none fun c there => solid c (List.mem_reverse.1 there)
  rw [trim, trimLeft, none solid, trimRight, mirrored, List.reverse_reverse]

theorem trimRight_cons {c : Char} (solid : isBlank c = false) : trimRight (c :: cs) = c :: trimRight cs := by
  have stop : [c].dropWhile isBlank = [c] := trimLeft_solid solid
  unfold trimRight
  rw [List.reverse_cons, List.dropWhile_append]
  split
  · next all => rw [stop, List.isEmpty_iff.1 all]; rfl
  · simp

/-- A text with no white space at its ends keeps its end. -/
theorem trimRight_of_trim (trimmed : trim cs = cs) : trimRight cs = cs := by
  have shorter : (trimRight (trimLeft cs)).length ≤ (trimLeft cs).length := by
    unfold trimRight
    rw [List.length_reverse]
    exact (List.dropWhile_suffix _).length_le.trans_eq List.length_reverse
  rw [← trim, trimmed] at shorter
  have start : trimLeft cs = cs := (List.dropWhile_suffix isBlank).eq_of_length_le shorter
  rw [trim, start] at trimmed
  exact trimmed

/-- In front of such a text one may put a character that is no white space. -/
theorem trim_cons {c : Char} (solid : isBlank c = false) (trimmed : trim cs = cs) :
    trim (c :: cs) = c :: cs := by
  rw [trim, trimLeft_solid solid, trimRight_cons solid, trimRight_of_trim trimmed]

/-- What is cut off a text is white space. -/
theorem exists_trim (cs : List Char) : ∃ pad pad', cs = pad ++ trim cs ++ pad' ∧
    (∀ c ∈ pad, isBlank c = true) ∧ ∀ c ∈ pad', isBlank c = true := by
  have left : cs.takeWhile isBlank ++ trimLeft cs = cs := List.takeWhile_append_dropWhile
  have right : trimRight (trimLeft cs) ++ ((trimLeft cs).reverse.takeWhile isBlank).reverse = trimLeft cs := by
    rw [trimRight, ← List.reverse_append, List.takeWhile_append_dropWhile, List.reverse_reverse]
  refine ⟨cs.takeWhile isBlank, ((trimLeft cs).reverse.takeWhile isBlank).reverse, ?_, ?_, ?_⟩
  · rw [List.append_assoc, trim, right, left]
  · exact fun c there => List.mem_takeWhile_imp there
  · exact fun c there => List.mem_takeWhile_imp (List.mem_reverse.1 there)

theorem lowerAscii_of_isBlank {c : Char} (blank : isBlank c = true) : lowerAscii c = c := by
  refine if_neg fun upper => ?_
  simp only [Bool.and_eq_true, decide_eq_true_eq, Char.le_def, UInt32.le_iff_toNat_le] at upper
  have low : 65 ≤ c.toNat := upper.1
  have high : c.toNat ≤ 90 := upper.2
  unfold isBlank at blank
  simp only [Bool.or_eq_true, Bool.and_eq_true, decide_eq_true_eq, beq_iff_eq] at blank
  omega

end AppAdmission.Text
