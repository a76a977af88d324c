import Mathlib.Data.List.TakeWhile
import AppAdmission.Json.Number

/-!
# Reading integers back

The decimal digits of a natural number denote it and do not begin with a needless zero, so that the
text of an integer of 64 bits, signed or unsigned, is read as that integer.
-/

namespace AppAdmission.Number

open Text

theorem isDigit_eq (c : Char) : isDigit c = c.isDigit := by
  unfold isDigit Char.isDigit
  rfl

theorem isDigit_of_mem_toDigits {n : Nat} {c : Char} (h : c ∈ Nat.toDigits 10 n) :
    isDigit c = true := by
  rw [isDigit_eq]
  exact Nat.isDigit_of_mem_toDigits (by decide) (by decide) h

theorem decimalValue_toDigits (n : Nat) : decimalValue (Nat.toDigits 10 n) = n := by
  have h : decimalValue (Nat.toDigits 10 n) = Nat.ofDigitChars 10 (Nat.toDigits 10 n) 0 :=
    (Nat.ofDigitChars_eq_foldl).symm
  rw [h, Nat.ofDigitChars_ten_toDigits]

/-- The digits of a number do not begin with zero, unless the number is zero. -/
theorem head_toDigits {n : Nat} (h : 0 < n) :
    ∃ d ds, Nat.toDigits 10 n = d :: ds ∧ d ≠ '0' := by
  induction n using Nat.strongRecOn with
  | ind n ih =>
    rw [Nat.toDigits_eq_if (by decide)]
    split
    · next small =>
      refine ⟨_, [], rfl, ?_⟩
      rw [ne_eq, Nat.digitChar_eq_zero]
      omega
    · next large =>
      obtain ⟨d, ds, he, hd⟩ := ih (n / 10) (by omega) (by omega)
      rw [he]
      exact ⟨d, _, rfl, hd⟩

theorem digits?_toDigits (n : Nat) : digits? (Nat.toDigits 10 n) = some (Nat.toDigits 10 n, []) := by
  have whole : (Nat.toDigits 10 n).takeWhile isDigit = Nat.toDigits 10 n :=
    List.takeWhile_eq_self_iff.2 fun c hc => isDigit_of_mem_toDigits hc
  have rest : (Nat.toDigits 10 n).dropWhile isDigit = [] :=
    List.dropWhile_eq_nil_iff.2 fun c hc => isDigit_of_mem_toDigits hc
  unfold digits?
  rw [whole, rest]
  cases h : Nat.toDigits 10 n with
  | nil => exact absurd h Nat.toDigits_ne_nil
  | cons d ds => rfl

theorem whole?_toDigits (n : Nat) : whole? (Nat.toDigits 10 n) = some (Nat.toDigits 10 n, []) := by
  unfold whole?
  rw [digits?_toDigits]
  rcases Nat.eq_zero_or_pos n with rfl | h
  · rfl
  · obtain ⟨d, ds, he, hd⟩ := head_toDigits h
    rw [he]
    split
    · next e => exact absurd (by simpa using congrArg (fun r => r.map (·.1.head?)) e) (by simp [hd])
    · rfl

/-- The text of an integer: its digits, after a sign if it is negative. -/
theorem render_int (k : Int) :
    render (.int k) = if k < 0 then '-' :: Nat.toDigits 10 k.natAbs else Nat.toDigits 10 k.natAbs := by
  show (toString k).toList = _
  rw [Int.toString_eq_repr, Int.repr_eq_if]
  rcases Int.lt_or_le k 0 with neg | pos
  · have hn : (-k).toNat = k.natAbs := by omega
    rw [if_neg (by omega), if_pos neg, String.toList_append, Nat.toList_repr, hn]
    rfl
  · have hn : k.toNat = k.natAbs := by omega
    rw [if_pos pos, if_neg (by omega), Nat.toList_repr, hn]

/-- Digits alone are the parts of a natural number. -/
theorem parts?_toDigits (n : Nat) :
    parts? (Nat.toDigits 10 n) = some ⟨false, Nat.toDigits 10 n, [], none⟩ := by
  have digit : ∀ c ∈ Nat.toDigits 10 n, isDigit c = true := fun c hc => isDigit_of_mem_toDigits hc
  have read := whole?_toDigits n
  cases h : Nat.toDigits 10 n with
  | nil => exact absurd h Nat.toDigits_ne_nil
  | cons d ds =>
    rw [h] at read digit
    have unsigned : d ≠ '-' := by
      rintro rfl
      exact absurd (digit '-' List.mem_cons_self) (by decide)
    simp [parts?, unsigned, read, fraction?, exponent?]

theorem parts?_neg_toDigits (n : Nat) :
    parts? ('-' :: Nat.toDigits 10 n) = some ⟨true, Nat.toDigits 10 n, [], none⟩ := by
  unfold parts?
  simp only
  rw [Option.bind_eq_bind, whole?_toDigits]
  rfl

/-- The text of an integer of 64 bits is read as the integer. -/
theorem read_render_int {k : Int} (h : fitsB k = true) : read (render (.int k)) = some (some (.int k)) := by
  unfold fitsB at h
  simp only [Bool.and_eq_true, decide_eq_true_eq] at h
  unfold read
  rw [render_int]
  split
  · next neg =>
    obtain ⟨n, rfl⟩ : ∃ n : Nat, k = -(n : Int) := ⟨k.natAbs, by omega⟩
    have small : ¬ 0x8000000000000000 < n := by omega
    have word : n ≤ maxWord := by unfold maxWord; omega
    have solid : n ≠ 0 := by omega
    rw [Int.natAbs_neg, Int.natAbs_natCast]
    simp [parts?_neg_toDigits, value, decimalValue_toDigits, small, word, solid]
  · next pos =>
    obtain ⟨n, rfl⟩ : ∃ n : Nat, k = (n : Int) := ⟨k.natAbs, by omega⟩
    have word : n ≤ maxWord := by unfold maxWord; omega
    rw [Int.natAbs_natCast]
    simp [parts?_toDigits, value, decimalValue_toDigits, word]

end AppAdmission.Number
