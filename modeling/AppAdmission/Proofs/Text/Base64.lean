import AppAdmission.Text.Base64

/-!
# Base64 that was written

Every letter stands for its value and none is a padding sign, so the bytes that were written are read
back group by group. The spare bits of the last group are written as zeros, as its reader asks.
-/

namespace AppAdmission.Base64

theorem letter_of_lt : ∀ n < 64, value? (letter n) = some n ∧ letter n ≠ '=' := by
  decide

theorem value?_letter {n : Nat} (h : n < 64) : value? (letter n) = some n :=
  (letter_of_lt n h).1

theorem letter_ne_padding {n : Nat} (h : n < 64) : letter n ≠ '=' :=
  (letter_of_lt n h).2

/-- One byte is read from two letters. -/
theorem last1?_letters (a : UInt8) : last1? (letter (a.toNat / 4)) (letter (a.toNat % 4 * 16)) = some [a] := by
  have range : a.toNat < 256 := a.toNat_lt
  have whole : a.toNat / 4 * 4 + a.toNat % 4 * 16 / 16 = a.toNat := by omega
  have spare : a.toNat % 4 * 16 % 16 = 0 := by omega
  unfold last1?
  rw [value?_letter (by omega), value?_letter (by omega)]
  simp only [Option.bind_eq_bind, Option.bind_some, spare, if_true, whole, UInt8.ofNat_toNat]

/-- Two bytes are read from three letters. -/
theorem last2?_letters (a b : UInt8) : last2? (letter (a.toNat / 4))
    (letter (a.toNat % 4 * 16 + b.toNat / 16)) (letter (b.toNat % 16 * 4)) = some [a, b] := by
  have range : a.toNat < 256 := a.toNat_lt
  have range' : b.toNat < 256 := b.toNat_lt
  have first : a.toNat / 4 * 4 + (a.toNat % 4 * 16 + b.toNat / 16) / 16 = a.toNat := by omega
  have second : (a.toNat % 4 * 16 + b.toNat / 16) % 16 * 16 + b.toNat % 16 * 4 / 4 = b.toNat := by
    omega
  have spare : b.toNat % 16 * 4 % 4 = 0 := by omega
  unfold last2?
  rw [value?_letter (by omega), value?_letter (by omega), value?_letter (by omega)]
  simp only [Option.bind_eq_bind, Option.bind_some, spare, if_true, first, second, UInt8.ofNat_toNat]

/-- Three bytes are four values. -/
theorem group_values (a b c : UInt8) : group (a.toNat / 4) (a.toNat % 4 * 16 + b.toNat / 16)
    (b.toNat % 16 * 4 + c.toNat / 64) (c.toNat % 64) = [a, b, c] := by
  have range : a.toNat < 256 := a.toNat_lt
  have range' : b.toNat < 256 := b.toNat_lt
  have range'' : c.toNat < 256 := c.toNat_lt
  have first : a.toNat / 4 * 4 + (a.toNat % 4 * 16 + b.toNat / 16) / 16 = a.toNat := by omega
  have second : (a.toNat % 4 * 16 + b.toNat / 16) % 16 * 16 + (b.toNat % 16 * 4 + c.toNat / 64) / 4 =
      b.toNat := by omega
  have third : (b.toNat % 16 * 4 + c.toNat / 64) % 4 * 64 + c.toNat % 64 = c.toNat := by omega
  simp only [group, first, second, third, UInt8.ofNat_toNat]

/-- A group that does not end in a padding sign is a group of four values. -/
theorem decode?_group {w x y z : Char} (full : z ≠ '=') (rest : List Char) :
    decode? (w :: x :: y :: z :: rest) = (do
      let w ← value? w
      let x ← value? x
      let y ← value? y
      let z ← value? z
      let tail ← decode? rest
      return group w x y z ++ tail) := by
  rw [decode?]
  · intro _ same _
    exact full same
  · intro same _
    exact full same

/-- What was written is read back. -/
theorem decode?_encode (bytes : List UInt8) : decode? (encode bytes) = some bytes := by
  fun_induction encode bytes with
  | case1 => rfl
  | case2 a => exact last1?_letters a
  | case3 a b =>
    rw [decode?]
    · exact last2?_letters a b
    · intro same
      have range : b.toNat < 256 := b.toNat_lt
      exact absurd same (letter_ne_padding (by omega))
  | case4 a b c rest ih =>
    have range : a.toNat < 256 := a.toNat_lt
    have range' : b.toNat < 256 := b.toNat_lt
    have range'' : c.toNat < 256 := c.toNat_lt
    rw [decode?_group (letter_ne_padding (by omega)), value?_letter (by omega), value?_letter (by omega),
      value?_letter (by omega), value?_letter (by omega), ih]
    simp only [Option.bind_eq_bind, Option.bind_some, group_values]
    rfl

end AppAdmission.Base64
