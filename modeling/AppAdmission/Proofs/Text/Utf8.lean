import Mathlib.Tactic.IntervalCases
import AppAdmission.Text.Utf8

/-!
# Reading UTF-8 back

The bytes of a text are read as its characters. A character of two bytes or more is read in steps:
`run_lead` takes the first byte, which fixes how many are owed and which the next one may be, and
`run_tail` and `run_last` take the others. The ranges leave out exactly what no character is written as.
-/

namespace AppAdmission.Utf8

/-- A byte that is not the first of a character. -/
def tail (n : Nat) : UInt8 := UInt8.ofNat (n % 64 + 128)

theorem toNat_tail (n : Nat) : (tail n).toNat = n % 64 + 128 := by
  unfold tail
  rw [UInt8.toNat_ofNat']
  omega

theorem run_cons (s : State) (b : UInt8) (rest : List UInt8) :
    run s (b :: rest) = (step s b).1 ++ run (step s b).2 rest := rfl

/-- A byte in range when more are owed. -/
theorem run_tail {value read owed n : Nat} {low high : UInt8} {rest : List UInt8}
    (hl : low.toNat ≤ n % 64 + 128) (hh : n % 64 + 128 ≤ high.toNat) (more : 1 < owed) :
    run (.within value read owed low high) (tail n :: rest) =
      run (.within (value * 64 + n % 64) (read + 1) (owed - 1) 0x80 0xBF) rest := by
  have inside : (low ≤ tail n && tail n ≤ high) = true := by
    simp only [UInt8.le_iff_toNat_le, toNat_tail, Bool.and_eq_true, decide_eq_true_eq]
    exact ⟨hl, hh⟩
  have open_ : ¬ owed ≤ 1 := by omega
  simp [run_cons, step, inside, open_, toNat_tail]

/-- The last byte of a character. -/
theorem run_last {value read n : Nat} {low high : UInt8} {rest : List UInt8}
    (hl : low.toNat ≤ n % 64 + 128) (hh : n % 64 + 128 ≤ high.toNat) :
    run (.within value read 1 low high) (tail n :: rest) =
      .char (Char.ofNat (value * 64 + n % 64)) :: run .start rest := by
  have inside : (low ≤ tail n && tail n ≤ high) = true := by
    simp only [UInt8.le_iff_toNat_le, toNat_tail, Bool.and_eq_true, decide_eq_true_eq]
    exact ⟨hl, hh⟩
  simp [run_cons, step, inside, toNat_tail]

/-- The first byte of a longer character. -/
theorem run_lead {b : UInt8} {s : State} {rest : List UInt8} (big : ¬ b < 0x80)
    (h : lead b = some s) : run .start (b :: rest) = run s rest := by
  simp [run_cons, step, first, big, h]

theorem lead_two {n : Nat} (hl : 2 ≤ n) (hh : n < 32) :
    lead (UInt8.ofNat (n + 192)) = some (.within n 1 1 0x80 0xBF) ∧
      ¬ UInt8.ofNat (n + 192) < 0x80 := by
  interval_cases n <;> exact ⟨rfl, by decide⟩

theorem lead_three {n : Nat} (hl : 1 ≤ n) (hh : n < 16) (hn : n ≠ 13) :
    lead (UInt8.ofNat (n + 224)) = some (.within n 1 2 0x80 0xBF) ∧
      ¬ UInt8.ofNat (n + 224) < 0x80 := by
  interval_cases n <;> first | exact ⟨rfl, by decide⟩ | exact absurd rfl hn

theorem lead_four {n : Nat} (hl : 1 ≤ n) (hh : n < 4) :
    lead (UInt8.ofNat (n + 240)) = some (.within n 1 3 0x80 0xBF) ∧
      ¬ UInt8.ofNat (n + 240) < 0x80 := by
  interval_cases n <;> exact ⟨rfl, by decide⟩

/-- The characters that are written in one byte. -/
theorem run_one {v : Nat} {rest : List UInt8} (h : v < 0x80) :
    run .start (UInt8.ofNat v :: rest) = .char (Char.ofNat v) :: run .start rest := by
  have value : (UInt8.ofNat v).toNat = v := by
    rw [UInt8.toNat_ofNat']
    omega
  have small : UInt8.ofNat v < 0x80 := by
    rw [UInt8.lt_iff_toNat_lt, value]
    exact h
  rw [run_cons, step, first, if_pos small, value]
  rfl

/-- The characters that are written in three bytes. -/
theorem run_three {v : Nat} {rest : List UInt8} (hl : 0x800 ≤ v) (hh : v < 0x10000)
    (hv : v < 0xD800 ∨ 0xDFFF < v) :
    run .start (UInt8.ofNat (v / 4096 % 16 + 224) :: tail (v / 64) :: tail v :: rest) =
      .char (Char.ofNat v) :: run .start rest := by
  have whole : (v / 4096 * 64 + v / 64 % 64) * 64 + v % 64 = v := by omega
  rw [Nat.mod_eq_of_lt (show v / 4096 < 16 by omega)]
  by_cases h0 : v / 4096 = 0
  · have big : ¬ UInt8.ofNat (0 + 224) < 0x80 := by decide
    rw [h0, run_lead big rfl, run_tail (by show 0xA0 ≤ _; omega) (by show _ ≤ 0xBF; omega) (by omega),
      run_last (by show 0x80 ≤ _; omega) (by show _ ≤ 0xBF; omega)]
    rw [h0] at whole
    rw [whole]
  · by_cases h13 : v / 4096 = 13
    · have big : ¬ UInt8.ofNat (13 + 224) < 0x80 := by decide
      rw [h13, run_lead big rfl,
        run_tail (by show 0x80 ≤ _; omega) (by show _ ≤ 0x9F; omega) (by omega),
        run_last (by show 0x80 ≤ _; omega) (by show _ ≤ 0xBF; omega)]
      rw [h13] at whole
      rw [whole]
    · obtain ⟨first, big⟩ := lead_three (n := v / 4096) (by omega) (by omega) h13
      rw [run_lead big first,
        run_tail (by show 0x80 ≤ _; omega) (by show _ ≤ 0xBF; omega) (by omega),
        run_last (by show 0x80 ≤ _; omega) (by show _ ≤ 0xBF; omega), whole]

/-- The characters that are written in four bytes. -/
theorem run_four {v : Nat} {rest : List UInt8} (hl : 0x10000 ≤ v) (hh : v < 0x110000) :
    run .start (UInt8.ofNat (v / 262144 % 8 + 240) :: tail (v / 4096) :: tail (v / 64) :: tail v
      :: rest) = .char (Char.ofNat v) :: run .start rest := by
  have whole : ((v / 262144 * 64 + v / 4096 % 64) * 64 + v / 64 % 64) * 64 + v % 64 = v := by omega
  rw [Nat.mod_eq_of_lt (show v / 262144 < 8 by omega)]
  by_cases h0 : v / 262144 = 0
  · have big : ¬ UInt8.ofNat (0 + 240) < 0x80 := by decide
    rw [h0, run_lead big rfl, run_tail (by show 0x90 ≤ _; omega) (by show _ ≤ 0xBF; omega) (by omega),
      run_tail (by show 0x80 ≤ _; omega) (by show _ ≤ 0xBF; omega) (by omega),
      run_last (by show 0x80 ≤ _; omega) (by show _ ≤ 0xBF; omega)]
    rw [h0] at whole
    rw [whole]
  · by_cases h4 : v / 262144 = 4
    · have big : ¬ UInt8.ofNat (4 + 240) < 0x80 := by decide
      rw [h4, run_lead big rfl,
        run_tail (by show 0x80 ≤ _; omega) (by show _ ≤ 0x8F; omega) (by omega),
        run_tail (by show 0x80 ≤ _; omega) (by show _ ≤ 0xBF; omega) (by omega),
        run_last (by show 0x80 ≤ _; omega) (by show _ ≤ 0xBF; omega)]
      rw [h4] at whole
      rw [whole]
    · obtain ⟨first, big⟩ := lead_four (n := v / 262144) (by omega) (by omega)
      rw [run_lead big first,
        run_tail (by show 0x80 ≤ _; omega) (by show _ ≤ 0xBF; omega) (by omega),
        run_tail (by show 0x80 ≤ _; omega) (by show _ ≤ 0xBF; omega) (by omega),
        run_last (by show 0x80 ≤ _; omega) (by show _ ≤ 0xBF; omega), whole]

/-- The bytes of a character are read as the character. -/
theorem run_encodeChar (c : Char) (rest : List UInt8) :
    run .start (String.utf8EncodeChar c ++ rest) = .char c :: run .start rest := by
  have back : Char.ofNat c.val.toNat = c := Char.ofNat_toNat c
  have valid : c.val.toNat < 0xD800 ∨ 0xDFFF < c.val.toNat ∧ c.val.toNat < 0x110000 := c.valid
  unfold String.utf8EncodeChar
  simp only
  split
  · exact (run_one (by omega)).trans (by rw [back]; rfl)
  · split
    · obtain ⟨lead, big⟩ := lead_two (n := c.val.toNat / 64) (by omega) (by omega)
      rw [Nat.mod_eq_of_lt (show c.val.toNat / 64 < 32 by omega), List.cons_append, run_lead big lead,
        List.cons_append, List.nil_append]
      show run _ (tail c.val.toNat :: rest) = _
      rw [run_last (by show 0x80 ≤ _; omega) (by show _ ≤ 0xBF; omega),
        show c.val.toNat / 64 * 64 + c.val.toNat % 64 = c.val.toNat by omega, back]
    · split
      · exact (run_three (by omega) (by omega) (by omega)).trans (by rw [back]; rfl)
      · exact (run_four (by omega) (by omega)).trans (by rw [back]; rfl)

/-- Reading the bytes of a text gives its characters. -/
theorem decode_encode (cs : List Char) : decode (encode cs) = cs.map Piece.char := by
  unfold decode
  induction cs with
  | nil => rfl
  | cons c rest ih => rw [encode_cons, run_encodeChar, ih, List.map_cons]

end AppAdmission.Utf8
