import AppAdmission.Binary64.Decimal
import AppAdmission.Proofs.Json.Numeral

/-!
# Plain decimals

Every operation rounds to a significand below `2 ^ 53`. For such a number the search for the shortest row
of digits does not end in vain where it would matter, so that what is written for it without an exponent is
a row of digits with a point at most, and never nothing at all.
-/

namespace AppAdmission.Binary64

/-- The significand is that of a normal form. -/
def Bounded (x : Binary64) : Prop := x.significand < 2 * leastSignificand

theorem bounded_zero (negative : Bool) : (zero negative).Bounded := by
  show 0 < 2 * leastSignificand
  decide

theorem up_pos (p : Int) : 0 < up p := Nat.pow_pos (by decide)

theorem up_of_nonpos {p : Int} (h : p ≤ 0) : up p = 1 := by
  unfold up
  rw [Int.toNat_of_nonpos h, Nat.pow_eq, Nat.pow_zero]

theorem up_succ {p : Int} (h : 0 ≤ p) : up (p + 1) = 2 * up p := by
  obtain ⟨n, rfl⟩ := Int.eq_ofNat_of_zero_le h
  show 2 ^ (n + 1) = 2 * 2 ^ n
  rw [Nat.pow_succ, Nat.mul_comm]

theorem roundDiv_le {num den bound : Nat} (solid : 0 < den) (h : num ≤ den * bound) :
    roundDiv num den ≤ bound := by
  have whole := Nat.div_add_mod num den
  have rest := Nat.mod_lt num solid
  have le : num / den ≤ bound := Nat.div_le_of_le_mul h
  -- A quotient that is rounded up has a remainder, and so is below the bound.
  have below (some : 0 < num % den) : num / den < bound := by
    refine Nat.lt_of_le_of_ne le fun same => ?_
    rw [same] at whole
    omega
  unfold roundDiv
  simp only
  split
  · exact le
  · split
    · exact below (by omega)
    · have half := below (by omega)
      omega

/-- At the power that is chosen the significand has 53 digits at most. -/
theorem scale_bound {num den : Nat} (solid : 0 < den) :
    num * up (-scale num den) ≤ den * up (scale num den) * (2 * leastSignificand) := by
  unfold scale
  simp only
  split
  · next adjusted =>
    obtain ⟨-, small⟩ := adjusted
    generalize max ((num.log2 : Int) - den.log2 - 52) minPower = p at small ⊢
    rcases Int.lt_or_le 0 p with pos | nonpos
    · have same : up (-(p - 1)) = up (-p) := by rw [up_of_nonpos (by omega), up_of_nonpos (by omega)]
      have double : up p = 2 * up (p - 1) := by rw [← up_succ (by omega), Int.sub_add_cancel]
      rw [same]
      rw [double] at small
      calc num * up (-p)
        _ ≤ den * (2 * up (p - 1)) * leastSignificand := small.le
        _ = den * up (p - 1) * (2 * leastSignificand) := by ac_rfl
    · have same : up (p - 1) = up p := by rw [up_of_nonpos (by omega), up_of_nonpos (by omega)]
      have double : up (-(p - 1)) = 2 * up (-p) := by
        rw [← up_succ (by omega)]
        congr 1
        omega
      rw [same, double]
      calc num * (2 * up (-p))
        _ = 2 * (num * up (-p)) := by ac_rfl
        _ ≤ 2 * (den * up p * leastSignificand) := Nat.mul_le_mul_left 2 small.le
        _ = den * up p * (2 * leastSignificand) := by ac_rfl
  · have power : (num.log2 : Int) - den.log2 - 52 ≤ max ((num.log2 : Int) - den.log2 - 52) minPower :=
      Int.le_max_left _ _
    generalize max ((num.log2 : Int) - den.log2 - 52) minPower = p at power ⊢
    have upper : num ≤ 2 ^ (num.log2 + 1) := Nat.lt_log2_self.le
    have lower : 2 ^ den.log2 ≤ den := Nat.log2_self_le (by omega)
    have top : 2 * leastSignificand = 2 ^ 53 := by decide
    calc num * up (-p)
      _ ≤ 2 ^ (num.log2 + 1) * 2 ^ (-p).toNat := Nat.mul_le_mul_right _ upper
      _ = 2 ^ (num.log2 + 1 + (-p).toNat) := (Nat.pow_add 2 _ _).symm
      _ ≤ 2 ^ (den.log2 + p.toNat + 53) := Nat.pow_le_pow_right (by decide) (by omega)
      _ = 2 ^ den.log2 * 2 ^ p.toNat * 2 ^ 53 := by rw [Nat.pow_add, Nat.pow_add]
      _ ≤ den * up p * (2 * leastSignificand) := by
        rw [top]
        exact Nat.mul_le_mul_right _ (Nat.mul_le_mul_right _ lower)

/-- A quotient is rounded to a normal form. -/
theorem bounded_of_ofRatio? {negative : Bool} {num den : Nat} {x : Binary64} (solid : 0 < den)
    (h : ofRatio? negative num den = some x) : x.Bounded := by
  unfold ofRatio? at h
  split at h
  · cases h
    exact bounded_zero negative
  · have le : roundDiv (num * up (-scale num den)) (den * up (scale num den)) ≤ 2 * leastSignificand :=
      roundDiv_le (Nat.mul_pos solid (up_pos _)) (scale_bound solid)
    simp only at h
    split at h
    · next carried =>
      split at h
      · cases h
      · cases h
        show leastSignificand < 2 * leastSignificand
        decide
    · next other =>
      split at h
      · cases h
      · cases h
        exact Nat.lt_of_le_of_ne le other

theorem bounded_of_add? {x y z : Binary64} (h : x.add? y = some z) : z.Bounded := by
  unfold add? at h
  simp only at h
  split at h
  · cases h
    exact bounded_zero _
  · refine bounded_of_ofRatio? ?_ h
    exact Nat.lt_of_lt_of_le (up_pos _) (Nat.le_max_left _ _)

/-- A row of digits with a point at most. -/
inductive Positional : List Char → Prop where
  | whole {ds : List Char} : ds ≠ [] → (∀ c ∈ ds, Text.isDigit c = true) → Positional ds
  | point {ds fs : List Char} : ds ++ fs ≠ [] → (∀ c ∈ ds ++ fs, Text.isDigit c = true) →
    Positional (ds ++ '.' :: fs)

theorem not_holdsB_zero {x : Binary64} (solid : 0 < x.significand) {den : Nat} (pos : 0 < den) :
    (interval x).holdsB 0 den = false := by
  have low : 0 < (interval x).low := by
    show 0 < if x.significand = leastSignificand ∧ minPower < x.power then 4 * x.significand - 1
      else 4 * x.significand - 2
    split <;> omega
  have ends : 0 < (interval x).low * den := Nat.mul_pos low pos
  unfold Interval.holdsB
  split
  · simp [Nat.not_le.2 ends]
  · simp

/-- No row of digits for a number that is not zero denotes zero. -/
theorem pos_of_onGrid {tie : Tie} {x : Binary64} (solid : 0 < x.significand) {k : Int} {n : Nat}
    (h : onGrid tie x k = some n) : 0 < n := by
  have unit : 0 < up x.power * tens (-k) := Nat.mul_pos (up_pos _) (Nat.pow_pos (by decide))
  have value : 0 < (interval x).value * (up x.power * tens (-k)) := by
    refine Nat.mul_pos ?_ unit
    show 0 < 4 * x.significand
    omega
  have below {n : Nat} (reads : (interval x).holdsB (n * (4 * up (-x.power) * tens k))
      (up x.power * tens (-k)) = true) : 0 < n := by
    refine Nat.pos_of_ne_zero ?_
    rintro rfl
    rw [Nat.zero_mul, not_holdsB_zero solid unit] at reads
    cases reads
  unfold onGrid at h
  simp only at h
  generalize grid : 4 * up (-x.power) * tens k = g at h below
  split at h
  · next exact =>
    obtain rfl := Option.some.inj h
    refine Nat.pos_of_ne_zero fun zero => ?_
    have whole := Nat.div_add_mod ((interval x).value * (up x.power * tens (-k))) g
    rw [zero, exact] at whole
    omega
  · split at h
    · next both =>
      rw [Bool.and_eq_true] at both
      have either : ∀ upper : Bool, 0 < if upper then (interval x).value * (up x.power * tens (-k)) / g + 1
          else (interval x).value * (up x.power * tens (-k)) / g := by
        intro upper
        cases upper
        · exact below both.1
        · exact Nat.succ_pos _
      obtain rfl := Option.some.inj h
      exact either _
    · split at h
      · next low =>
        obtain rfl := Option.some.inj h
        exact below low
      · split at h
        · obtain rfl := Option.some.inj h
          exact Nat.succ_pos _
        · cases h

/-- The search finds digits, or comes to its last grid in vain. -/
theorem searchGrid_cases (tie : Tie) {x : Binary64} (solid : 0 < x.significand) (fuel : Nat) (k : Int) :
    0 < (searchGrid tie x fuel k).1 ∨
      (searchGrid tie x fuel k).2 = k - fuel ∧ onGrid tie x (k - fuel) = none := by
  induction fuel generalizing k with
  | zero =>
    cases found : onGrid tie x k with
    | none => exact .inr ⟨by simp [searchGrid], by simpa using found⟩
    | some n =>
      refine .inl ?_
      rw [searchGrid, found]
      exact pos_of_onGrid solid found
  | succ fuel ih =>
    rw [searchGrid]
    cases found : onGrid tie x k with
    | some n => exact .inl (pos_of_onGrid solid found)
    | none =>
      have further : k - 1 - (fuel : Int) = k - (fuel + 1 : Nat) := by omega
      rw [← further]
      exact ih (k - 1)

theorem leadingPower_cases (num den fuel : Nat) (k : Int) :
    den * tens (leadingPower num den fuel k) ≤ num * tens (-leadingPower num den fuel k) ∨
      leadingPower num den fuel k = k - fuel := by
  induction fuel generalizing k with
  | zero => exact .inr (by simp [leadingPower])
  | succ fuel ih =>
    rw [leadingPower]
    split
    · next fits => exact .inl fits
    · have further : k - 1 - (fuel : Int) = k - (fuel + 1 : Nat) := by omega
      rw [← further]
      exact ih (k - 1)

/-- A number from `10 ^ 16` on is whole, so it is on the grid of tenths. -/
theorem onGrid_tenths {tie : Tie} {x : Binary64} (bounded : x.Bounded)
    (large : x.magnitude.2 * tens 16 ≤ x.magnitude.1 * tens (-16)) : onGrid tie x (-1) ≠ none := by
  have whole : 0 ≤ x.power := by
    by_contra negative
    have unit : up x.power = 1 := up_of_nonpos (by omega)
    have halves : 2 ≤ up (-x.power) := by
      obtain ⟨n, same⟩ : ∃ n : Nat, -x.power = n + 1 := ⟨(-x.power - 1).toNat, by omega⟩
      rw [same, up_succ (by omega)]
      have := up_pos (n : Int)
      omega
    change up (-x.power) * 10 ^ 16 ≤ x.significand * up x.power * 1 at large
    rw [unit] at large
    have top : x.significand < 2 ^ 53 := bounded
    omega
  have grid : up (-x.power) = 1 := up_of_nonpos (by omega)
  have exact : (interval x).value * (up x.power * tens (-(-1))) % (4 * up (-x.power) * tens (-1)) = 0 := by
    rw [grid]
    show 4 * x.significand * (up x.power * 10) % 4 = 0
    rw [Nat.mul_assoc]
    exact Nat.mul_mod_right 4 _
  unfold onGrid
  simp only
  rw [if_pos exact]
  exact Option.some_ne_none _

theorem isDigit_of_mem_dropZeros {ds : List Char} (digits : ∀ c ∈ ds, Text.isDigit c = true) :
    ∀ c ∈ (dropZeros ds).1, Text.isDigit c = true := by
  intro c there
  have kept : c ∈ ds.reverse.dropWhile (· == '0') := List.mem_reverse.1 there
  exact digits c (List.mem_reverse.1 ((List.dropWhile_sublist _).subset kept))

theorem dropZeros_ne_nil {ds : List Char} {d : Char} {rest : List Char} (first : ds = d :: rest)
    (other : d ≠ '0') : (dropZeros ds).1 ≠ [] := by
  intro none
  have all := List.dropWhile_eq_nil_iff.1 (List.reverse_eq_nil_iff.1 none)
  have zero := all d (by simp [first])
  exact other (by simpa using zero)

/-- A point of a grid that is not zero has digits. -/
theorem ofPoint_ne_nil {point : Nat × Int} (solid : 0 < point.1) : (Decimal.ofPoint point).digits ≠ [] := by
  obtain ⟨d, rest, digits, other⟩ := Number.head_toDigits solid
  exact dropZeros_ne_nil digits other

/-- Where the search ends there are digits, or the number is not whole. -/
theorem point_solid (tie : Tie) {x : Binary64} (bounded : x.Bounded) (solid : 0 < x.significand) {top : Int}
    (leads : x.magnitude.2 * tens top ≤ x.magnitude.1 * tens (-top) ∨ top = 310 - (800 : Nat)) :
    (Decimal.ofPoint (searchGrid tie x 17 top)).digits ≠ [] ∨
      (Decimal.ofPoint (searchGrid tie x 17 top)).exponent ≠ 0 := by
  rcases searchGrid_cases tie solid 17 top with found | ⟨last, vain⟩
  · exact .inl (ofPoint_ne_nil found)
  · rcases Nat.eq_zero_or_pos (searchGrid tie x 17 top).1 with none | some
    · -- Nothing was found on the last grid, so the digits are those of zero.
      refine .inr fun zero => ?_
      have one : (Decimal.ofPoint (searchGrid tie x 17 top)).exponent = top - 17 + 1 := by
        unfold Decimal.ofPoint
        rw [none, last]
        rfl
      obtain rfl : top = 16 := by omega
      rcases leads with large | short
      · exact onGrid_tenths bounded large vain
      · omega
    · exact .inl (ofPoint_ne_nil some)

/-- The shortest decimal has digits, or it is not a whole number. -/
theorem shortest_solid (tie : Tie) {x : Binary64} (bounded : x.Bounded) :
    (shortest tie x).digits ≠ [] ∨ (shortest tie x).exponent ≠ 0 := by
  cases nonzero : x.isZero with
  | true =>
    rw [shortest, if_pos nonzero]
    exact .inl (List.cons_ne_nil _ _)
  | false =>
    rw [shortest, if_neg (Bool.eq_false_iff.1 nonzero)]
    have solid : 0 < x.significand := Nat.pos_of_ne_zero (beq_eq_false_iff_ne.1 nonzero)
    have top := leadingPower_cases x.magnitude.1 x.magnitude.2 800 310
    generalize leadingPower x.magnitude.1 x.magnitude.2 800 310 = k at top ⊢
    exact point_solid tie bounded solid top

theorem isDigit_of_mem_shortest (tie : Tie) (x : Binary64) :
    ∀ c ∈ (shortest tie x).digits, Text.isDigit c = true := by
  cases nonzero : x.isZero with
  | true =>
    rw [shortest, if_pos nonzero]
    intro c there
    rw [List.mem_singleton.1 there]
    rfl
  | false =>
    rw [shortest, if_neg (Bool.eq_false_iff.1 nonzero)]
    exact isDigit_of_mem_dropZeros fun c there => Number.isDigit_of_mem_toDigits there

theorem isDigit_of_mem_zeros {n : Nat} {c : Char} (there : c ∈ zeros n) : Text.isDigit c = true := by
  rw [List.eq_of_mem_replicate there]
  rfl

/-- Laid out around a point, a decimal is a row of digits with a point at most. -/
theorem positional_positional {d : Decimal} (digits : ∀ c ∈ d.digits, Text.isDigit c = true)
    (solid : d.digits ≠ [] ∨ d.exponent ≠ 0) : Positional (d.positional []) := by
  unfold Decimal.positional
  simp only
  split
  · next whole =>
    refine .whole ?_ fun c there => ?_
    · rcases solid with some | nonzero
      · simp [some]
      · simp [zeros]
        omega
    · rw [List.append_nil] at there
      rcases List.mem_append.1 there with there | there
      · exact digits c there
      · exact isDigit_of_mem_zeros there
  · next part =>
    split
    · next within =>
      refine .point ?_ ?_
      · rw [List.take_append_drop]
        intro none
        rw [none, List.length_nil] at within
        omega
      · rw [List.take_append_drop]
        exact digits
    · show Positional (['0'] ++ '.' :: (zeros _ ++ d.digits))
      refine .point (List.cons_ne_nil _ _) fun c there => ?_
      rw [List.singleton_append] at there
      rcases List.mem_cons.1 there with rfl | there
      · rfl
      · rcases List.mem_append.1 there with there | there
        · exact isDigit_of_mem_zeros there
        · exact digits c there

/-- Without an exponent a number is a row of digits with a point at most, after a sign if it has one. -/
theorem plain_positional {x : Binary64} (bounded : x.Bounded) :
    ∃ body, x.plain = (if x.negative then ['-'] else []) ++ body ∧ Positional body :=
  ⟨_, rfl, positional_positional (isDigit_of_mem_shortest .up x) (shortest_solid .up bounded)⟩

end AppAdmission.Binary64
