/-!
# Double-precision numbers

The finite numbers of IEEE 754 binary64 as a sign, a significand and a power of two, and with them the
infinities and what is not a number. Every operation works out its exact result as a quotient of natural
numbers and rounds once, to nearest with ties to even, so nothing here depends on the machine's floating
point.
-/

namespace AppAdmission

/-- The number `± significand · 2 ^ power`. The values built here are normal forms: the significand
is below `2 ^ 53`, and it is at least `2 ^ 52` unless `power = -1074`. -/
structure Binary64 where
  negative : Bool
  significand : Nat
  power : Int
  deriving DecidableEq, Repr

namespace Binary64

/-- The least significand of a normal form above the least power: `2 ^ 52`. -/
def leastSignificand : Nat := 0x10000000000000

/-- The least power of two of a normal form. -/
def minPower : Int := -1074

/-- The greatest power of two of a normal form. -/
def maxPower : Int := 971

/-- Zero of the given sign. -/
def zero (negative : Bool) : Binary64 := ⟨negative, 0, minPower⟩

instance : Inhabited Binary64 := ⟨zero false⟩

/-- The number is zero, of either sign. -/
def isZero (x : Binary64) : Bool := x.significand == 0

/-- Two to the part of `p` above zero. -/
def up (p : Int) : Nat := Nat.pow 2 p.toNat

/-- The magnitude as a quotient of natural numbers. -/
def magnitude (x : Binary64) : Nat × Nat :=
  (x.significand * up x.power, up (-x.power))

/-- The quotient rounded to the nearest natural number, a half to the even one. -/
def roundDiv (num den : Nat) : Nat :=
  let q := num / den
  let r := num % den
  if 2 * r < den then q
  else if den < 2 * r then q + 1
  else q + q % 2

/-- The power of two at which the significand of `num / den` has 53 digits, or the least power. -/
def scale (num den : Nat) : Int :=
  let p := max ((num.log2 : Int) - den.log2 - 52) minPower
  if minPower < p ∧ num * up (-p) < den * up p * leastSignificand then p - 1 else p

/-- The number nearest to `± num / den`, unless it is beyond the greatest finite one. -/
def ofRatio? (negative : Bool) (num den : Nat) : Option Binary64 :=
  if num = 0 then some (zero negative)
  else
    let p := scale num den
    let s := roundDiv (num * up (-p)) (den * up p)
    let (s, p) := if s = 2 * leastSignificand then (leastSignificand, p + 1) else (s, p)
    if maxPower < p then none else some ⟨negative, s, p⟩

/-- The number nearest to a natural number below `2 ^ 1024`. -/
def ofNat (n : Nat) : Binary64 :=
  (ofRatio? false n 1).getD (zero false)

/-- The number nearest to a decimal fraction of moderate size. -/
def ofDecimal (digits places : Nat) : Binary64 :=
  (ofRatio? false digits (Nat.pow 10 places)).getD (zero false)

/-- The product, unless it is out of range. -/
def mul? (x y : Binary64) : Option Binary64 :=
  let (a, b) := x.magnitude
  let (c, d) := y.magnitude
  ofRatio? (x.negative != y.negative) (a * c) (b * d)

/-- The quotient by a number that is not zero, unless it is out of range. -/
def div? (x y : Binary64) : Option Binary64 :=
  let (a, b) := x.magnitude
  let (c, d) := y.magnitude
  ofRatio? (x.negative != y.negative) (a * d) (b * c)

/-- The number as an integer over a common denominator. -/
def numerator (x : Binary64) (den : Nat) : Int :=
  let (a, b) := x.magnitude
  let n : Int := (a * (den / b) : Nat)
  if x.negative then -n else n

/-- The sum, unless it is out of range. The sum of two negative zeros is negative zero. -/
def add? (x y : Binary64) : Option Binary64 :=
  let den := max x.magnitude.2 y.magnitude.2
  let n := x.numerator den + y.numerator den
  if n = 0 then some (zero (x.isZero && y.isZero && x.negative && y.negative))
  else ofRatio? (n < 0) n.natAbs den

/-- `x ≤ y` as real numbers. -/
def leB (x y : Binary64) : Bool :=
  let den := max x.magnitude.2 y.magnitude.2
  x.numerator den ≤ y.numerator den

end Binary64

/-- Double-precision numbers with the infinities, and what is not a number. -/
inductive Double where
  | finite (value : Binary64)
  | infinite (negative : Bool)
  | nan
  deriving DecidableEq, Repr

namespace Double

instance : Coe Binary64 Double := ⟨finite⟩

/-- The sum. Infinities of both signs have none. -/
def add : Double → Double → Double
  | finite x, finite y =>
    match x.add? y with
    | some z => finite z
    -- Only numbers of one sign go out of range together.
    | none => infinite x.negative
  | finite _, infinite negative => infinite negative
  | infinite negative, finite _ => infinite negative
  | infinite negative, infinite negative' => if negative = negative' then infinite negative else nan
  | nan, _ => nan
  | _, nan => nan

/-- `x ≤ y` for a finite `y`, which nothing that is not a number is. -/
def leB : Double → Binary64 → Bool
  | finite x, y => x.leB y
  | infinite negative, _ => negative
  | nan, _ => false

end Double

end AppAdmission
