import AppAdmission.Binary64.Basic

/-!
# Shortest decimals

Every finite number has a shortest row of decimal digits that reads back as it. `shortest`
finds that row by trying one digit, then two, and so on up to seventeen: a row of `n` digits is on a
grid of powers of ten, and if any point of the grid reads back as the number then one of the two
points beside the number does. Two ways to lay the digits out follow: `positional`, which never uses
an exponent, and `scientific`, which does so for very large and very small numbers.
-/

namespace AppAdmission.Binary64

/-- Which way a number goes that lies halfway between two decimals. -/
inductive Tie where
  | up
  | even
  deriving DecidableEq, Repr

/-- The row of digits `digits` times ten to the `exponent`. -/
structure Decimal where
  digits : List Char
  exponent : Int
  deriving DecidableEq, Repr

/-- The reals that read back as a number, measured in quarters of its last place: the ends, the
number between them, and whether the ends belong. -/
structure Interval where
  low : Nat
  value : Nat
  high : Nat
  closed : Bool

/-- The interval around a magnitude, in quarters of its last place. Below a power of two the
numbers lie twice as close together. -/
def interval (x : Binary64) : Interval :=
  let m := 4 * x.significand
  { low := if x.significand = leastSignificand ∧ minPower < x.power then m - 1 else m - 2
    value := m
    high := m + 2
    closed := x.significand % 2 == 0 }

/-- A point lies in the interval. -/
def Interval.holdsB (i : Interval) (num den : Nat) : Bool :=
  if i.closed then i.low * den ≤ num && num ≤ i.high * den
  else i.low * den < num && num < i.high * den

/-- Ten to the part of `k` above zero. -/
def tens (k : Int) : Nat := Nat.pow 10 k.toNat

/-- The greatest `k` with `10 ^ k ≤ num / den`, searched downwards from a bound. -/
def leadingPower (num den : Nat) : Nat → Int → Int
  | 0, k => k
  | fuel + 1, k =>
    if den * tens k ≤ num * tens (-k) then k else leadingPower num den fuel (k - 1)

/-- The better of the two points on the grid of `10 ^ k` beside the number, if one reads back. -/
def onGrid (tie : Tie) (x : Binary64) (k : Int) : Option Nat :=
  let i := interval x
  let unit := up x.power * tens (-k)
  let grid := 4 * up (-x.power) * tens k
  let below := i.value * unit / grid
  let rest := i.value * unit % grid
  let lowOk := i.holdsB (below * grid) unit
  let highOk := i.holdsB ((below + 1) * grid) unit
  let upper :=
    if 2 * rest < grid then false
    else if grid < 2 * rest then true
    else match tie with
      | .up => true
      | .even => below % 2 == 1
  if rest = 0 then some below
  else if lowOk && highOk then some (if upper then below + 1 else below)
  else if lowOk then some below
  else if highOk then some (below + 1)
  else none

/-- Tries rows of ever more digits: the grid of `10 ^ k` first, then finer ones. -/
def searchGrid (tie : Tie) (x : Binary64) : Nat → Int → Nat × Int
  | 0, k => ((onGrid tie x k).getD 0, k)
  | fuel + 1, k =>
    match onGrid tie x k with
    | some n => (n, k)
    | none => searchGrid tie x fuel (k - 1)

/-- Takes zeros off the end of a row of digits and counts them. -/
def dropZeros (digits : List Char) : List Char × Nat :=
  let kept := (digits.reverse.dropWhile (· == '0')).reverse
  (kept, digits.length - kept.length)

/-- The decimal of a point on the grid of a power of ten. -/
def Decimal.ofPoint (point : Nat × Int) : Decimal :=
  let kept := dropZeros (Nat.toDigits 10 point.1)
  ⟨kept.1, point.2 + kept.2⟩

/-- The shortest decimal that reads back as the magnitude; zero is the digit `0`. -/
def shortest (tie : Tie) (x : Binary64) : Decimal :=
  if x.isZero then ⟨['0'], 0⟩
  else .ofPoint (searchGrid tie x 17 (leadingPower x.magnitude.1 x.magnitude.2 800 310))

/-- A row of zeros. -/
def zeros (n : Nat) : List Char := List.replicate n '0'

/-- The sign of a number, written only if it is negative. -/
def signText (x : Binary64) : List Char :=
  if x.negative then ['-'] else []

/-- The digits of a decimal around a point, without an exponent. A whole number gets the ending
given. -/
def Decimal.positional (d : Decimal) (whole : List Char) : List Char :=
  let point : Int := d.digits.length + d.exponent
  if 0 ≤ d.exponent then d.digits ++ zeros d.exponent.toNat ++ whole
  else if 0 < point then d.digits.take point.toNat ++ '.' :: d.digits.drop point.toNat
  else '0' :: '.' :: zeros (-point).toNat ++ d.digits

/-- The digits with a point after the first one and an exponent. -/
def Decimal.exponential (d : Decimal) : List Char :=
  let power : Int := d.digits.length + d.exponent - 1
  let mantissa := match d.digits with
    | [c] => [c]
    | c :: rest => c :: '.' :: rest
    | [] => []
  mantissa ++ 'e' :: (toString power).toList

/-- Metric values: shortest digits, never an exponent, and no point in a whole number. -/
def plain (x : Binary64) : List Char :=
  signText x ++ (shortest .up x).positional []

/-- Numbers in JSON: shortest digits, a point in every whole number, and an exponent from
`1e16` on and below `1e-5`. -/
def json (x : Binary64) : List Char :=
  let d := shortest .even x
  let point : Int := d.digits.length + d.exponent
  signText x ++
    if x.isZero then ['0', '.', '0']
    else if -5 < point ∧ point ≤ 16 then d.positional ['.', '0']
    else d.exponential

end AppAdmission.Binary64
