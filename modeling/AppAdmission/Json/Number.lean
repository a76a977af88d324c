import AppAdmission.Json.Basic
import AppAdmission.Text.Blank
import AppAdmission.Binary64.Decimal

/-!
# Numbers as text

A number without fraction and exponent that fits in 64 bits is an integer. Any other is a
double, worked out from the first digits that fit in 64 bits and one scaling by a power of ten, so
the last place may be off for long rows of digits. Some numerals are beyond the greatest double;
they are numerals all the same, and `Number.read` tells them from text that is no numeral.
-/

namespace AppAdmission.Number

open Text

/-- The parts of a numeral: sign, digits before and after the point, sign and digits of the
exponent. A part that is not there is empty. -/
structure Parts where
  negative : Bool
  whole : List Char
  fraction : List Char
  exponent : Option (Bool × List Char)

/-- Splits digits off the front; there must be one at least. -/
def digits? (cs : List Char) : Option (List Char × List Char) :=
  match cs.takeWhile isDigit with
  | [] => none
  | ds => some (ds, cs.dropWhile isDigit)

/-- The digits before the point: a leading zero stands alone. -/
def whole? (cs : List Char) : Option (List Char × List Char) :=
  match digits? cs with
  | some ('0' :: _ :: _, _) => none
  | r => r

/-- The digits after a point, if there is one. -/
def fraction? : List Char → Option (List Char × List Char)
  | '.' :: cs => digits? cs
  | cs => some ([], cs)

/-- The exponent, if there is one. -/
def exponent? : List Char → Option (Option (Bool × List Char))
  | [] => some none
  | c :: cs =>
    if c = 'e' ∨ c = 'E' then
      let (negative, cs) := match cs with
        | '-' :: cs => (true, cs)
        | '+' :: cs => (false, cs)
        | cs => (false, cs)
      match digits? cs with
      | some (ds, []) => some (some (negative, ds))
      | _ => none
    else none

/-- Splits a numeral into its parts. -/
def parts? (cs : List Char) : Option Parts := do
  let (negative, cs) := match cs with
    | '-' :: cs => (true, cs)
    | cs => (false, cs)
  let (whole, cs) ← whole? cs
  let (fraction, cs) ← fraction? cs
  let exponent ← exponent? cs
  return ⟨negative, whole, fraction, exponent⟩

/-- The greatest number of 64 bits. -/
def maxWord : Nat := 0xFFFFFFFFFFFFFFFF

/-- Takes digits into a number as long as it fits in 64 bits; the number and the digits left. -/
def absorb : Nat → List Char → Nat × List Char
  | n, [] => (n, [])
  | n, c :: cs =>
    if 10 * n + digitValue c ≤ maxWord then absorb (10 * n + digitValue c) cs else (n, c :: cs)

/-- A power of ten as a double. -/
def tenTo (k : Nat) : Binary64 := Binary64.ofNat (Nat.pow 10 k)

/-- `x · 10 ^ k` in steps of at most 308 places, or nothing when it is out of range. -/
def scale : Nat → Binary64 → Int → Option Binary64
  | 0, _, _ => some (Binary64.zero false)
  | fuel + 1, x, k =>
    if 0 ≤ k then
      if k ≤ 308 then x.mul? (tenTo k.toNat) else if x.isZero then some x else none
    else if -308 ≤ k then x.div? (tenTo (-k).toNat)
    else if x.isZero then some x
    else match x.div? (tenTo 308) with
      | some y => scale fuel y (k + 308)
      | none => none

/-- The exponent as written; past this bound, `2 ^ 31 - 1`, it decides alone. -/
def exponentLimit : Nat := 0x7FFFFFFF

/-- The value of a numeral that is no integer, or nothing when it is out of range. -/
def floatValue (p : Parts) : Option Binary64 :=
  let (n, left) := absorb 0 p.whole
  let (n, unread) := absorb n p.fraction
  let places : Int := left.length - (p.fraction.length - unread.length : Nat)
  let magnitude : Option Binary64 := match p.exponent with
    | none => scale 4 (Binary64.ofNat n) places
    | some (negative, ds) =>
      let e := decimalValue ds
      if exponentLimit < e then
        if n = 0 || negative then some (Binary64.zero false) else none
      else scale 4 (Binary64.ofNat n) (places + if negative then -(e : Int) else e)
  magnitude.map fun x => { x with negative := p.negative }

/-- The value of a numeral given as its parts. Minus zero is a double. -/
def value (p : Parts) : Option Number :=
  let n := decimalValue p.whole
  if p.fraction.isEmpty && p.exponent.isNone && n ≤ maxWord && !(p.negative && (n = 0 || 0x8000000000000000 < n))
  then some (.int (if p.negative then -n else n))
  else (floatValue p).map .float

/-- Reads a numeral: nothing for text that is none, and nothing inside for one out of range. -/
def read (cs : List Char) : Option (Option Number) :=
  (parts? cs).map value

/-- Writes a number. -/
def render : Number → List Char
  | .int n => (toString n).toList
  | .float x => x.json

end AppAdmission.Number
