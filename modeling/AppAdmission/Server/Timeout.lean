import AppAdmission.Text.Blank

/-!
# Timeouts

A timeout is a row of numbers, each with a unit, such as `1m30s`; it is the sum of its parts.
Durations are counted in nanoseconds and have less than `2 ^ 64` whole seconds. A part that does not
fit makes the text no timeout, but a sum that does not fit is an overflow, which is found as soon as
the part that brings it about has been read.
-/

namespace AppAdmission.Timeout

open Text

/-- What a text comes to. -/
inductive Reading where
  | duration (nanos : Nat)
  | notTimeout
  | overflow
  deriving DecidableEq, Repr

/-- The numbers and whole seconds that fit are below this bound, `2 ^ 64`. -/
def wordBound : Nat := 0x10000000000000000

/-- A second in nanoseconds. -/
def second : Nat := 1000000000

/-- The length of a unit in nanoseconds. -/
def unit? (u : List Char) : Option Nat :=
  if u = ['m', 's'] then some 1000000
  else if u = ['s'] then some second
  else if u = ['m'] then some (60 * second)
  else if u = ['h'] then some (3600 * second)
  else none

/-- The duration of one part. -/
def part? (digits unit : List Char) : Option Nat := do
  let n := decimalValue digits
  let u ← unit? unit
  if n < wordBound ∧ n * u / second < wordBound then some (n * u) else none

/-- Reads parts and adds them up. The number of parts is at most `fuel`. -/
def readParts : Nat → Nat → List Char → Reading
  | _, total, [] => .duration total
  | 0, _, _ => .notTimeout
  | fuel + 1, total, cs =>
    let digits := cs.takeWhile isDigit
    let rest := cs.dropWhile isDigit
    let unit := rest.takeWhile (!isDigit ·)
    let rest := rest.dropWhile (!isDigit ·)
    if digits.isEmpty then .notTimeout
    else match part? digits unit with
      | none => .notTimeout
      | some d => if (total + d) / second < wordBound then readParts fuel (total + d) rest else .overflow

/-- Reads a timeout with white space around it. -/
def parse (raw : String) : Reading :=
  let cs := trim raw.toList
  if cs.isEmpty then .notTimeout else readParts cs.length 0 cs

end AppAdmission.Timeout
