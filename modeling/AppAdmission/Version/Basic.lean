import AppAdmission.Text.Blank

/-!
# Versions

A version has three numbers, a pre-release and build metadata, the latter two as rows of
identifiers. All versions are in one total order: by the numbers, then by the pre-release, where none
comes last, then by the build metadata, where none comes first.
-/

namespace AppAdmission

/-- A version. The pre-release and the build metadata are the lists of their identifiers. -/
structure Version where
  major : Nat
  minor : Nat
  patch : Nat
  pre : List (List Char)
  build : List (List Char)
  deriving DecidableEq, Repr

namespace Version

open Text

/-- Identifiers with dots between them. -/
def joinDots : List (List Char) → List Char
  | [] => []
  | [x] => x
  | x :: y :: rest => x ++ '.' :: joinDots (y :: rest)

/-- A number in decimal digits. -/
def number (n : Nat) : List Char := Nat.toDigits 10 n

/-- The version as text. -/
def renderChars (v : Version) : List Char :=
  number v.major ++ '.' :: number v.minor ++ '.' :: number v.patch
    ++ (if v.pre.isEmpty then [] else '-' :: joinDots v.pre)
    ++ (if v.build.isEmpty then [] else '+' :: joinDots v.build)

/-- The version as text. -/
def render (v : Version) : String := String.ofList v.renderChars

/-- Rows of characters in dictionary order. -/
def compareChars : List Char → List Char → Ordering
  | [], [] => .eq
  | [], _ :: _ => .lt
  | _ :: _, [] => .gt
  | a :: as, b :: bs => (compare a.toNat b.toNat).then (compareChars as bs)

/-- Lists item by item; a list comes before its extensions. -/
def compareLists (item : List Char → List Char → Ordering) :
    List (List Char) → List (List Char) → Ordering
  | [], [] => .eq
  | [], _ :: _ => .lt
  | _ :: _, [] => .gt
  | a :: as, b :: bs => (item a b).then (compareLists item as bs)

/-- An identifier of digits only. -/
def numericB (id : List Char) : Bool := id.all isDigit

/-- Numeric identifiers come before others and are compared by length first. -/
def comparePreItem (a b : List Char) : Ordering :=
  match numericB a, numericB b with
  | false, true => .gt
  | true, false => .lt
  | false, false => compareChars a b
  | true, true => (compare a.length b.length).then (compareChars a b)

/-- The digits of a numeric identifier from its first one that is not zero. -/
def significant (id : List Char) : List Char := id.dropWhile (· == '0')

/-- Numeric identifiers may have leading zeros here; these count only between equal numbers. -/
def compareBuildItem (a b : List Char) : Ordering :=
  match numericB a, numericB b with
  | false, true => .gt
  | true, false => .lt
  | false, false => compareChars a b
  | true, true =>
    ((compare (significant a).length (significant b).length).then
      (compareChars (significant a) (significant b))).then (compare a.length b.length)

/-- Pre-releases in order; none comes after all others. -/
def comparePre (a b : List (List Char)) : Ordering :=
  match a.isEmpty, b.isEmpty with
  | true, true => .eq
  | true, false => .gt
  | false, true => .lt
  | false, false => compareLists comparePreItem a b

/-- Build metadata in order; none comes before all others. -/
def compareBuild (a b : List (List Char)) : Ordering :=
  compareLists compareBuildItem a b

/-- The total order of versions. -/
def cmp (a b : Version) : Ordering :=
  (compare a.major b.major).then <|
    (compare a.minor b.minor).then <|
      (compare a.patch b.patch).then <|
        (comparePre a.pre b.pre).then (compareBuild a.build b.build)

/-- `a` comes before `b`. -/
def ltB (a b : Version) : Bool := a.cmp b == .lt

end Version

end AppAdmission
