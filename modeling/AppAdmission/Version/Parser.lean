import AppAdmission.Version.Basic
import AppAdmission.Text.Quoted

/-!
# Reading versions

Semantic versioning 2.0 with white space around the text and one `v` in front of it. `parse`
takes the text apart from left to right, and a `Fault` names the first thing that is wrong with it.
-/

namespace AppAdmission.Version

open Text

/-- The parts of a version in the order they are written. -/
inductive Part where
  | major
  | minor
  | patch
  | pre
  | build
  deriving DecidableEq, Repr

/-- What a part is called in messages. -/
def Part.name : Part → String
  | major => "major version number"
  | minor => "minor version number"
  | patch => "patch version number"
  | pre => "pre-release identifier"
  | build => "build metadata"

/-- What can be wrong with the text of a version. -/
inductive Fault where
  | empty
  | unexpectedEnd (part : Part)
  | unexpectedChar (part : Part) (c : Char)
  | unexpectedAfter (part : Part) (c : Char)
  | leadingZero (part : Part)
  | tooLarge (part : Part)
  | emptySegment (part : Part)
  deriving DecidableEq, Repr

/-- The wording of a fault. -/
def Fault.message : Fault → String
  | empty => "empty string, expected a semver version"
  | unexpectedEnd p => "unexpected end of input while parsing " ++ p.name
  | unexpectedChar p c =>
    "unexpected character " ++ String.ofList (quoteChar c) ++ " while parsing " ++ p.name
  | unexpectedAfter p c => "unexpected character " ++ String.ofList (quoteChar c) ++ " after " ++ p.name
  | leadingZero p => "invalid leading zero in " ++ p.name
  | tooLarge p => "value of " ++ p.name ++ " exceeds u64::MAX"
  | emptySegment p => "empty identifier segment in " ++ p.name

/-- Numbers are below this bound, `2 ^ 64`. -/
def numberBound : Nat := 0x10000000000000000

/-- Reads digits into a number. A digit after a zero that stands first is a fault, and so is a
number that reaches the bound, whichever comes first. -/
def readDigits (part : Part) (value : Nat) (first : Bool) :
    List Char → Except Fault (Nat × List Char)
  | [] => .ok (value, [])
  | c :: cs =>
    if !isDigit c then .ok (value, c :: cs)
    else if value = 0 && !first then .error (.leadingZero part)
    else if numberBound ≤ 10 * value + digitValue c then .error (.tooLarge part)
    else readDigits part (10 * value + digitValue c) false cs

/-- A number: at least one digit. -/
def readNumber (part : Part) : List Char → Except Fault (Nat × List Char)
  | [] => .error (.unexpectedEnd part)
  | c :: cs => if isDigit c then readDigits part 0 true (c :: cs) else .error (.unexpectedChar part c)

/-- The dot after a part. -/
def readDot (part : Part) : List Char → Except Fault (List Char)
  | [] => .error (.unexpectedEnd part)
  | '.' :: cs => .ok cs
  | c :: _ => .error (.unexpectedAfter part c)

/-- A character of an identifier. -/
def isIdent (c : Char) : Bool :=
  isDigit c || ('a' ≤ c && c ≤ 'z') || ('A' ≤ c && c ≤ 'Z') || c == '-'

/-- One identifier. In a pre-release a number has no leading zero. -/
def checkIdent (part : Part) (id : List Char) : Except Fault Unit :=
  if id.isEmpty then .error (.emptySegment part)
  else if part = .pre && numericB id && 1 < id.length && id.head? == some '0' then
    .error (.leadingZero part)
  else .ok ()

/-- Identifiers with dots between them. `done` is the identifier being read and `before` the
finished ones, both last one first. -/
def readIdents (part : Part) (before : List (List Char)) (done : List Char) :
    List Char → Except Fault (List (List Char) × List Char)
  | [] => do
    checkIdent part done.reverse
    return ((done.reverse :: before).reverse, [])
  | c :: cs =>
    if isIdent c then readIdents part before (c :: done) cs
    else do
      checkIdent part done.reverse
      if c = '.' then readIdents part (done.reverse :: before) [] cs
      else return ((done.reverse :: before).reverse, c :: cs)

/-- The identifiers after a mark, if the mark is there. -/
def readMarked (part : Part) (mark : Char) :
    List Char → Except Fault (Option (List (List Char)) × List Char)
  | [] => .ok (none, [])
  | c :: cs =>
    if c = mark then do
      let (ids, cs) ← readIdents part [] [] cs
      return (some ids, cs)
    else .ok (none, c :: cs)

/-- Reads a bare version. -/
def parseBare (cs : List Char) : Except Fault Version := do
  if cs.isEmpty then throw .empty
  let (major, cs) ← readNumber .major cs
  let cs ← readDot .major cs
  let (minor, cs) ← readNumber .minor cs
  let cs ← readDot .minor cs
  let (patch, cs) ← readNumber .patch cs
  let (pre, cs) ← readMarked .pre '-' cs
  let (build, cs) ← readMarked .build '+' cs
  let last := if build.isSome then Part.build else if pre.isSome then Part.pre else Part.patch
  match cs with
  | [] => return ⟨major, minor, patch, pre.getD [], build.getD []⟩
  | c :: _ => throw (.unexpectedAfter last c)

/-- Takes one `v` off the front. -/
def dropMark : List Char → List Char
  | 'v' :: cs => cs
  | cs => cs

/-- Reads a version with white space around it and a `v` in front. -/
def parse (raw : String) : Except Fault Version :=
  parseBare (dropMark (trim raw.toList))

end AppAdmission.Version
