import AppAdmission.Text.Blank
import AppAdmission.Text.Split

/-!
# JSON pointers

A pointer names a place in a document by the member names and indexes that lead to it, with a
slash before each. Inside a name `~0` stands for the tilde and `~1` for the slash.
-/

namespace AppAdmission.Pointer

/-- One character of a name. -/
def escapeChar (c : Char) : List Char :=
  if c = '~' then ['~', '0'] else if c = '/' then ['~', '1'] else [c]

/-- A name as it stands in a pointer. -/
def escapeToken (token : String) : String :=
  String.ofList (token.toList.flatMap escapeChar)

/-- The pointer that goes by the given names. -/
def ofTokens (tokens : List String) : String :=
  String.ofList (tokens.flatMap fun t => '/' :: t.toList.flatMap escapeChar)

/-- Puts one character in the place of two that follow each other, from left to right. -/
def replacePair (a b c : Char) : List Char → List Char
  | x :: y :: rest =>
    if x = a ∧ y = b then c :: replacePair a b c rest else x :: replacePair a b c (y :: rest)
  | cs => cs

/-- A name read from a pointer. A tilde before another character stands for itself. -/
def unescapeToken (cs : List Char) : String :=
  String.ofList (replacePair '~' '0' '~' (replacePair '~' '1' '/' cs))

/-- The names of a pointer; nothing for text that is neither empty nor begins with a slash. -/
def tokens? (path : String) : Option (List String) :=
  match path.toList with
  | [] => some []
  | '/' :: cs => some ((Text.splitOn '/' cs).map unescapeToken)
  | _ => none

/-- Indexes are below this bound, `2 ^ 64`. -/
def indexBound : Nat := 0x10000000000000000

/-- The index that a name stands for: decimal digits, with a plus sign at most in front. -/
def index? (token : String) : Option Nat :=
  let ds := match token.toList with
    | '+' :: cs => cs
    | cs => cs
  if ds ≠ [] ∧ ds.all Text.isDigit ∧ Text.decimalValue ds < indexBound then
    some (Text.decimalValue ds)
  else none

end AppAdmission.Pointer
