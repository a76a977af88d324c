import AppAdmission.Json.Number

/-!
# Writing JSON

The compact form: no blanks, members in the order of the tree. In a text the quotation mark and
the backslash are escaped, five control characters have short escapes and the others below U+0020
have long ones; every other character stands for itself.
-/

namespace AppAdmission.Json

/-- A hexadecimal digit in lower case. -/
def hexDigit (n : Nat) : Char :=
  if n < 10 then Char.ofNat (48 + n) else Char.ofNat (87 + n)

/-- One character inside quotation marks. -/
def escapeChar (c : Char) : List Char :=
  if c = '"' then ['\\', '"']
  else if c = '\\' then ['\\', '\\']
  else if c = '\x08' then ['\\', 'b']
  else if c = '\x0c' then ['\\', 'f']
  else if c = '\n' then ['\\', 'n']
  else if c = '\r' then ['\\', 'r']
  else if c = '\t' then ['\\', 't']
  else if c.toNat < 0x20 then
    ['\\', 'u', '0', '0', hexDigit (c.toNat / 16), hexDigit (c.toNat % 16)]
  else [c]

/-- A text in quotation marks. -/
def quote (s : String) : List Char :=
  '"' :: s.toList.flatMap escapeChar ++ ['"']

/-- Separates pieces of output by commas. -/
def commas : List (List Char) → List Char
  | [] => []
  | [x] => x
  | x :: y :: rest => x ++ ',' :: commas (y :: rest)

mutual

/-- The compact text of a value. -/
def renderChars : Json → List Char
  | null => "null".toList
  | bool true => "true".toList
  | bool false => "false".toList
  | num n => n.render
  | str s => quote s
  | arr items => '[' :: commas (renderItems items) ++ [']']
  | obj members => '\x7b' :: commas (renderMembers members) ++ ['\x7d']

/-- The texts of the items of an array. -/
def renderItems : List Json → List (List Char)
  | [] => []
  | j :: rest => renderChars j :: renderItems rest

/-- The texts of the members of an object. -/
def renderMembers : List (String × Json) → List (List Char)
  | [] => []
  | (k, j) :: rest => (quote k ++ ':' :: renderChars j) :: renderMembers rest

end

/-- The compact text of a value. -/
def render (j : Json) : String := String.ofList (renderChars j)

end AppAdmission.Json
