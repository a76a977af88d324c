import AppAdmission.Text.Printable

/-!
# Quoted text in messages

How messages quote a character or a text: in quotation marks, with short escapes for the
backslash, NUL and three kinds of white space, the quotation mark itself escaped, and a hexadecimal
escape for every other character that cannot be shown.
-/

namespace AppAdmission.Text

/-- A hexadecimal escape, without leading zeros. -/
def hexEscape (c : Char) : List Char :=
  '\\' :: 'u' :: '\x7b' :: Nat.toDigits 16 c.toNat ++ ['\x7d']

/-- One character between the given quotation marks. -/
def escapeIn (mark c : Char) : List Char :=
  if c = '\x00' then ['\\', '0']
  else if c = '\t' then ['\\', 't']
  else if c = '\n' then ['\\', 'n']
  else if c = '\r' then ['\\', 'r']
  else if c = '\\' then ['\\', '\\']
  else if c = mark then ['\\', mark]
  else if isPrintable c then [c]
  else hexEscape c

/-- A character in single quotation marks. -/
def quoteChar (c : Char) : List Char :=
  '\'' :: escapeIn '\'' c ++ ['\'']

/-- A text in double quotation marks. -/
def quoteText (s : String) : String :=
  String.ofList ('"' :: s.toList.flatMap (escapeIn '"') ++ ['"'])

end AppAdmission.Text
