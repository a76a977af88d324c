/-!
# Placed characters

YAML gives meaning to where a character stands, so a text is first laid out: each character gets its
line, its column and the number of bytes before it, and every line break becomes one character. After
that no reader counts.
-/

namespace AppAdmission.Yaml

/-- A character with its line, its column and its offset, which is the number of bytes before it. -/
structure Glyph where
  char : Char
  line : Nat
  column : Nat
  offset : Nat
  deriving DecidableEq, Repr

/-- A character that may stand in a text at all. -/
def isAllowed (c : Char) : Bool :=
  let n := c.toNat
  n == 0x09 || n == 0x0A || n == 0x0D || (0x20 ≤ n && n ≤ 0x7E) || n == 0x85 ||
    (0xA0 ≤ n && n ≤ 0xD7FF) || (0xE000 ≤ n && n ≤ 0xFFFD) || 0x10000 ≤ n

/-- A line break of a text that is laid out: a line feed, or one of the two separators of Unicode,
which folding keeps. -/
def isBreak (c : Char) : Bool :=
  c == '\n' || c == '\u2028' || c == '\u2029'

/-- A space or a tab. -/
def isSpace (c : Char) : Bool :=
  c == ' ' || c == '\t'

/-- A space, a tab or a line break. -/
def isGap (c : Char) : Bool :=
  isSpace c || isBreak c

/-- A character of a name: a letter or digit of ASCII, `_` or `-`. -/
def isWord (c : Char) : Bool :=
  ('0' ≤ c && c ≤ '9') || ('A' ≤ c && c ≤ 'Z') || ('a' ≤ c && c ≤ 'z') || c == '_' || c == '-'

/-- A bracket, a brace or a comma: what ends a plain text between brackets. -/
def isFlowIndicator (c : Char) : Bool :=
  c == ',' || c == '[' || c == ']' || c == '\x7b' || c == '\x7d'

/-- The mark that may stand before a line and says nothing; it takes a column all the same. -/
def byteOrderMark : Char := '\ufeff'

namespace Glyph

/-- Lays a text out from a line, a column and an offset on; `done` holds the characters before, last
one first. A carriage return, alone or before a line feed, and the next-line character break a line as
a line feed does. -/
def layOut (done : List Glyph) (line column offset : Nat) : List Char → List Glyph
  | [] => done.reverse
  | '\r' :: '\n' :: rest =>
    layOut (⟨'\n', line, column, offset⟩ :: done) (line + 1) 0 (offset + 2) rest
  | c :: rest =>
    let after := offset + c.utf8Size
    if c = '\r' || c = '\u0085' then
      layOut (⟨'\n', line, column, offset⟩ :: done) (line + 1) 0 after rest
    else if isBreak c then layOut (⟨c, line, column, offset⟩ :: done) (line + 1) 0 after rest
    else layOut (⟨c, line, column, offset⟩ :: done) line (column + 1) after rest

/-- A text laid out; nothing if it holds a character that may not stand in one. -/
def ofText? (cs : List Char) : Option (List Glyph) :=
  if cs.all isAllowed then some (layOut [] 0 0 0 cs) else none

/-- The next character is this one. -/
def beginsB (c : Char) : List Glyph → Bool
  | g :: _ => g.char == c
  | [] => false

/-- What follows ends a word: a gap or the end of the text. -/
def gapNextB : List Glyph → Bool
  | g :: _ => isGap g.char
  | [] => true

/-- What follows ends a line: a line break or the end of the text. -/
def breakNextB : List Glyph → Bool
  | g :: _ => isBreak g.char
  | [] => true

/-- The first three characters stand at the start of a line, are this one, and are followed by a
gap. -/
def threefoldB (c : Char) : List Glyph → Bool
  | x :: y :: z :: rest =>
    x.column == 0 && x.char == c && y.char == c && z.char == c && gapNextB rest
  | _ => false

/-- A line that begins or ends a document. -/
def documentMarkB (gs : List Glyph) : Bool :=
  threefoldB '-' gs || threefoldB '.' gs

/-- The text from its first character that is neither space nor tab. -/
def dropSpaces (gs : List Glyph) : List Glyph :=
  gs.dropWhile fun g => isSpace g.char

/-- The text from the end of the line on. -/
def dropLine (gs : List Glyph) : List Glyph :=
  gs.dropWhile fun g => !isBreak g.char

/-- The text from the end of the line on, if at most spaces and a comment stand before it. -/
def endLine? (gs : List Glyph) : Option (List Glyph) :=
  let gs := dropSpaces gs
  let gs := if beginsB '#' gs then dropLine gs else gs
  if breakNextB gs then some (gs.drop 1) else none

end Glyph

end AppAdmission.Yaml
