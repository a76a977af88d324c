import AppAdmission.Yaml.Glyph

/-!
# Scalars

The ways to write a text: plain, in single or double quotation marks, and as an indented block.
Every reader goes over the characters once. Between words it holds the gap it has seen, whose
meaning is known only at its end: a gap within a line stays as it is, and a gap over line breaks is
folded.
-/

namespace AppAdmission.Yaml

/-- How a text is written. -/
inductive ScalarStyle where
  | plain
  | quoted
  | block
  deriving DecidableEq, Repr

/-- What a gap over line breaks becomes: a single line feed is a space, and of several the first goes
away; a first break of another kind stays. -/
def foldBreaks : List Char → List Char
  | ['\n'] => [' ']
  | '\n' :: more => more
  | breaks => breaks

/-- What a gap between two words becomes. -/
def foldGap (gap : List Char) : List Char :=
  if gap.any isBreak then foldBreaks (gap.filter isBreak) else gap

/-- A text that was read, and what follows it. -/
structure Scanned where
  text : List Char
  rest : List Glyph

/-- A text whose characters were gathered, last one first. -/
def Scanned.ofGathered (done : List Char) (rest : List Glyph) : Scanned :=
  ⟨done.reverse, rest⟩

namespace Plain

/-- A plain text that was read, whether the gap after it holds a line break, and what follows the
gap. -/
structure Read where
  text : List Char
  brokeLine : Bool
  rest : List Glyph

/-- Between brackets, a colon directly before an indicator is refused. -/
def strayColonB (flow : Bool) : List Glyph → Bool
  | g :: h :: _ => flow && g.char == ':' && (isFlowIndicator h.char || h.char == '?')
  | _ => false

/-- A colon before a gap ends a plain text, and between brackets an indicator does. -/
def endsB (flow : Bool) : List Glyph → Bool
  | g :: rest => (g.char == ':' && Glyph.gapNextB rest) || (flow && isFlowIndicator g.char)
  | [] => true

/-- After a gap, a comment, a document mark or, in a block, too small a column ends a plain text. -/
def endsAfterGapB (flow : Bool) (indent : Int) : List Glyph → Bool
  | g :: rest => g.char == '#' || Glyph.documentMarkB (g :: rest) || (!flow && g.column < indent)
  | [] => true

/-- Reads a plain text whose further lines stand at column `indent` or beyond. What was read is in
`done`, last character first, and `gap` is the gap since the last word. A tab may not stand before
that column. -/
def read (flow : Bool) (indent : Int) (done gap : List Char) : List Glyph → Option Read
  | [] => some ⟨done.reverse, gap.any isBreak, []⟩
  | g :: rest =>
    if isGap g.char then
      if g.char = '\t' && gap.any isBreak && g.column < indent then none
      else read flow indent done (gap ++ [g.char]) rest
    else if strayColonB flow (g :: rest) then none
    else if endsB flow (g :: rest) || (!gap.isEmpty && endsAfterGapB flow indent (g :: rest)) then
      some ⟨done.reverse, gap.any isBreak, g :: rest⟩
    else read flow indent (g.char :: (foldGap gap).reverse ++ done) [] rest

end Plain

namespace SingleQuoted

/-- Reads a text up to the closing mark; a mark written twice stands for itself. What was read is in
`done`, last character first, and `gap` is the gap since the last word. -/
def read (done gap : List Char) : List Glyph → Option Scanned
  | [] => none
  | g :: rest =>
    if isGap g.char then read done (gap ++ [g.char]) rest
    else if Glyph.documentMarkB (g :: rest) then none
    else
      let before := (foldGap gap).reverse ++ done
      if g.char = '\'' then
        match rest with
        | h :: more =>
          if h.char = '\'' then read ('\'' :: before) [] more
          else some (.ofGathered before (h :: more))
        | [] => some (.ofGathered before [])
      else read (g.char :: before) [] rest

end SingleQuoted

namespace DoubleQuoted

/-- What is expected of the next character. -/
inductive Mode where
  /-- text after a gap -/
  | text (gap : List Char)
  /-- text after an escaped line break, of which only further breaks count -/
  | continued (breaks : List Char)
  /-- the character after a backslash -/
  | escape
  /-- digits of a character's number -/
  | hex (value owed : Nat)

/-- The characters that a mode holds back. -/
def Mode.pending : Mode → List Char
  | .text gap => foldGap gap
  | .continued breaks => breaks
  | _ => []

/-- The character that a short escape stands for. -/
def shortEscape? (c : Char) : Option Char :=
  match c with
  | '0' => some '\x00'
  | 'a' => some '\x07'
  | 'b' => some '\x08'
  | 't' | '\t' => some '\t'
  | 'n' => some '\n'
  | 'v' => some '\x0b'
  | 'f' => some '\x0c'
  | 'r' => some '\r'
  | 'e' => some '\x1b'
  | ' ' | '"' | '/' | '\\' => some c
  | 'N' => some '\u0085'
  | '_' => some '\u00a0'
  | 'L' => some '\u2028'
  | 'P' => some '\u2029'
  | _ => none

/-- How many digits follow the letter of a numeric escape. -/
def hexLength? (c : Char) : Option Nat :=
  match c with
  | 'x' => some 2
  | 'u' => some 4
  | 'U' => some 8
  | _ => none

/-- The value of a hexadecimal digit. -/
def hexValue? (c : Char) : Option Nat :=
  if '0' ≤ c && c ≤ '9' then some (c.toNat - 48)
  else if 'a' ≤ c && c ≤ 'f' then some (c.toNat - 87)
  else if 'A' ≤ c && c ≤ 'F' then some (c.toNat - 55)
  else none

/-- The character of a number, if it has one. -/
def charOf? (n : Nat) : Option Char :=
  if n.isValidChar then some (Char.ofNat n) else none

/-- What a character does: it closes the text, or adds to it and changes what is expected. -/
inductive Step where
  | close
  | next (mode : Mode) (out : List Char)

/-- A character that is no gap, after a gap that stands for `before`. -/
def solid (before : List Char) (c : Char) : Step :=
  if c = '"' then .close
  else if c = '\\' then .next .escape before
  else .next (.text []) (before ++ [c])

/-- A character after a backslash. -/
def escaped (c : Char) : Option Step :=
  if isBreak c then some (.next (.continued []) [])
  else match shortEscape? c with
    | some d => some (.next (.text []) [d])
    | none => (hexLength? c).map fun n => .next (.hex 0 n) []

/-- A digit of a character's number. -/
def digit (value owed : Nat) (c : Char) : Option Step := do
  let d ← hexValue? c
  let value := 16 * value + d
  if 1 < owed then return .next (.hex value (owed - 1)) []
  else return .next (.text []) [← charOf? value]

/-- One character. -/
def step : Mode → Char → Option Step
  | .text gap, c => some (if isGap c then .next (.text (gap ++ [c])) [] else solid (foldGap gap) c)
  | .continued breaks, c =>
    some (if isBreak c then .next (.continued (breaks ++ [c])) []
      else if isSpace c then .next (.continued breaks) []
      else solid breaks c)
  | .escape, c => escaped c
  | .hex value owed, c => digit value owed c

/-- Reads a text up to the closing mark; what was read is in `done`, last character first. -/
def read (done : List Char) : Mode → List Glyph → Option Scanned
  | _, [] => none
  | mode, g :: rest =>
    if Glyph.documentMarkB (g :: rest) then none
    else match step mode g.char with
      | none => none
      | some .close => some (.ofGathered (mode.pending.reverse ++ done) rest)
      | some (.next mode out) => read (out.reverse ++ done) mode rest

end DoubleQuoted

namespace Block

/-- What becomes of the line breaks at the end of a block. -/
inductive Chomping where
  | strip
  | clip
  | keep
  deriving DecidableEq, Repr

/-- The marks after the sign of a block: what becomes of its end, and its indentation. -/
structure Header where
  chomping : Chomping := .clip
  indent : Option Nat := none

/-- The meaning of a chomping mark. -/
def chomping? (c : Char) : Option Chomping :=
  if c = '+' then some .keep else if c = '-' then some .strip else none

/-- The meaning of an indentation mark. -/
def indent? (c : Char) : Option Nat :=
  if '0' ≤ c && c ≤ '9' then some (c.toNat - 48) else none

/-- The marks after the sign of a block, in either order, each at most once. -/
def header : List Glyph → Header × List Glyph
  | [] => ({}, [])
  | g :: rest =>
    match chomping? g.char, indent? g.char with
    | some ch, _ =>
      match rest with
      | h :: more =>
        match indent? h.char with
        | some n => ({ chomping := ch, indent := some n }, more)
        | none => ({ chomping := ch }, rest)
      | [] => ({ chomping := ch }, [])
    | none, some n =>
      match rest with
      | h :: more =>
        match chomping? h.char with
        | some ch => ({ chomping := ch, indent := some n }, more)
        | none => ({ indent := some n }, rest)
      | [] => ({ indent := some n }, [])
    | none, none => ({}, g :: rest)

/-- The empty lines before the first line with text: their breaks, and the widest indentation seen. -/
structure Leading where
  breaks : List Char
  widest : Nat
  rest : List Glyph

/-- Reads the empty lines before the first line with text, where no column is known yet. -/
def leading : List Glyph → Option Leading
  | [] => some ⟨[], 0, []⟩
  | g :: rest =>
    if g.char = ' ' then leading rest
    else if g.char = '\t' then none
    else if isBreak g.char then
      (leading rest).map fun l => { l with breaks := g.char :: l.breaks, widest := max g.column l.widest }
    else some ⟨[], g.column, g :: rest⟩

/-- The line breaks since the last line with text, and whether that line began with a space or tab. -/
structure Pending where
  first : List Char := []
  more : List Char := []
  spaced : Bool := false

/-- What the pending breaks become before a line with text; folding joins two lines unless one of
them begins with a space or tab. -/
def Pending.text (folded : Bool) (p : Pending) (spaced : Bool) : List Char :=
  if folded && p.first == ['\n'] && !p.spaced && !spaced then
    if p.more.isEmpty then [' '] else p.more
  else p.first ++ p.more

/-- What the pending breaks become at the end. -/
def Pending.atEnd (chomping : Chomping) (p : Pending) : List Char :=
  match chomping with
  | .strip => []
  | .clip => p.first
  | .keep => p.first ++ p.more

/-- How a block is read. -/
structure Shape where
  folded : Bool
  chomping : Chomping
  indent : Nat

/-- Where a reader of a block stands. -/
inductive Place where
  /-- before the text of a line -/
  | margin (pending : Pending)
  /-- within the text of a line -/
  | line (spaced : Bool)

/-- The text with which a block ends at a place. -/
def Place.atEnd (shape : Shape) : Place → List Char
  | .margin p => p.atEnd shape.chomping
  | .line _ => []

/-- Reads the lines of a block; what was read is in `done`, last character first. A tab may not stand
in the margin. -/
def lines (shape : Shape) (done : List Char) : Place → List Glyph → Option Scanned
  | place, [] => some (.ofGathered ((place.atEnd shape).reverse ++ done) [])
  | .line spaced, g :: rest =>
    if isBreak g.char then lines shape done (.margin { first := [g.char], spaced := spaced }) rest
    else lines shape (g.char :: done) (.line spaced) rest
  | .margin p, g :: rest =>
    if g.column < shape.indent && g.char = ' ' then lines shape done (.margin p) rest
    else if g.column < shape.indent && g.char = '\t' then none
    else if isBreak g.char then lines shape done (.margin { p with more := p.more ++ [g.char] }) rest
    else if g.column = shape.indent then
      let before := (p.text shape.folded (isSpace g.char)).reverse ++ done
      lines shape (g.char :: before) (.line (isSpace g.char)) rest
    else some (.ofGathered ((p.atEnd shape.chomping).reverse ++ done) (g :: rest))

/-- Reads a block whose parent is indented by `parent` columns; a block that does not say its
indentation has that of its widest leading line, and at least one more than its parent. -/
def read (folded : Bool) (parent : Int) (gs : List Glyph) : Option Scanned := do
  let (header, gs) := header gs
  let gs ← Glyph.endLine? gs
  match header.indent with
  | some 0 => none
  | some n =>
    let indent := if 0 ≤ parent then parent.toNat + n else n
    lines ⟨folded, header.chomping, indent⟩ [] (.margin {}) gs
  | none =>
    let l ← leading gs
    let indent := max (max l.widest (parent + 1).toNat) 1
    lines ⟨folded, header.chomping, indent⟩ [] (.margin { more := l.breaks }) l.rest

end Block

end AppAdmission.Yaml
