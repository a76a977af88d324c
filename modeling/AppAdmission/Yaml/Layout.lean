import AppAdmission.Yaml.Token

/-!
# Layout

Columns say where indented collections begin and end, and a colon says, after the fact, that what
stood before it was a key. So a layout remembers the columns of the open collections and, at every
place where a key may begin, how many tokens came before. When the colon comes, the sign of the key
is put in at that place.
-/

namespace AppAdmission.Yaml

/-- A place where a key may have begun: the number of tokens before it, where it stands, and whether
the layout allows nothing but a key there. -/
structure KeyStart where
  before : Nat
  line : Nat
  column : Nat
  offset : Nat
  required : Bool
  deriving DecidableEq, Repr

/-- What the layout of a text so far comes to. -/
structure Layout where
  /-- the tokens so far, last one first -/
  tokens : List Token := []
  /-- the column of the innermost indented collection; below zero outside of all -/
  indent : Int := -1
  /-- the columns of those around it -/
  outer : List Int := []
  /-- where a key may have begun, within the innermost brackets -/
  keyStart : Option KeyStart := none
  /-- the same within the brackets around them -/
  outerKeyStarts : List (Option KeyStart) := []
  /-- a key may begin here -/
  keyAllowed : Bool := true
  anchors : AnchorNames := {}

namespace Layout

/-- Within brackets or braces, layout means nothing. -/
def flow (l : Layout) : Bool :=
  !l.outerKeyStarts.isEmpty

/-- Adds a token at the end. -/
def push (l : Layout) (t : Token) : Layout :=
  { l with tokens := t :: l.tokens }

/-- Adds a token after the first `before` ones. -/
def insert (l : Layout) (before : Nat) (t : Token) : Layout :=
  { l with tokens := l.tokens.insertIdx (l.tokens.length - before) t }

/-- Opens an indented collection at a column beyond the innermost one. -/
def openAt (l : Layout) (column before : Nat) (start : Token) : Layout :=
  if !l.flow && l.indent < column then
    { l.insert before start with indent := column, outer := l.indent :: l.outer }
  else l

/-- Closes the indented collections beyond a column. -/
def closeBeyond (column : Int) (l : Layout) : Layout :=
  if l.flow then l else go l.indent l.outer l.tokens
where
  /-- Closes one collection after the other. -/
  go (indent : Int) (outer : List Int) (tokens : List Token) : Layout :=
    match outer with
    | [] => { l with indent := indent, outer := [], tokens := tokens }
    | o :: outer =>
      if column < indent then go o outer (.blockEnd :: tokens)
      else { l with indent := indent, outer := o :: outer, tokens := tokens }

/-- A key that was begun cannot end any more on another line, nor after 1024 bytes. -/
def expiredB (g : Glyph) (k : KeyStart) : Bool :=
  k.line < g.line || k.offset + 1024 < g.offset

/-- Gives up a begun key; nothing if the layout requires it. -/
def giveUp : Option KeyStart → Option (Option KeyStart)
  | some k => if k.required then none else some none
  | none => some none

/-- Gives up a begun key that cannot end any more. -/
def expire (g : Glyph) (k : Option KeyStart) : Option (Option KeyStart) :=
  if k.any (expiredB g) then giveUp k else some k

/-- Gives up the begun keys that cannot end any more. -/
def expireKeys (l : Layout) (g : Glyph) : Option Layout := do
  return { l with
    keyStart := ← expire g l.keyStart
    outerKeyStarts := ← l.outerKeyStarts.mapM (expire g) }

/-- Gives up the innermost begun key. -/
def dropKey (l : Layout) : Option Layout := do
  return { l with keyStart := ← giveUp l.keyStart }

/-- Notes that a key may begin here. -/
def noteKey (l : Layout) (g : Glyph) : Option Layout :=
  if l.keyAllowed then do
    let l ← l.dropKey
    let required := !l.flow && l.indent == g.column
    return { l with keyStart := some ⟨l.tokens.length, g.line, g.column, g.offset, required⟩ }
  else some l

/-- Allows or forbids a key to begin. -/
def allowKey (l : Layout) (allowed : Bool) : Layout :=
  { l with keyAllowed := allowed }

/-- Enters brackets or braces. -/
def enter (l : Layout) : Layout :=
  { l with keyStart := none, outerKeyStarts := l.keyStart :: l.outerKeyStarts }

/-- Leaves brackets or braces. -/
def leave (l : Layout) : Layout :=
  match l.outerKeyStarts with
  | k :: ks => { l with keyStart := k, outerKeyStarts := ks }
  | [] => l

/-- A layout, and the text that is still to be laid out. -/
abbrev Next := Layout × List Glyph

/-- A character that stands between two tokens: a space; a tab, where no key may begin; or the mark
before a line. -/
def skippedB (flow keyAllowed : Bool) (g : Glyph) : Bool :=
  g.char == ' ' || (g.char == '\t' && (flow || !keyAllowed)) ||
    (g.char == byteOrderMark && g.column == 0)

/-- The text from the next token on, past comments; on a new line a key may begin. -/
def toToken (l : Layout) : List Glyph → Next :=
  go l.keyAllowed false
where
  /-- Skips characters one by one. -/
  go (keyAllowed comment : Bool) : List Glyph → Next
    | [] => (l.allowKey keyAllowed, [])
    | g :: rest =>
      if isBreak g.char then go (keyAllowed || !l.flow) false rest
      else if comment || skippedB l.flow keyAllowed g then go keyAllowed comment rest
      else if g.char = '#' then go keyAllowed true rest
      else (l.allowKey keyAllowed, g :: rest)

end Layout

end AppAdmission.Yaml
