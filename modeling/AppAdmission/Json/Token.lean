import AppAdmission.Json.Number

/-!
# JSON tokens

Text is cut into tokens by a machine that takes one character at a time. The text may hold
faults, which stand for bytes that spell no character: a fault is tolerated inside quotation marks,
and so are escapes of half a surrogate pair, but the token then holds no text. Whoever only skips a
value need not mind; whoever keeps it does.
-/

namespace AppAdmission.Json

/-- The tokens of JSON. A text or number without a value is well-formed and cannot be kept. -/
inductive Token where
  | openBrace
  | closeBrace
  | openBracket
  | closeBracket
  | comma
  | colon
  | null
  | bool (value : Bool)
  | num (value : Option Number)
  | str (value : Option String)
  deriving DecidableEq, Repr

/-- What a string token has gathered, last character first; nothing once it cannot be kept. -/
abbrev Gathered := Option (List Char)

namespace Token

/-- Where the machine stands between two characters. -/
inductive Mode where
  | between
  | word (gathered : List Char)
  | number (gathered : List Char)
  | text (gathered : Gathered)
  | escape (gathered : Gathered)
  | hex (gathered : Gathered) (high : Option Nat) (value owed : Nat)
  | afterHigh (gathered : Gathered) (high : Nat)
  | escapeAfterHigh (gathered : Gathered) (high : Nat)

/-- The blanks of JSON. -/
def isSpace (c : Char) : Bool :=
  c == ' ' || c == '\t' || c == '\n' || c == '\r'

/-- A character that may stand in a number. -/
def isNumeral (c : Char) : Bool :=
  Text.isDigit c || c == '-' || c == '+' || c == '.' || c == 'e' || c == 'E'

/-- A character that may stand in a literal name. -/
def isWord (c : Char) : Bool :=
  'a' ≤ c && c ≤ 'z'

/-- The token of a literal name. -/
def ofWord? (w : List Char) : Option Token :=
  if w = "null".toList then some null
  else if w = "true".toList then some (bool true)
  else if w = "false".toList then some (bool false)
  else none

/-- The token of a finished numeral. -/
def ofNumeral? (cs : List Char) : Option Token :=
  (Number.read cs).map num

/-- The token of a finished text. -/
def ofGathered (g : Gathered) : Token :=
  str (g.map fun cs => String.ofList cs.reverse)

/-- A character between two tokens. -/
def start (c : Char) : Option (List Token × Mode) :=
  if isSpace c then some ([], .between)
  else if c = '"' then some ([], .text (some []))
  else if c = '\x7b' then some ([openBrace], .between)
  else if c = '\x7d' then some ([closeBrace], .between)
  else if c = '[' then some ([openBracket], .between)
  else if c = ']' then some ([closeBracket], .between)
  else if c = ',' then some ([comma], .between)
  else if c = ':' then some ([colon], .between)
  else if isWord c then some ([], .word [c])
  else if Text.isDigit c || c == '-' then some ([], .number [c])
  else none

/-- Ends a token at a character that is not part of it. -/
def thenStart (token : Option Token) (c : Char) : Option (List Token × Mode) := do
  let t ← token
  let (ts, mode) ← start c
  return (t :: ts, mode)

/-- A character inside quotation marks. -/
def inText (g : Gathered) (c : Char) : Option (List Token × Mode) :=
  if c = '"' then some ([ofGathered g], .between)
  else if c = '\\' then some ([], .escape g)
  else if c.toNat < 0x20 then none
  else some ([], .text (g.map (c :: ·)))

/-- The character that a short escape stands for. -/
def shortEscape? (c : Char) : Option Char :=
  if c = '"' then some '"'
  else if c = '\\' then some '\\'
  else if c = '/' then some '/'
  else if c = 'b' then some '\x08'
  else if c = 'f' then some '\x0c'
  else if c = 'n' then some '\n'
  else if c = 'r' then some '\r'
  else if c = 't' then some '\t'
  else none

/-- A character after a backslash. -/
def inEscape (g : Gathered) (c : Char) : Option (List Token × Mode) :=
  if c = 'u' then some ([], .hex g none 0 4)
  else (shortEscape? c).map fun d => ([], .text (g.map (d :: ·)))

/-- The value of a hexadecimal digit. -/
def hexValue? (c : Char) : Option Nat :=
  if '0' ≤ c && c ≤ '9' then some (c.toNat - 48)
  else if 'a' ≤ c && c ≤ 'f' then some (c.toNat - 87)
  else if 'A' ≤ c && c ≤ 'F' then some (c.toNat - 55)
  else none

/-- The mode after four hexadecimal digits: a character, the first half of a pair, or the second
half of one. A half without the other spoils the text. -/
def afterHex (g : Gathered) (high : Option Nat) (unit : Nat) : Mode :=
  match high with
  | some h =>
    if 0xDC00 ≤ unit && unit ≤ 0xDFFF then
      .text (g.map (Char.ofNat (0x10000 + (h - 0xD800) * 0x400 + (unit - 0xDC00)) :: ·))
    else .text none
  | none =>
    if 0xD800 ≤ unit && unit ≤ 0xDBFF then .afterHigh g unit
    else if 0xDC00 ≤ unit && unit ≤ 0xDFFF then .text none
    else .text (g.map (Char.ofNat unit :: ·))

/-- One character: the tokens it completes, and the mode after it; nothing if it is out of place. -/
def stepChar : Mode → Char → Option (List Token × Mode)
  | .between, c => start c
  | .word w, c => if isWord c then some ([], .word (c :: w)) else thenStart (ofWord? w.reverse) c
  | .number w, c =>
    if isNumeral c then some ([], .number (c :: w)) else thenStart (ofNumeral? w.reverse) c
  | .text g, c => inText g c
  | .escape g, c => inEscape g c
  | .hex g high value owed, c => do
    let d ← hexValue? c
    let value := value * 16 + d
    return ([], if owed ≤ 1 then afterHex g high value else .hex g high value (owed - 1))
  | .afterHigh g high, c =>
    if c = '\\' then some ([], .escapeAfterHigh g high) else inText none c
  | .escapeAfterHigh g high, c =>
    if c = 'u' then some ([], .hex g (some high) 0 4) else inEscape none c

/-- One fault: it is tolerated only as a character of a text. -/
def stepFault : Mode → Option Mode
  | .text _ | .afterHigh _ _ => some (.text none)
  | _ => none

/-- One character or fault. -/
def step (mode : Mode) : Option Char → Option (List Token × Mode)
  | some c => stepChar mode c
  | none => (stepFault mode).map fun m => ([], m)

/-- What the end of the text completes. -/
def finish : Mode → Option (List Token)
  | .between => some []
  | .word w => (ofWord? w.reverse).map ([·])
  | .number w => (ofNumeral? w.reverse).map ([·])
  | _ => none

/-- Runs the machine; `done` holds the tokens so far, last one first. -/
def run (done : List Token) : Mode → List (Option Char) → Option (List Token)
  | mode, [] => (finish mode).map fun ts => done.reverse ++ ts
  | mode, c :: rest =>
    match step mode c with
    | some (ts, mode) => run (ts.reverse ++ done) mode rest
    | none => none

/-- The tokens of a text. -/
def scan (cs : List (Option Char)) : Option (List Token) :=
  run [] .between cs

end Token

end AppAdmission.Json
