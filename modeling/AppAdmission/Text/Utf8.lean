/-!
# UTF-8

Writing characters as bytes and reading bytes back. Reading never fails: bytes that spell no
character come out as a `fault` that holds the longest row of them which begins one, so a caller may
refuse the text, put a replacement character there, or say where the text went wrong.
-/

namespace AppAdmission.Utf8

/-- The bytes of a text. -/
def encode (cs : List Char) : List UInt8 :=
  cs.flatMap String.utf8EncodeChar

/-- What reading bytes yields: a character, or bytes that spell none. A fault is `cut` when the
input ended in the middle of a character. -/
inductive Piece where
  | char (c : Char)
  | fault (width : Nat) (cut : Bool)
  deriving DecidableEq, Repr

/-- Where reading stands between two bytes: at a character's start, or within one, with the value
so far, the number of bytes read and still owed, and the range of the next one. -/
inductive State where
  | start
  | within (value read owed : Nat) (low high : UInt8)

/-- The state after the first byte of a character, or nothing if it can begin none. -/
def lead (b : UInt8) : Option State :=
  if 0xC2 ≤ b && b ≤ 0xDF then some (.within (b.toNat - 0xC0) 1 1 0x80 0xBF)
  else if b == 0xE0 then some (.within 0 1 2 0xA0 0xBF)
  else if b == 0xED then some (.within 0xD 1 2 0x80 0x9F)
  else if 0xE1 ≤ b && b ≤ 0xEF then some (.within (b.toNat - 0xE0) 1 2 0x80 0xBF)
  else if b == 0xF0 then some (.within 0 1 3 0x90 0xBF)
  else if 0xF1 ≤ b && b ≤ 0xF3 then some (.within (b.toNat - 0xF0) 1 3 0x80 0xBF)
  else if b == 0xF4 then some (.within 4 1 3 0x80 0x8F)
  else none

/-- One byte at a character's start. -/
def first (b : UInt8) : List Piece × State :=
  if b < 0x80 then ([.char (Char.ofNat b.toNat)], .start)
  else match lead b with
    | some s => ([], s)
    | none => ([.fault 1 false], .start)

/-- One byte: what it completes, and the state after it. -/
def step : State → UInt8 → List Piece × State
  | .start, b => first b
  | .within value read owed low high, b =>
    if low ≤ b && b ≤ high then
      let value := value * 64 + (b.toNat - 0x80)
      if owed ≤ 1 then ([.char (Char.ofNat value)], .start)
      else ([], .within value (read + 1) (owed - 1) 0x80 0xBF)
    else
      let (out, s) := first b
      (.fault read false :: out, s)

/-- What the end of the input leaves over. -/
def finish : State → List Piece
  | .start => []
  | .within _ read _ _ _ => [.fault read true]

/-- Reads the bytes from a given state on. -/
def run : State → List UInt8 → List Piece
  | s, [] => finish s
  | s, b :: rest => (step s b).1 ++ run (step s b).2 rest

/-- The pieces of a row of bytes. -/
def decode (bytes : List UInt8) : List Piece :=
  run .start bytes

/-- The character of a piece, if it is one. -/
def Piece.char? : Piece → Option Char
  | .char c => some c
  | .fault _ _ => none

/-- The number of bytes that a piece takes up. -/
def Piece.width : Piece → Nat
  | .char c => (String.utf8EncodeChar c).length
  | .fault width _ => width

/-- The text that the bytes spell, if they are all in order. -/
def decode? (bytes : List UInt8) : Option (List Char) :=
  (decode bytes).mapM Piece.char?

/-- The text that the bytes spell, with U+FFFD for each fault. -/
def decodeLossy (bytes : List UInt8) : List Char :=
  (decode bytes).map fun p => p.char?.getD (Char.ofNat 0xFFFD)

/-- Where the first fault among the pieces begins, and whether and how far it extends. -/
def firstFault : Nat → List Piece → Option (Nat × Nat × Bool)
  | _, [] => none
  | i, .fault width cut :: _ => some (i, width, cut)
  | i, p :: rest => firstFault (i + p.width) rest

@[simp] theorem encode_nil : encode [] = [] := rfl

@[simp] theorem encode_cons (c : Char) (cs : List Char) :
    encode (c :: cs) = String.utf8EncodeChar c ++ encode cs := rfl

@[simp] theorem encode_append (a b : List Char) : encode (a ++ b) = encode a ++ encode b := by
  simp [encode]

end AppAdmission.Utf8
