import AppAdmission.Text.Blank

/-!
# Instants

A point in time is a date and a time of day in UTC, down to the nanosecond. `parse` reads the
date-and-time form of RFC 3339 with some latitude: single digits, blanks around the separators, years
beyond four digits with a sign, and several ways to write the offset. `render` writes the one form.
-/

namespace AppAdmission

/-- A point in time in UTC. A leap second is second 59 with a billion nanoseconds or more. -/
structure Instant where
  year : Int
  month : Nat
  day : Nat
  hour : Nat
  minute : Nat
  second : Nat
  nano : Nat
  deriving DecidableEq, Repr

namespace Instant

open Text

/-- A second in nanoseconds. -/
def nanosPerSecond : Nat := 1000000000

/-- The years that have dates. -/
def yearInRangeB (year : Int) : Bool := -262143 ≤ year && year ≤ 262142

/-- A year with a 29th of February. -/
def isLeapYear (year : Int) : Bool :=
  year % 4 == 0 && (year % 100 != 0 || year % 400 == 0)

/-- The number of days in a month. -/
def daysIn (year : Int) (month : Nat) : Nat :=
  if month = 2 then if isLeapYear year then 29 else 28
  else if month = 4 ∨ month = 6 ∨ month = 9 ∨ month = 11 then 30 else 31

/-- The day after a date. -/
def dayAfter (year : Int) (month day : Nat) : Int × Nat × Nat :=
  if day < daysIn year month then (year, month, day + 1)
  else if month < 12 then (year, month + 1, 1) else (year + 1, 1, 1)

/-- The day before a date. -/
def dayBefore (year : Int) (month day : Nat) : Int × Nat × Nat :=
  if 1 < day then (year, month, day - 1)
  else if 1 < month then (year, month - 1, daysIn year (month - 1)) else (year - 1, 12, 31)

/-- Up to `most` digits, at least one, and the rest. -/
def digitsUpTo? (most : Nat) (cs : List Char) : Option (List Char × List Char) :=
  let ds := (cs.take most).takeWhile isDigit
  if ds.isEmpty then none else some (ds, cs.drop ds.length)

/-- A number of one or two digits after blanks. -/
def pair? (cs : List Char) : Option (Nat × List Char) := do
  let (ds, rest) ← digitsUpTo? 2 (trimLeft cs)
  return (decimalValue ds, rest)

/-- A year after blanks: up to four digits, or a sign and any number of them. -/
def year? (cs : List Char) : Option (Int × List Char) :=
  match trimLeft cs with
  | '-' :: rest => do
    let (ds, rest) ← digitsUpTo? rest.length rest
    return (-(decimalValue ds : Int), rest)
  | '+' :: rest => do
    let (ds, rest) ← digitsUpTo? rest.length rest
    return ((decimalValue ds : Int), rest)
  | cs => do
    let (ds, rest) ← digitsUpTo? 4 cs
    return ((decimalValue ds : Int), rest)

/-- A separator after blanks. -/
def separator? (mark : Char) (cs : List Char) : Option (List Char) :=
  match trimLeft cs with
  | c :: rest => if c = mark then some rest else none
  | [] => none

/-- A fraction of a second in nanoseconds, if there is one; digits beyond the ninth are skipped. -/
def fraction? : List Char → Option (Nat × List Char)
  | '.' :: cs => do
    let (ds, rest) ← digitsUpTo? 9 cs
    return (decimalValue ds * Nat.pow 10 (9 - ds.length), rest.dropWhile isDigit)
  | cs => some (0, cs)

/-- Two digits with nothing before them. -/
def twoDigits? : List Char → Option (Nat × List Char)
  | a :: b :: rest =>
    if isDigit a && isDigit b then some (10 * digitValue a + digitValue b, rest) else none
  | _ => none

/-- Hours and minutes of an offset after its sign, in minutes. -/
def clock? (cs : List Char) : Option (Nat × List Char) := do
  let (hours, cs) ← twoDigits? cs
  let (minutes, cs) ← twoDigits? (cs.dropWhile fun c => c == ':' || isBlank c)
  if minutes < 60 then some (60 * hours + minutes, cs) else none

/-- The offset from UTC in minutes: `UTC`, `Z`, or a sign, hours and minutes. -/
def offset? (cs : List Char) : Option (Int × List Char) :=
  if (cs.take 3).map lowerAscii = ['u', 't', 'c'] then some (0, cs.drop 3)
  else match cs with
    | 'Z' :: rest => some (0, rest)
    | 'z' :: rest => some (0, rest)
    | '+' :: rest => (clock? rest).map fun r => ((r.1 : Int), r.2)
    | '-' :: rest => (clock? rest).map fun r => (-(r.1 : Int), r.2)
    | '\u2212' :: rest => (clock? rest).map fun r => (-(r.1 : Int), r.2)
    | _ => none

/-- The instant whose local date and time are given, at an offset from UTC in minutes. -/
def ofLocal? (year : Int) (month day hour minute second nano : Nat) (offset : Int) :
    Option Instant :=
  if yearInRangeB year && 1 ≤ month && month ≤ 12 && 1 ≤ day && day ≤ daysIn year month
      && hour ≤ 23 && minute ≤ 59 && second ≤ 60 && offset.natAbs < 24 * 60 then
    let (second, nano) := if second = 60 then (59, nano + nanosPerSecond) else (second, nano)
    let total : Int := 60 * hour + minute - offset
    let (year, month, day) :=
      if total < 0 then dayBefore year month day
      else if 24 * 60 ≤ total then dayAfter year month day
      else (year, month, day)
    let inDay := (total % (24 * 60)).toNat
    if yearInRangeB year then
      some ⟨year, month, day, inDay / 60, inDay % 60, second, nano⟩
    else none
  else none

/-- Reads a date and a time with an offset. -/
def parse? (cs : List Char) : Option Instant := do
  let (year, cs) ← year? cs
  let cs ← separator? '-' cs
  let (month, cs) ← pair? cs
  let cs ← separator? '-' cs
  let (day, cs) ← pair? cs
  let cs ← match cs with
    | c :: rest => if c = 't' ∨ c = 'T' ∨ c = ' ' then some rest else none
    | [] => none
  let (hour, cs) ← pair? cs
  let cs ← separator? ':' cs
  let (minute, cs) ← pair? cs
  let cs ← separator? ':' cs
  let (second, cs) ← pair? cs
  let (nano, cs) ← fraction? cs
  let (offset, cs) ← offset? (trimLeft cs)
  if (trimLeft cs).isEmpty then ofLocal? year month day hour minute second nano offset else none

/-- A number padded with zeros to a width. -/
def padded (width n : Nat) : List Char :=
  let ds := Nat.toDigits 10 n
  List.replicate (width - ds.length) '0' ++ ds

/-- A year: four digits, or a sign and at least four digits when it has more or is negative. -/
def renderYear (year : Int) : List Char :=
  if 0 ≤ year ∧ year ≤ 9999 then padded 4 year.toNat
  else (if year < 0 then '-' else '+') :: padded 4 year.natAbs

/-- A fraction of a second in three, six or nine digits, the fewest that hold it. -/
def renderFraction (nano : Nat) : List Char :=
  if nano = 0 then []
  else if nano % 1000000 = 0 then '.' :: padded 3 (nano / 1000000)
  else if nano % 1000 = 0 then '.' :: padded 6 (nano / 1000)
  else '.' :: padded 9 nano

/-- The date and time in whole seconds, without the mark for UTC. -/
def renderSeconds (t : Instant) : List Char :=
  renderYear t.year ++ '-' :: padded 2 t.month ++ '-' :: padded 2 t.day
    ++ 'T' :: padded 2 t.hour ++ ':' :: padded 2 t.minute
    ++ ':' :: padded 2 (t.second + t.nano / nanosPerSecond)

/-- The instant as text in UTC. -/
def render (t : Instant) : String :=
  String.ofList (t.renderSeconds ++ renderFraction (t.nano % nanosPerSecond) ++ ['Z'])

/-- The instant as text in UTC without its fraction. -/
def renderWhole (t : Instant) : String :=
  String.ofList (t.renderSeconds ++ ['Z'])

end Instant

end AppAdmission
