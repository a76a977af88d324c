import Mathlib.Data.List.TakeWhile
import AppAdmission.Server.Router

/-!
# Reading timeouts

A timeout is read off a text in slices, digits and a unit in turn. `readSlices` takes them as they lie
in memory, at bytes, where a cut within a character would be the end of everything; no cut is one. What
is read is told by the parts with which the text begins: their sum is a duration if it fits into words of
64 bits, and if it does not then there is no reply to the request at all.
-/

namespace AppAdmission

namespace Text

/-- The number of bytes that a text takes up. -/
def byteLength : List Char → Nat
  | [] => 0
  | c :: cs => c.utf8Size + byteLength cs

/-- Cuts a text at a byte. There is no cut within a character or behind the end. -/
def cut? : Nat → List Char → Option (List Char × List Char)
  | 0, cs => some ([], cs)
  | _ + 1, [] => none
  | n + 1, c :: cs =>
    if n + 1 < c.utf8Size then none
    else (cut? (n + 1 - c.utf8Size) cs).map fun p => (c :: p.1, p.2)

/-- The byte at which the first character of a kind begins. -/
def byteOf? (p : Char → Bool) : List Char → Option Nat
  | [] => none
  | c :: cs => if p c then some 0 else (byteOf? p cs).map (c.utf8Size + ·)

/-- Between two texts there is a cut. -/
theorem cut?_append (xs ys : List Char) : cut? (byteLength xs) (xs ++ ys) = some (xs, ys) := by
  induction xs with
  | nil => cases ys <;> rfl
  | cons c rest ih =>
    have wide := c.utf8Size_pos
    obtain ⟨n, len⟩ : ∃ n, byteLength (c :: rest) = n + 1 := by
      refine ⟨byteLength (c :: rest) - 1, ?_⟩
      simp only [byteLength]
      omega
    have whole : n + 1 = c.utf8Size + byteLength rest := by
      rw [← len]
      rfl
    have behind : n + 1 - c.utf8Size = byteLength rest := by omega
    have outside : ¬n + 1 < c.utf8Size := by omega
    rw [len, List.cons_append, cut?, if_neg outside, behind, ih]
    rfl

theorem eq_nil_of_byteLength {cs : List Char} (empty : byteLength cs = 0) : cs = [] := by
  cases cs with
  | nil => rfl
  | cons c rest =>
    have wide := c.utf8Size_pos
    simp only [byteLength] at empty
    omega

/-- A character that is found begins behind those before it. -/
theorem byteOf?_eq_some {p : Char → Bool} {cs : List Char} {n : Nat} (found : byteOf? p cs = some n) :
    n = byteLength (cs.takeWhile fun c => !p c) := by
  induction cs generalizing n with
  | nil => cases found
  | cons c rest ih =>
    unfold byteOf? at found
    split at found
    · next here =>
      cases found
      simp [here, byteLength]
    · next other =>
      obtain ⟨m, later, rfl⟩ := Option.map_eq_some_iff.1 found
      simp [other, byteLength, ih later]

/-- Where none is found, none is. -/
theorem byteOf?_eq_none {p : Char → Bool} {cs : List Char} (nowhere : byteOf? p cs = none) :
    ∀ c ∈ cs, (!p c) = true := by
  induction cs with
  | nil => nofun
  | cons c rest ih =>
    unfold byteOf? at nowhere
    split at nowhere
    · cases nowhere
    · next other =>
      have later := ih (Option.map_eq_none_iff.1 nowhere)
      intro d there
      rcases List.mem_cons.1 there with rfl | there
      · simpa using other
      · exact later d there

/-- A text is cut where a character is found. -/
theorem cut?_byteOf? {p : Char → Bool} {cs : List Char} {n : Nat} (found : byteOf? p cs = some n) :
    cut? n cs = some (cs.takeWhile fun c => !p c, cs.dropWhile fun c => !p c) := by
  have whole := cut?_append (cs.takeWhile fun c => !p c) (cs.dropWhile fun c => !p c)
  rw [List.takeWhile_append_dropWhile] at whole
  rw [byteOf?_eq_some found, whole]

/-- It is cut at its end where none is found. -/
theorem cut?_byteOf?_getD (p : Char → Bool) (cs : List Char) :
    cut? ((byteOf? p cs).getD (byteLength cs)) cs =
      some (cs.takeWhile fun c => !p c, cs.dropWhile fun c => !p c) := by
  cases found : byteOf? p cs with
  | some n => exact cut?_byteOf? found
  | none =>
    have all := byteOf?_eq_none found
    have whole := cut?_append cs []
    rw [List.append_nil] at whole
    rw [Option.getD_none, whole, List.takeWhile_eq_self_iff.2 all, List.dropWhile_eq_nil_iff.2 all]

end Text

namespace Timeout

open Text

/-- Reads parts by slices of the text; nothing comes of a slice that does not lie between characters. -/
def readSlices : Nat → Nat → List Char → Option Reading
  | _, total, [] => some (.duration total)
  | 0, _, _ => some .notTimeout
  | fuel + 1, total, cs =>
    match byteOf? (!isDigit ·) cs with
    | none | some 0 => some .notTimeout
    | some n => do
      let (digits, rest) ← cut? n cs
      let (unit, rest) ← cut? ((byteOf? isDigit rest).getD (byteLength rest)) rest
      match part? digits unit with
      | none => some .notTimeout
      | some d =>
        if (total + d) / second < wordBound then readSlices fuel (total + d) rest else some .overflow

/-- Reads a timeout by slices. -/
def parseSlices (raw : String) : Option Reading :=
  let cs := trim raw.toList
  if cs.isEmpty then some .notTimeout else readSlices cs.length 0 cs

theorem part?_nil (digits : List Char) : part? digits [] = none := by
  simp [part?, unit?]

/-- Every slice lies between characters. -/
theorem readSlices_eq (fuel total : Nat) (cs : List Char) :
    readSlices fuel total cs = some (readParts fuel total cs) := by
  induction fuel generalizing total cs with
  | zero => cases cs <;> rfl
  | succ fuel ih =>
    rcases cs with _ | ⟨c, more⟩
    · rfl
    · simp only [readSlices, readParts]
      generalize c :: more = cs
      cases found : byteOf? (!isDigit ·) cs with
      | none =>
        have digits := byteOf?_eq_none found
        simp only [Bool.not_not] at digits
        rw [List.takeWhile_eq_self_iff.2 digits, List.dropWhile_eq_nil_iff.2 digits,
          List.takeWhile_nil, part?_nil]
        simp only [ite_self]
      | some n =>
        have front := byteOf?_eq_some found
        have cut := cut?_byteOf? found
        simp only [Bool.not_not] at front cut
        cases n with
        | zero =>
          rw [eq_nil_of_byteLength front.symm]
          rfl
        | succ n =>
          have some : cs.takeWhile isDigit ≠ [] := by
            intro none
            rw [none] at front
            cases front
          simp only [cut, cut?_byteOf?_getD, Option.bind_eq_bind, Option.bind_some,
            List.isEmpty_iff, some, if_false]
          cases part? (cs.takeWhile isDigit) ((cs.dropWhile isDigit).takeWhile (!isDigit ·)) with
          | none => rfl
          | some d =>
            simp only [ih]
            split <;> rfl

theorem parseSlices_eq (raw : String) : parseSlices raw = some (parse raw) := by
  unfold parseSlices parse
  simp only [readSlices_eq]
  split <;> rfl

/-- A unit of time. -/
inductive Measure where
  | milli
  | second
  | minute
  | hour
  deriving DecidableEq, Repr

namespace Measure

/-- How a unit is written. -/
def text : Measure → List Char
  | milli => ['m', 's']
  | second => ['s']
  | minute => ['m']
  | hour => ['h']

/-- Its length in nanoseconds. -/
def nanos : Measure → Nat
  | milli => 1000000
  | second => 1000000000
  | minute => 60000000000
  | hour => 3600000000000

theorem text_ne_nil (m : Measure) : m.text ≠ [] := by
  cases m <;> simp [text]

/-- No unit is written with a digit. -/
theorem not_isDigit_text (m : Measure) : ∀ c ∈ m.text, (!isDigit c) = true := by
  have all : m.text.all (!isDigit ·) = true := by cases m <;> rfl
  exact List.all_eq_true.1 all

end Measure

/-- The units are read as they are written. -/
theorem unit?_eq_some_iff {cs : List Char} {n : Nat} :
    unit? cs = some n ↔ ∃ m : Measure, cs = m.text ∧ n = m.nanos := by
  constructor
  · intro read
    unfold unit? at read
    split at read
    · next same => exact ⟨.milli, same, (Option.some.inj read).symm⟩
    · split at read
      · next same => exact ⟨.second, same, (Option.some.inj read).symm⟩
      · split at read
        · next same => exact ⟨.minute, same, (Option.some.inj read).symm⟩
        · split at read
          · next same => exact ⟨.hour, same, (Option.some.inj read).symm⟩
          · cases read
  · rintro ⟨m, rfl, rfl⟩
    cases m <;> rfl

/-- A part of a timeout: a number with a unit. The number fits into a word of 64 bits, and so do the
whole seconds that it stands for. -/
structure Part where
  digits : List Char
  measure : Measure
  given : digits ≠ []
  decimal : ∀ c ∈ digits, isDigit c = true
  word : decimalValue digits < wordBound
  fits : decimalValue digits * measure.nanos < wordBound * second

namespace Part

/-- How a part is written. -/
def text (p : Part) : List Char := p.digits ++ p.measure.text

/-- Its length in nanoseconds. -/
def nanos (p : Part) : Nat := decimalValue p.digits * p.measure.nanos

end Part

/-- Nothing follows, or another number. A unit ends there. -/
def Ends (rest : List Char) : Prop := ∀ c ∈ rest.head?, isDigit c = true

theorem part?_eq_some_iff {digits unit : List Char} {d : Nat} : part? digits unit = some d ↔
    ∃ m : Measure, unit = m.text ∧ decimalValue digits < wordBound ∧
      decimalValue digits * m.nanos < wordBound * second ∧ d = decimalValue digits * m.nanos := by
  have small {n : Nat} : n / second < wordBound ↔ n < wordBound * second :=
    Nat.div_lt_iff_lt_mul (by decide)
  unfold part?
  simp only [Option.bind_eq_bind, Option.bind_eq_some_iff, unit?_eq_some_iff, small]
  constructor
  · rintro ⟨_, ⟨m, same, rfl⟩, read⟩
    split at read
    · next fits => exact ⟨m, same, fits.1, fits.2, (Option.some.inj read).symm⟩
    · cases read
  · rintro ⟨m, same, word, fits, rfl⟩
    exact ⟨m.nanos, ⟨m, same, rfl⟩, if_pos ⟨word, fits⟩⟩

/-- The number and the unit of a part are what the text falls into. -/
theorem span_text (p : Part) {rest : List Char} (ends : Ends rest) :
    (p.text ++ rest).takeWhile isDigit = p.digits ∧
      ((p.text ++ rest).dropWhile isDigit).takeWhile (!isDigit ·) = p.measure.text ∧
      ((p.text ++ rest).dropWhile isDigit).dropWhile (!isDigit ·) = rest := by
  have unit := p.measure.not_isDigit_text
  have whole : p.text ++ rest = p.digits ++ (p.measure.text ++ rest) := List.append_assoc ..
  have stop : (p.measure.text ++ rest).takeWhile isDigit = [] ∧
      (p.measure.text ++ rest).dropWhile isDigit = p.measure.text ++ rest := by
    cases same : p.measure.text with
    | nil => exact absurd same p.measure.text_ne_nil
    | cons c more =>
      have first : isDigit c = false := by simpa using unit c (same ▸ List.mem_cons_self)
      simp [first]
  have later : rest.takeWhile (!isDigit ·) = [] ∧ rest.dropWhile (!isDigit ·) = rest := by
    cases rest with
    | nil => exact ⟨rfl, rfl⟩
    | cons c more =>
      have first : isDigit c = true := ends c rfl
      simp [first]
  rw [whole, List.takeWhile_append_of_pos p.decimal, List.dropWhile_append_of_pos p.decimal, stop.1,
    stop.2, List.takeWhile_append_of_pos unit, List.dropWhile_append_of_pos unit, later.1, later.2]
  simp

/-- A text that is not at its end begins with a number and a unit, or is no timeout. -/
theorem readParts_succ (fuel total : Nat) {cs : List Char} (more : cs ≠ []) :
    readParts (fuel + 1) total cs =
      if (cs.takeWhile isDigit).isEmpty then .notTimeout
      else match part? (cs.takeWhile isDigit) ((cs.dropWhile isDigit).takeWhile (!isDigit ·)) with
        | none => .notTimeout
        | some d =>
          if (total + d) / second < wordBound then
            readParts fuel (total + d) ((cs.dropWhile isDigit).dropWhile (!isDigit ·))
          else .overflow := by
  cases cs with
  | nil => exact absurd rfl more
  | cons => rfl

/-- A part in front is read and added up. -/
theorem readParts_text (fuel total : Nat) (p : Part) {rest : List Char} (ends : Ends rest) :
    readParts (fuel + 1) total (p.text ++ rest) =
      if total + p.nanos < wordBound * second then readParts fuel (total + p.nanos) rest
      else .overflow := by
  obtain ⟨number, unit, behind⟩ := span_text p ends
  have read : part? p.digits p.measure.text = some p.nanos :=
    part?_eq_some_iff.2 ⟨p.measure, rfl, p.word, p.fits, rfl⟩
  have small : (total + p.nanos) / second < wordBound ↔ total + p.nanos < wordBound * second :=
    Nat.div_lt_iff_lt_mul (by decide)
  have given : p.digits.isEmpty = false := by simpa using p.given
  have more : p.text ++ rest ≠ [] := by simp [Part.text, p.given]
  rw [readParts_succ fuel total more, number, unit, behind, given, read]
  simp only [small, Bool.false_eq_true, if_false]

theorem ends_dropWhile (cs : List Char) : Ends (cs.dropWhile (!isDigit ·)) := by
  intro c first
  have stop := List.head?_dropWhile_not (!isDigit ·) cs
  rw [Option.mem_def.1 first] at stop
  simpa using stop

/-- What is read at all begins with a part. -/
theorem exists_part {fuel total : Nat} {cs : List Char} (more : cs ≠ [])
    (read : readParts (fuel + 1) total cs ≠ .notTimeout) :
    ∃ p rest, cs = Part.text p ++ rest ∧ Ends rest := by
  rw [readParts_succ fuel total more] at read
  have whole := List.takeWhile_append_dropWhile (p := isDigit) (l := cs)
  have whole' := List.takeWhile_append_dropWhile (p := (!isDigit ·)) (l := cs.dropWhile isDigit)
  split at read
  · exact absurd rfl read
  · next given =>
    cases part : part? (cs.takeWhile isDigit) ((cs.dropWhile isDigit).takeWhile (!isDigit ·)) with
    | none =>
      rw [part] at read
      exact absurd rfl read
    | some d =>
      obtain ⟨m, unit, word, fits, -⟩ := part?_eq_some_iff.1 part
      have decimal : ∀ c ∈ cs.takeWhile isDigit, isDigit c = true :=
        fun c there => List.mem_takeWhile_imp there
      refine ⟨⟨cs.takeWhile isDigit, m, by simpa using given, decimal, word, fits⟩,
        (cs.dropWhile isDigit).dropWhile (!isDigit ·), ?_, ends_dropWhile _⟩
      rw [Part.text, List.append_assoc, ← unit, whole', whole]

/-- Parts one after another. -/
def texts (ps : List Part) : List Char := ps.flatMap Part.text

/-- The sum of parts in nanoseconds. -/
def total : List Part → Nat
  | [] => 0
  | p :: ps => p.nanos + total ps

theorem texts_cons (p : Part) (ps : List Part) (rest : List Char) :
    texts (p :: ps) ++ rest = p.text ++ (texts ps ++ rest) := by
  rw [texts, List.flatMap_cons, List.append_assoc]
  rfl

/-- The text begins with parts of which the sum does not fit. -/
def Exceeds (cs : List Char) : Prop :=
  ∃ ps rest, cs = texts ps ++ rest ∧ Ends rest ∧ wordBound * second ≤ total ps

/-- Where parts follow, a number does. -/
theorem ends_texts (ps : List Part) {rest : List Char} (ends : Ends rest) : Ends (texts ps ++ rest) := by
  cases ps with
  | nil => exact ends
  | cons p ps =>
    have digits := p.decimal
    cases same : p.digits with
    | nil => exact absurd same p.given
    | cons d ds =>
      intro c first
      have first' : d = c := by simpa [texts, Part.text, same] using first
      rw [← first']
      exact digits d (same ▸ List.mem_cons_self)

theorem length_text (p : Part) : 0 < p.text.length := by
  have given := List.length_pos_iff.2 p.given
  simp only [Part.text, List.length_append]
  omega

/-- A sum that does not fit is found in the part that brings it about. -/
theorem readParts_of_exceeds {fuel sum : Nat} {cs : List Char} {ps : List Part} {rest : List Char}
    (enough : cs.length ≤ fuel) (front : cs = texts ps ++ rest) (ends : Ends rest)
    (fits : sum < wordBound * second) (exceeds : wordBound * second ≤ sum + total ps) :
    readParts fuel sum cs = .overflow := by
  induction ps generalizing fuel sum cs with
  | nil =>
    have none : total [] = 0 := rfl
    omega
  | cons p ps ih =>
    rw [texts_cons] at front
    have long := length_text p
    have length : cs.length = p.text.length + (texts ps ++ rest).length := by
      rw [front, List.length_append]
    obtain ⟨fuel, rfl⟩ : ∃ n, fuel = n + 1 := ⟨fuel - 1, by omega⟩
    rw [total] at exceeds
    rw [front, readParts_text fuel sum p (ends_texts ps ends)]
    split
    · next fits' => exact ih (by omega) rfl fits' (by omega)
    · rfl

/-- What does not fit is the sum of parts in front. -/
theorem exists_of_overflow {fuel sum : Nat} {cs : List Char}
    (read : readParts fuel sum cs = .overflow) :
    ∃ ps rest, cs = texts ps ++ rest ∧ Ends rest ∧ wordBound * second ≤ sum + total ps := by
  induction fuel generalizing sum cs with
  | zero => cases cs <;> cases read
  | succ fuel ih =>
    by_cases finished : cs = []
    · subst finished
      cases read
    · obtain ⟨p, rest, rfl, ends⟩ := exists_part finished (by rw [read]; nofun)
      rw [readParts_text fuel sum p ends] at read
      split at read
      · obtain ⟨ps, rest', rfl, ends', exceeds⟩ := ih read
        refine ⟨p :: ps, rest', (texts_cons p ps rest').symm, ends', ?_⟩
        rw [total]
        omega
      · next exceeds =>
        refine ⟨[p], rest, (texts_cons p [] rest).symm, ends, ?_⟩
        rw [total]
        omega

/-- A duration that is read fits. -/
theorem lt_of_readParts {fuel sum d : Nat} {cs : List Char} (fits : sum < wordBound * second)
    (read : readParts fuel sum cs = .duration d) : d < wordBound * second := by
  induction fuel generalizing sum cs with
  | zero =>
    cases cs with
    | nil =>
      cases read
      exact fits
    | cons => cases read
  | succ fuel ih =>
    by_cases finished : cs = []
    · subst finished
      cases read
      exact fits
    · obtain ⟨p, rest, rfl, ends⟩ := exists_part finished (by rw [read]; nofun)
      rw [readParts_text fuel sum p ends] at read
      split at read
      · next fits' => exact ih fits' read
      · cases read

theorem parse_eq_overflow_iff (raw : String) : parse raw = .overflow ↔ Exceeds (trim raw.toList) := by
  unfold parse
  constructor
  · intro read
    simp only at read
    split at read
    · cases read
    · obtain ⟨ps, rest, front, ends, exceeds⟩ := exists_of_overflow read
      exact ⟨ps, rest, front, ends, by omega⟩
  · rintro ⟨ps, rest, front, ends, exceeds⟩
    have some : ¬(trim raw.toList).isEmpty = true := by
      intro none
      rw [List.isEmpty_iff.1 none] at front
      have empty : texts ps = [] := (List.append_eq_nil_iff.1 front.symm).1
      cases ps with
      | nil => exact absurd exceeds (by decide)
      | cons p ps =>
        have long := length_text p
        have none : p.text = [] := (List.append_eq_nil_iff.1 empty).1
        rw [none] at long
        cases long
    simp only [some, Bool.false_eq_true, if_false]
    exact readParts_of_exceeds (Nat.le_refl _) front ends (by decide) (by omega)

/-- **When a timeout can be read.** Every slice that is taken of a text lies between its characters,
so reading comes to an end. It overflows exactly if the text, without the white space around it, begins
with parts of which the sum is `2 ^ 64` seconds or more; otherwise the text is no timeout or it is a
duration below that. -/
theorem parse_outcome (raw : String) :
    parseSlices raw = some (parse raw) ∧
    (parse raw = .overflow ↔ Exceeds (trim raw.toList)) ∧
    (¬Exceeds (trim raw.toList) →
      parse raw = .notTimeout ∨ ∃ d, parse raw = .duration d ∧ d < wordBound * second) := by
  refine ⟨parseSlices_eq raw, parse_eq_overflow_iff raw, fun fits => ?_⟩
  cases read : parse raw with
  | notTimeout => exact .inl rfl
  | overflow => exact absurd ((parse_eq_overflow_iff raw).1 read) fits
  | duration d =>
    refine .inr ⟨d, rfl, ?_⟩
    unfold parse at read
    simp only at read
    split at read
    · cases read
    · exact lt_of_readParts (by decide) read

/-- A second more than fits. -/
theorem parse_overflows : parse "18446744073709551615s1s" = .overflow := by decide +kernel

end Timeout

namespace Service

open Timeout (Exceeds)

variable {σ : Type} (s : Service) (r : HttpRequest)

/-- A review overflows if its one timeout does, unless its body is too large. -/
theorem takeReview_eq_overflow_iff (webhook : Webhook App) :
    s.takeReview webhook r = .overflow ↔ r.body.length ≤ bodyLimit ∧
      ∃ raw, r.timeouts = [raw] ∧ Exceeds (Text.trim raw.toList) := by
  simp only [← Timeout.parse_eq_overflow_iff]
  unfold takeReview
  by_cases large : bodyLimit < r.body.length
  · have outside : ¬r.body.length ≤ bodyLimit := by omega
    simp only [large, outside, if_true, false_and, iff_false]
    split <;> nofun
  · have inside : r.body.length ≤ bodyLimit := by omega
    simp only [large, inside, if_false, true_and]
    split
    · next none => simp [none]
    · next raw one =>
      simp only [one, List.cons.injEq, and_true, exists_eq_left']
      split <;> next read => simp [read]
    · next _ several =>
      constructor
      · nofun
      · rintro ⟨raw, one, -⟩
        exact absurd one (several raw)

/-- The requests that get no reply at all: those for a review that come with one timeout of which the
parts do not fit, and with a body that is not too large. -/
theorem serve_eq_none_iff (env : Environment σ) (seconds : Binary64) (metrics : Registry) (state : σ) :
    s.serve env seconds r metrics state = none ↔
      (page? r.path = some .mutate ∨ page? r.path = some .validate) ∧ r.method = "POST" ∧
        r.body.length ≤ bodyLimit ∧ ∃ raw, r.timeouts = [raw] ∧ Exceeds (Text.trim raw.toList) := by
  have unanswered : s.serve env seconds r metrics state = none ↔ s.take metrics r = .overflow := by
    unfold serve
    split <;> next taken => simp [taken]
  have looked (response : HttpResponse) : takeLook response r ≠ .overflow := by
    unfold takeLook
    split
    · nofun
    · split <;> nofun
  rw [unanswered]
  unfold take
  cases page? r.path with
  | none => simp
  | some page =>
    cases page with
    | health | metrics => simp [looked]
    | mutate | validate =>
      by_cases post : r.method = "POST"
      · simp [post, s.takeReview_eq_overflow_iff r]
      · simp [post]

end Service

end AppAdmission
