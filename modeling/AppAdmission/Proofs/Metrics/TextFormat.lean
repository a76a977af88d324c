import AppAdmission.Metrics.Exposition
import AppAdmission.Proofs.Binary64.Plain
import AppAdmission.Proofs.Text.FormEncoded

/-!
# Reading the text format

The format as its readers know it: a text is made of lines, each with a line feed at its end. A line is
empty, or a comment, or a sample, which is a name, labels between braces if it has any, a number and maybe
a time in milliseconds. Blanks stand between these as one likes. In the value of a label the backslash,
the quotation mark and the line feed are escaped.

What is written for samples is read as these samples, with the value of each label as it was.
-/

namespace AppAdmission.TextFormat

/-- A sample as it is read. -/
structure Sample where
  name : String
  labels : List (String × String)
  value : List Char
  deriving DecidableEq, Repr

/-- A blank within a line. -/
def blankB (c : Char) : Bool := c == ' ' || c == '\t'

/-- What follows blanks. -/
def solid (cs : List Char) : List Char := cs.dropWhile blankB

/-- A character of a name that may stand first. -/
def leadsB (c : Char) : Bool :=
  ('a' ≤ c && c ≤ 'z') || ('A' ≤ c && c ≤ 'Z') || c == '_' || c == ':'

/-- A character of a name. -/
def namesB (c : Char) : Bool := leadsB c || Text.isDigit c

/-- The characters are a name. -/
def nameB : List Char → Bool
  | [] => false
  | c :: cs => leadsB c && cs.all namesB

/-- A name in front of the rest. -/
def name? (cs : List Char) : Option (String × List Char) :=
  let front := cs.takeWhile namesB
  if nameB front then some (String.ofList front, cs.dropWhile namesB) else none

/-- What follows a character that must come next. -/
def after? (c : Char) (cs : List Char) : Option (List Char) :=
  match solid cs with
  | [] => none
  | d :: rest => if d = c then some rest else none

/-- The character that an escape stands for. -/
def unescape? (c : Char) : Option Char :=
  if c = '\\' then some '\\'
  else if c = '"' then some '"'
  else if c = 'n' then some '\n'
  else none

/-- The value of a label behind its first quotation mark, up to the second one. -/
def quoted? : List Char → Option (List Char × List Char)
  | [] => none
  | ['\\'] => none
  | '"' :: rest => some ([], rest)
  | '\\' :: e :: rest => do
    let c ← unescape? e
    let (cs, after) ← quoted? rest
    some (c :: cs, after)
  | c :: rest => do
    let (cs, after) ← quoted? rest
    some (c :: cs, after)

/-- A label in front of the rest. The name of a label has no colon. -/
def label? (cs : List Char) : Option ((String × String) × List Char) := do
  let (name, rest) ← name? (solid cs)
  guard (':' ∉ name.toList)
  let rest ← after? '=' rest
  let rest ← after? '"' rest
  let (value, rest) ← quoted? rest
  some ((name, String.ofList value), rest)

/-- A row of digits with a point at most. -/
def mantissaB (cs : List Char) : Bool :=
  let whole := cs.takeWhile Text.isDigit
  match cs.dropWhile Text.isDigit with
  | [] => !whole.isEmpty
  | c :: part => c == '.' && part.all Text.isDigit && !(whole ++ part).isEmpty

/-- What follows a sign, if there is one. -/
def unsigned : List Char → List Char
  | '+' :: cs => cs
  | '-' :: cs => cs
  | cs => cs

/-- A row of digits, with a sign if it has one. -/
def integerB (cs : List Char) : Bool := !(unsigned cs).isEmpty && (unsigned cs).all Text.isDigit

/-- The characters are a number: a decimal, maybe with an exponent, or infinite, or none at all. -/
def numberB (cs : List Char) : Bool :=
  let text := cs.map Text.lowerAscii
  let body := unsigned text
  body == "inf".toList || body == "infinity".toList || text == "nan".toList ||
    mantissaB (body.takeWhile (· != 'e')) &&
      match body.dropWhile (· != 'e') with
      | [] => true
      | _ :: exponent => integerB exponent

/-- The words between blanks. -/
def words (cs : List Char) : List (List Char) :=
  (Text.splitOn ' ' (cs.map fun c => if blankB c then ' ' else c)).filter fun word => !word.isEmpty

/-- The number behind the labels, and maybe a time. -/
def value? (cs : List Char) : Option (List Char) :=
  match words cs with
  | [value] => if numberB value then some value else none
  | [value, time] => if numberB value && integerB time then some value else none
  | _ => none

theorem length_solid_le (cs : List Char) : (solid cs).length ≤ cs.length :=
  (List.dropWhile_sublist _).length_le

theorem length_of_after? {c : Char} {cs rest : List Char} (h : after? c cs = some rest) :
    rest.length < cs.length := by
  have le := length_solid_le cs
  unfold after? at h
  split at h
  · cases h
  · next d tail begins =>
    split at h
    · cases h
      rw [begins] at le
      exact Nat.lt_of_lt_of_le (Nat.lt_succ_self _) le
    · cases h

theorem length_of_name? {cs rest : List Char} {name : String} (h : name? cs = some (name, rest)) :
    rest.length ≤ cs.length := by
  unfold name? at h
  simp only at h
  split at h
  · cases h
    exact (List.dropWhile_sublist _).length_le
  · cases h

theorem length_of_quoted? {cs value rest : List Char} (h : quoted? cs = some (value, rest)) :
    rest.length ≤ cs.length := by
  fun_induction quoted? cs generalizing value rest with
  | case1 => cases h
  | case2 => cases h
  | case3 tail =>
    cases h
    exact Nat.le_succ _
  | case4 e tail ih =>
    obtain ⟨c, -, h⟩ := Option.bind_eq_some_iff.1 h
    obtain ⟨⟨cs, after⟩, read, h⟩ := Option.bind_eq_some_iff.1 h
    cases h
    have le := ih read
    simp only [List.length_cons]
    omega
  | case5 c tail _ _ _ ih =>
    obtain ⟨⟨cs, after⟩, read, h⟩ := Option.bind_eq_some_iff.1 h
    cases h
    exact Nat.le_succ_of_le (ih read)

theorem length_of_label? {cs rest : List Char} {label : String × String}
    (h : label? cs = some (label, rest)) : rest.length < cs.length := by
  unfold label? at h
  obtain ⟨⟨name, r1⟩, named, h⟩ := Option.bind_eq_some_iff.1 h
  obtain ⟨-, -, h⟩ := Option.bind_eq_some_iff.1 h
  obtain ⟨r2, equals, h⟩ := Option.bind_eq_some_iff.1 h
  obtain ⟨r3, opens, h⟩ := Option.bind_eq_some_iff.1 h
  obtain ⟨⟨value, r4⟩, read, h⟩ := Option.bind_eq_some_iff.1 h
  cases h
  calc rest.length
    _ ≤ r3.length := length_of_quoted? read
    _ < r2.length := length_of_after? opens
    _ ≤ r1.length := (length_of_after? equals).le
    _ ≤ (solid cs).length := length_of_name? named
    _ ≤ cs.length := length_solid_le cs

/-- Labels behind a brace, up to the brace that closes it. A comma may stand behind the last one. -/
def labels? (cs : List Char) : Option (List (String × String) × List Char) :=
  match after? '\x7d' cs with
  | some rest => some ([], rest)
  | none =>
    match _read : label? cs with
    | none => none
    | some (label, rest) =>
      match _more : after? ',' rest with
      | some rest => (labels? rest).map fun r => (label :: r.1, r.2)
      | none => (after? '\x7d' rest).map fun rest => ([label], rest)
termination_by cs.length
decreasing_by exact Nat.lt_trans (length_of_after? _more) (length_of_label? _read)

/-- A sample. -/
def sample? (cs : List Char) : Option Sample := do
  let (name, rest) ← name? (solid cs)
  let (labels, rest) ← match after? '\x7b' rest with
    | some inside => labels? inside
    | none => some ([], rest)
  let value ← value? rest
  some ⟨name, labels, value⟩

/-- The samples of a line: one, or none if it is empty or a comment. -/
def line? (cs : List Char) : Option (List Sample) :=
  match solid cs with
  | [] => some []
  | '#' :: _ => some []
  | _ => (sample? cs).map fun s => [s]

/-- The samples of lines. Nothing follows the line feed of the last one. -/
def lines? : List (List Char) → Option (List Sample)
  | [] => some []
  | [last] => if last = [] then some [] else none
  | line :: rest => do
    let samples ← line? line
    let more ← lines? rest
    some (samples ++ more)

/-- The samples of a text. -/
def read? (text : List Char) : Option (List Sample) := lines? (Text.splitOn '\n' text)

/-! ## Names, values and labels -/

theorem blankB_of_leadsB {c : Char} (h : leadsB c = true) : blankB c = false := by
  refine Bool.eq_false_iff.2 fun blank => ?_
  rcases Bool.or_eq_true_iff.1 blank with blank | blank
  · rw [beq_iff_eq.1 blank] at h
    exact absurd h (by decide)
  · rw [beq_iff_eq.1 blank] at h
    exact absurd h (by decide)

theorem exists_cons_of_nameB {name : List Char} (named : nameB name = true) :
    ∃ c cs, name = c :: cs ∧ leadsB c = true ∧ cs.all namesB = true := by
  cases name with
  | nil => cases named
  | cons c cs => exact ⟨c, cs, rfl, Bool.and_eq_true_iff.1 named⟩

theorem all_namesB {name : List Char} (named : nameB name = true) : ∀ c ∈ name, namesB c = true := by
  obtain ⟨c, cs, rfl, leads, rest⟩ := exists_cons_of_nameB named
  intro d there
  rcases List.mem_cons.1 there with rfl | there
  · exact Bool.or_eq_true_iff.2 (.inl leads)
  · exact List.all_eq_true.1 rest d there

theorem not_mem_of_nameB {name : List Char} (named : nameB name = true) {c : Char}
    (other : namesB c = false) : c ∉ name :=
  fun there => absurd (all_namesB named c there) (by simp [other])

/-- Nothing is blank in front of a name. -/
theorem solid_name {name : List Char} (named : nameB name = true) (rest : List Char) :
    solid (name ++ rest) = name ++ rest := by
  obtain ⟨c, cs, rfl, leads, -⟩ := exists_cons_of_nameB named
  exact List.dropWhile_cons_of_neg (by simp [blankB_of_leadsB leads])

/-- A name ends at the first character that is of no name. -/
theorem name?_append {name : String} (named : nameB name.toList = true) {c : Char}
    (stop : namesB c = false) (rest : List Char) : name? (name.toList ++ c :: rest) = some (name, c :: rest) := by
  have front : (name.toList ++ c :: rest).takeWhile namesB = name.toList := by
    rw [List.takeWhile_append_of_pos (all_namesB named), List.takeWhile_cons_of_neg (by simp [stop]),
      List.append_nil]
  have back : (name.toList ++ c :: rest).dropWhile namesB = c :: rest := by
    rw [List.dropWhile_append_of_pos (all_namesB named), List.dropWhile_cons_of_neg (by simp [stop])]
  unfold name?
  simp only [front, back, named, if_true, String.ofList_toList]

theorem after?_self {c : Char} (dark : blankB c = false) (rest : List Char) :
    after? c (c :: rest) = some rest := by
  have begins : solid (c :: rest) = c :: rest := List.dropWhile_cons_of_neg (by simp [dark])
  simp [after?, begins]

theorem after?_ne {c d : Char} (dark : blankB d = false) (other : d ≠ c) (rest : List Char) :
    after? c (d :: rest) = none := by
  have begins : solid (d :: rest) = d :: rest := List.dropWhile_cons_of_neg (by simp [dark])
  simp [after?, begins, other]

/-- The value of a label comes back from between its quotation marks. -/
theorem quoted?_escaped (value rest : List Char) :
    quoted? (value.flatMap Exposition.escapeChar ++ '"' :: rest) = some (value, rest) := by
  induction value with
  | nil => rfl
  | cons c cs ih =>
    rw [List.flatMap_cons, List.append_assoc]
    by_cases slash : c = '\\'
    · subst slash
      simp [Exposition.escapeChar, quoted?, unescape?, ih]
    · by_cases mark : c = '"'
      · subst mark
        simp [Exposition.escapeChar, quoted?, unescape?, ih]
      · by_cases feed : c = '\n'
        · subst feed
          simp [Exposition.escapeChar, quoted?, unescape?, ih]
        · simp [Exposition.escapeChar, slash, mark, feed, quoted?, ih]

/-- No line ends within the value of a label. -/
theorem not_mem_escapeChar (c : Char) : '\n' ∉ Exposition.escapeChar c := by
  unfold Exposition.escapeChar
  split
  · decide
  · split
    · decide
    · split
      · decide
      · next other =>
        rw [List.mem_singleton]
        exact Ne.symm other

/-- A label can be written. -/
structure Labelled (label : String × String) : Prop where
  named : nameB label.1.toList = true
  noColon : ':' ∉ label.1.toList

/-- A label is read back. -/
theorem label?_labelText {label : String × String} (valid : Labelled label) (rest : List Char) :
    label? (Exposition.labelText label ++ rest) = some (label, rest) := by
  obtain ⟨name, value⟩ := label
  have text : Exposition.labelText (name, value) ++ rest =
      name.toList ++ '=' :: '"' :: (value.toList.flatMap Exposition.escapeChar ++ '"' :: rest) := by
    simp [Exposition.labelText, Exposition.quote]
  unfold label?
  rw [text, solid_name valid.named, name?_append valid.named (by decide)]
  simp [valid.noColon, after?_self, blankB, quoted?_escaped, guard]

/-- Neither the end of the labels nor that of the line stands in front of a label. -/
theorem after?_labelText {label : String × String} (valid : Labelled label) {c : Char}
    (other : leadsB c = false) (rest : List Char) :
    after? c (Exposition.labelText label ++ rest) = none := by
  obtain ⟨d, cs, name, leads, -⟩ := exists_cons_of_nameB valid.named
  unfold Exposition.labelText
  rw [name]
  refine after?_ne (blankB_of_leadsB leads) ?_ _
  rintro rfl
  rw [leads] at other
  cases other

/-- How labels are read from the first one on. -/
theorem labels?_of_label? {cs rest : List Char} {label : String × String}
    (inside : after? '\x7d' cs = none) (read : label? cs = some (label, rest)) :
    labels? cs =
      match after? ',' rest with
      | some rest => (labels? rest).map fun r => (label :: r.1, r.2)
      | none => (after? '\x7d' rest).map fun rest => ([label], rest) := by
  rw [labels?, inside]
  simp only
  split
  · next none =>
    rw [read] at none
    cases none
  · next found =>
    rw [read] at found
    cases found
    split <;> simp [*]

/-- Labels are read back. -/
theorem labels?_joinWith {labels : List (String × String)} (valid : ∀ l ∈ labels, Labelled l)
    (rest : List Char) : labels? (Text.joinWith ',' (labels.map Exposition.labelText) ++ '\x7d' :: rest) =
      some (labels, rest) := by
  have comma : after? ',' ('\x7d' :: rest) = none := after?_ne (by decide) (by decide) rest
  have close : after? '\x7d' ('\x7d' :: rest) = some rest := after?_self (by decide) rest
  induction labels with
  | nil =>
    rw [labels?, List.map_nil, Text.joinWith, List.nil_append, close]
  | cons label more ih =>
    have first := valid label List.mem_cons_self
    have later := ih fun l there => valid l (List.mem_cons_of_mem label there)
    cases more with
    | nil =>
      rw [List.map_singleton, Text.joinWith, labels?_of_label? (after?_labelText first (by decide) _)
        (label?_labelText first _), comma, close]
      rfl
    | cons next more =>
      rw [List.map_cons, List.map_cons, Text.joinWith, List.append_assoc, List.cons_append,
        labels?_of_label? (after?_labelText first (by decide) _) (label?_labelText first _),
        after?_self (by decide)]
      rw [List.map_cons] at later
      simp only [later, Option.map_some]

/-! ## Numbers -/

/-- A digit or the point. -/
def DecimalChar (c : Char) : Prop := Text.isDigit c = true ∨ c = '.'

theorem DecimalChar.ne {c d : Char} (h : DecimalChar c) (other : Text.isDigit d = false) (point : d ≠ '.') :
    c ≠ d := by
  rintro rfl
  rcases h with digit | same
  · rw [digit] at other
    cases other
  · exact point same

theorem DecimalChar.lowerAscii {c : Char} (h : DecimalChar c) : Text.lowerAscii c = c := by
  refine if_neg fun upper => ?_
  obtain ⟨low, -⟩ := Bool.and_eq_true_iff.1 upper
  rcases h with digit | rfl
  · obtain ⟨-, high⟩ := Bool.and_eq_true_iff.1 digit
    exact absurd (Char.le_trans (of_decide_eq_true low) (of_decide_eq_true high)) (by decide)
  · exact absurd low (by decide)

theorem unsigned_of_decimal {cs : List Char} (h : ∀ c ∈ cs, DecimalChar c) : unsigned cs = cs := by
  unfold unsigned
  split
  · exact absurd rfl ((h _ List.mem_cons_self).ne (d := '+') (by decide) (by decide))
  · exact absurd rfl ((h _ List.mem_cons_self).ne (d := '-') (by decide) (by decide))
  · rfl

theorem mantissaB_of_positional {cs : List Char} (h : Binary64.Positional cs) : mantissaB cs = true := by
  unfold mantissaB
  cases h with
  | whole some digits =>
    rw [List.takeWhile_eq_self_iff.2 digits, List.dropWhile_eq_nil_iff.2 digits]
    simpa using some
  | @point ds fs some digits =>
    have front : ∀ c ∈ ds, Text.isDigit c = true := fun c there => digits c (List.mem_append_left fs there)
    have back : fs.all Text.isDigit = true :=
      List.all_eq_true.2 fun c there => digits c (List.mem_append_right ds there)
    have stop : ¬ Text.isDigit '.' = true := by decide
    rw [List.takeWhile_append_of_pos front, List.takeWhile_cons_of_neg stop, List.append_nil,
      List.dropWhile_append_of_pos front, List.dropWhile_cons_of_neg stop]
    simpa [back] using some

theorem decimal_of_positional {cs : List Char} (h : Binary64.Positional cs) : ∀ c ∈ cs, DecimalChar c := by
  intro c there
  cases h with
  | whole _ digits => exact .inl (digits c there)
  | @point ds fs _ digits =>
    rcases List.mem_append.1 there with there | there
    · exact .inl (digits c (List.mem_append_left fs there))
    · rcases List.mem_cons.1 there with rfl | there
      · exact .inr rfl
      · exact .inl (digits c (List.mem_append_right ds there))

/-- A row of digits with a point at most is a number, with a minus as without. -/
theorem numberB_of_positional {cs : List Char} (h : Binary64.Positional cs) (negative : Bool) :
    numberB ((if negative then ['-'] else []) ++ cs) = true := by
  have decimal := decimal_of_positional h
  have lower : ((if negative then ['-'] else []) ++ cs).map Text.lowerAscii =
      (if negative then ['-'] else []) ++ cs := by
    have same : cs.map Text.lowerAscii = cs :=
      (List.map_congr_left fun c there => (decimal c there).lowerAscii).trans (List.map_id cs)
    cases negative
    · exact same
    · exact congrArg ('-' :: ·) same
  have body : unsigned ((if negative then ['-'] else []) ++ cs) = cs := by
    cases negative
    · exact unsigned_of_decimal decimal
    · rfl
  have noExponent : ∀ c ∈ cs, (c != 'e') = true := by
    intro c there
    rw [bne_iff_ne]
    exact (decimal c there).ne (by decide) (by decide)
  unfold numberB
  simp only [lower, body]
  rw [List.takeWhile_eq_self_iff.2 noExponent, List.dropWhile_eq_nil_iff.2 noExponent]
  simp [mantissaB_of_positional h]

/-- A number in one piece. -/
structure Numeric (cs : List Char) : Prop where
  number : numberB cs = true
  whole : ∀ c ∈ cs, blankB c = false ∧ c ≠ '\n'

theorem numeric_of_positional {cs : List Char} (h : Binary64.Positional cs) (negative : Bool) :
    Numeric ((if negative then ['-'] else []) ++ cs) := by
  refine ⟨numberB_of_positional h negative, fun c there => ?_⟩
  rcases List.mem_append.1 there with there | there
  · cases negative
    · cases there
    · rw [List.mem_singleton.1 there]
      decide
  · have decimal := decimal_of_positional h c there
    refine ⟨?_, decimal.ne (by decide) (by decide)⟩
    rw [blankB, Bool.or_eq_false_iff, beq_eq_false_iff_ne, beq_eq_false_iff_ne]
    exact ⟨decimal.ne (by decide) (by decide), decimal.ne (by decide) (by decide)⟩

theorem numeric_plain {x : Binary64} (bounded : x.Bounded) : Numeric x.plain := by
  obtain ⟨body, text, positional⟩ := Binary64.plain_positional bounded
  rw [text]
  exact numeric_of_positional positional x.negative

theorem numeric_natText (n : Nat) : Numeric (Exposition.natText n) :=
  numeric_of_positional (.whole Nat.toDigits_ne_nil fun _ there => Number.isDigit_of_mem_toDigits there) false

/-! ## Samples -/

/-- A number without blanks is read back from behind one. -/
theorem value?_cons {value : List Char} (numeric : Numeric value) : value? (' ' :: value) = some value := by
  have whole : ∀ c ∈ value, blankB c = false := fun c there => (numeric.whole c there).1
  have same : value.map (fun c => if blankB c then ' ' else c) = value := by
    refine (List.map_congr_left fun c there => ?_).trans (List.map_id value)
    simp [whole c there]
  have fresh : ' ' ∉ value := fun there => absurd (whole ' ' there) (by decide)
  have some : value ≠ [] := by
    rintro rfl
    exact absurd numeric.number (by decide)
  have word : words (' ' :: value) = [value] := by
    unfold words
    rw [List.map_cons, same]
    simp [blankB, Text.splitOn, Text.splitOn_of_not_mem fresh, some]
  unfold value?
  rw [word]
  simp [numeric.number]

namespace Sample

/-- How a sample is written. -/
def text (s : Sample) : List Char := Exposition.sample s.name s.labels s.value

/-- A sample can be written: its names are names, and its value is a number. -/
structure Valid (s : Sample) : Prop where
  named : nameB s.name.toList = true
  labelled : ∀ l ∈ s.labels, Labelled l
  numeric : Numeric s.value

end Sample

/-- The line of a sample. -/
def sampleLine (s : Sample) : List Char :=
  s.name.toList ++ Exposition.labelsText s.labels ++ ' ' :: s.value

variable {s : Sample}

theorem sample?_sampleLine (valid : s.Valid) : sample? (sampleLine s) = some s := by
  have line : sampleLine s = s.name.toList ++ '\x7b' ::
      (Text.joinWith ',' (s.labels.map Exposition.labelText) ++ '\x7d' :: ' ' :: s.value) := by
    simp [sampleLine, Exposition.labelsText]
  unfold sample?
  rw [line, solid_name valid.named, name?_append valid.named (by decide)]
  simp [after?_self, blankB, labels?_joinWith valid.labelled, value?_cons valid.numeric]

theorem line?_sampleLine (valid : s.Valid) : line? (sampleLine s) = some [s] := by
  have begins : solid (sampleLine s) = sampleLine s := by
    unfold sampleLine
    rw [List.append_assoc, solid_name valid.named]
  obtain ⟨c, cs, name, leads, -⟩ := exists_cons_of_nameB valid.named
  have other : c ≠ '#' := by
    rintro rfl
    exact absurd leads (by decide)
  have first : sampleLine s = c :: (cs ++ Exposition.labelsText s.labels ++ ' ' :: s.value) := by
    simp [sampleLine, name]
  unfold line?
  rw [begins, sample?_sampleLine valid, first]
  simp [other]

/-- No line ends within the line of a sample. -/
theorem not_mem_sampleLine (valid : s.Valid) : '\n' ∉ sampleLine s := by
  have label : ∀ l ∈ s.labels, '\n' ∉ Exposition.labelText l := by
    intro l there
    have named := not_mem_of_nameB (valid.labelled l there).named (c := '\n') (by decide)
    simp [Exposition.labelText, Exposition.quote, named, not_mem_escapeChar]
  have labels : '\n' ∉ Text.joinWith ',' (s.labels.map Exposition.labelText) := by
    intro there
    rcases Text.mem_joinWith there with same | ⟨piece, within, there⟩
    · exact absurd same (by decide)
    · obtain ⟨l, among, rfl⟩ := List.mem_map.1 within
      exact label l among there
  have name := not_mem_of_nameB valid.named (c := '\n') (by decide)
  have value : '\n' ∉ s.value := fun there => (valid.numeric.whole _ there).2 rfl
  simp [sampleLine, Exposition.labelsText, name, labels, value]

/-! ## Texts -/

/-- A text is read as some samples, whatever stands behind it. -/
def Reads (text : List Char) (samples : List Sample) : Prop :=
  ∀ back, read? (text ++ back) = (read? back).map (samples ++ ·)

theorem Reads.read? {text : List Char} {samples : List Sample} (h : Reads text samples) :
    read? text = some samples := by
  have whole := h []
  rw [List.append_nil] at whole
  rw [whole]
  exact congrArg some (List.append_nil samples)

theorem Reads.nil : Reads [] [] := by
  intro back
  show TextFormat.read? back = (TextFormat.read? back).map id
  rw [Option.map_id, id]

theorem Reads.append {text text' : List Char} {samples samples' : List Sample} (h : Reads text samples)
    (h' : Reads text' samples') : Reads (text ++ text') (samples ++ samples') := by
  intro back
  rw [List.append_assoc, h, h', Option.map_map]
  congr 1
  funext more
  exact (List.append_assoc samples samples' more).symm

theorem Reads.flatMap {α : Type} {f : α → List Char} {g : α → List Sample} {xs : List α}
    (h : ∀ x ∈ xs, Reads (f x) (g x)) : Reads (xs.flatMap f) (xs.flatMap g) := by
  induction xs with
  | nil => exact .nil
  | cons x rest ih =>
    rw [List.flatMap_cons, List.flatMap_cons]
    exact (h x List.mem_cons_self).append (ih fun y there => h y (List.mem_cons_of_mem x there))

/-- A line is read as its samples. -/
theorem reads_line {line : List Char} {samples : List Sample} (fresh : '\n' ∉ line)
    (h : line? line = some samples) : Reads (line ++ ['\n']) samples := by
  intro back
  rw [List.append_assoc, List.singleton_append]
  unfold TextFormat.read?
  rw [Text.splitOn_append fresh]
  cases rest : Text.splitOn '\n' back with
  | nil => exact absurd rest (Text.splitOn_ne_nil _ _)
  | cons piece pieces =>
    rw [lines?]
    · rw [h]
      exact (Option.map_eq_bind).symm
    · exact List.cons_ne_nil _ _

/-- A comment has no samples. -/
theorem reads_comment {cs : List Char} (fresh : '\n' ∉ cs) : Reads ('#' :: cs ++ ['\n']) [] :=
  reads_line (by simp [fresh]) rfl

/-- The lines that introduce a family are comments. -/
theorem reads_header {name help kind : String} (h : '\n' ∉ name.toList) (h' : '\n' ∉ help.toList)
    (h'' : '\n' ∉ kind.toList) : Reads (Exposition.header name help kind) [] := by
  have two : Exposition.header name help kind =
      ('#' :: (" HELP ".toList ++ name.toList ++ ' ' :: help.toList) ++ ['\n']) ++
        ('#' :: (" TYPE ".toList ++ name.toList ++ ' ' :: kind.toList) ++ ['\n']) := by
    have about : "# HELP ".toList = '#' :: " HELP ".toList := rfl
    have typed : "\n# TYPE ".toList = '\n' :: '#' :: " TYPE ".toList := rfl
    unfold Exposition.header
    rw [about, typed]
    simp only [List.append_assoc, List.cons_append, List.nil_append]
  rw [two]
  exact (reads_comment (by simp [h, h'])).append (reads_comment (by simp [h, h'']))

/-- A sample is read back. -/
theorem Sample.Valid.reads (valid : s.Valid) : Reads s.text [s] :=
  reads_line (not_mem_sampleLine valid) (line?_sampleLine valid)

end AppAdmission.TextFormat
