import AppAdmission.Proofs.Json.Numeral
import AppAdmission.Proofs.Text.Blank
import AppAdmission.Version.Parser

/-!
# Versions that were written

A version that was read has numbers of 64 bits and identifiers of the allowed shapes. The text that is
written for such a version has no needless zero, no empty identifier and no white space, so it is read as
the same version again.
-/

namespace AppAdmission.Version

open Text

/-! ## What is read is sound -/

/-- An identifier that may stand in a part. -/
structure Ident (part : Part) (id : List Char) : Prop where
  chars : ∀ c ∈ id, isIdent c = true
  checked : checkIdent part id = .ok ()

/-- The numbers fit in 64 bits, and the identifiers may stand where they do. -/
structure Sound (v : Version) : Prop where
  major : v.major < numberBound
  minor : v.minor < numberBound
  patch : v.patch < numberBound
  pre : ∀ id ∈ v.pre, Ident .pre id
  build : ∀ id ∈ v.build, Ident .build id

/-- A number that is read fits. -/
theorem lt_of_readDigits {part : Part} {value n : Nat} {first : Bool} {cs rest : List Char}
    (small : value < numberBound) (read : readDigits part value first cs = .ok (n, rest)) :
    n < numberBound := by
  induction cs generalizing value first with
  | nil =>
    cases read
    exact small
  | cons c cs ih =>
    unfold readDigits at read
    split at read
    · cases read
      exact small
    · split at read
      · cases read
      · split at read
        · cases read
        · next fits => exact ih (Nat.lt_of_not_le fits) read

theorem lt_of_readNumber {part : Part} {n : Nat} {cs rest : List Char}
    (read : readNumber part cs = .ok (n, rest)) : n < numberBound := by
  unfold readNumber at read
  split at read
  · cases read
  · split at read
    · exact lt_of_readDigits (by decide) read
    · cases read

/-- An identifier that is done joins those before it. -/
theorem idents_cons {part : Part} {before : List (List Char)} {done : List Char}
    (finished : ∀ id ∈ before, Ident part id) (chars : ∀ c ∈ done, isIdent c = true)
    (checked : checkIdent part done.reverse = .ok ()) : ∀ id ∈ done.reverse :: before, Ident part id :=
  List.forall_mem_cons.2 ⟨⟨fun c own => chars c (List.mem_reverse.1 own), checked⟩, finished⟩

/-- Identifiers that are read may stand where they do, and there is one at least. -/
theorem idents_of_readIdents {part : Part} {before ids : List (List Char)} {done cs rest : List Char}
    (finished : ∀ id ∈ before, Ident part id) (chars : ∀ c ∈ done, isIdent c = true)
    (read : readIdents part before done cs = .ok (ids, rest)) :
    ids ≠ [] ∧ ∀ id ∈ ids, Ident part id := by
  induction cs generalizing before done with
  | nil =>
    unfold readIdents at read
    cases checked : checkIdent part done.reverse with
    | error fault =>
      rw [checked] at read
      cases read
    | ok =>
      rw [checked] at read
      cases read
      refine ⟨by simp, fun id there => ?_⟩
      exact idents_cons finished chars checked id (List.mem_reverse.1 there)
  | cons c cs ih =>
    unfold readIdents at read
    split at read
    · next own =>
      refine ih finished (fun d there => ?_) read
      rcases List.mem_cons.1 there with rfl | there
      · exact own
      · exact chars d there
    · cases checked : checkIdent part done.reverse with
      | error fault =>
        rw [checked] at read
        cases read
      | ok =>
        rw [checked] at read
        have finished' := idents_cons finished chars checked
        split at read
        · exact ih finished' (List.forall_mem_nil _) read
        · cases read
          exact ⟨by simp, fun id there => finished' id (List.mem_reverse.1 there)⟩

theorem ok_of_bind {ε α β : Type} {x : Except ε α} {f : α → Except ε β} {b : β}
    (h : x >>= f = .ok b) : ∃ a, x = .ok a ∧ f a = .ok b := by
  cases x with
  | error e => cases h
  | ok a => exact ⟨a, rfl, h⟩

theorem idents_of_readMarked {part : Part} {mark : Char} {cs rest : List Char}
    {ids : Option (List (List Char))} (read : readMarked part mark cs = .ok (ids, rest)) :
    ∀ id ∈ ids.getD [], Ident part id := by
  unfold readMarked at read
  split at read
  · cases read
    exact List.forall_mem_nil _
  · split at read
    · obtain ⟨⟨ids', _⟩, own, read⟩ := ok_of_bind read
      cases read
      exact (idents_of_readIdents (List.forall_mem_nil _) (List.forall_mem_nil _) own).2
    · cases read
      exact List.forall_mem_nil _

/-- A version that was read is sound. -/
theorem sound_of_parseBare {cs : List Char} {v : Version} (h : parseBare cs = .ok v) : v.Sound := by
  unfold parseBare at h
  split at h
  · cases h
  · obtain ⟨⟨major, _⟩, first, h⟩ := ok_of_bind h
    obtain ⟨_, -, h⟩ := ok_of_bind h
    obtain ⟨⟨minor, _⟩, second, h⟩ := ok_of_bind h
    obtain ⟨_, -, h⟩ := ok_of_bind h
    obtain ⟨⟨patch, _⟩, third, h⟩ := ok_of_bind h
    obtain ⟨⟨pre, _⟩, pres, h⟩ := ok_of_bind h
    obtain ⟨⟨build, _⟩, builds, h⟩ := ok_of_bind h
    simp only at h
    split at h
    · cases h
      exact ⟨lt_of_readNumber first, lt_of_readNumber second, lt_of_readNumber third,
        idents_of_readMarked pres, idents_of_readMarked builds⟩
    · cases h

/-! ## What is written is read -/

/-- The number that digits lead to behind a number. -/
def extend (value : Nat) (ds : List Char) : Nat := ds.foldl (fun n c => 10 * n + digitValue c) value

theorem le_extend (value : Nat) (ds : List Char) : value ≤ extend value ds := by
  induction ds generalizing value with
  | nil => exact Nat.le_refl value
  | cons d ds ih =>
    have more := ih (10 * value + digitValue d)
    unfold extend at more ⊢
    rw [List.foldl_cons]
    omega

/-- The text does not go on with a digit. -/
def Stops (rest : List Char) : Prop := ∀ c ∈ rest.head?, isDigit c = false

theorem readDigits_stops (part : Part) (value : Nat) (first : Bool) {rest : List Char}
    (stops : Stops rest) : readDigits part value first rest = .ok (value, rest) := by
  cases rest with
  | nil => rfl
  | cons c rest =>
    have other : isDigit c = false := stops c rfl
    simp [readDigits, other]

/-- Behind a number that is not zero every digit is read, as long as the number fits. -/
theorem readDigits_append (part : Part) {value : Nat} (first : Bool) {ds rest : List Char}
    (started : value ≠ 0) (digits : ∀ c ∈ ds, isDigit c = true) (fits : extend value ds < numberBound)
    (stops : Stops rest) :
    readDigits part value first (ds ++ rest) = .ok (extend value ds, rest) := by
  induction ds generalizing value first with
  | nil => exact readDigits_stops part value first stops
  | cons d ds ih =>
    have digit : isDigit d = true := digits d List.mem_cons_self
    have grown := le_extend (10 * value + digitValue d) ds
    have whole : extend value (d :: ds) = extend (10 * value + digitValue d) ds := rfl
    rw [whole] at fits ⊢
    have small : ¬numberBound ≤ 10 * value + digitValue d := by omega
    have later := ih false (by omega) (fun c there => digits c (List.mem_cons_of_mem d there))
      fits
    simp [readDigits, digit, started, small, later]

theorem digitValue_ne_zero {c : Char} (digit : isDigit c = true) (other : c ≠ '0') :
    digitValue c ≠ 0 := by
  intro zero
  unfold isDigit at digit
  simp only [Bool.and_eq_true, decide_eq_true_eq, Char.le_def, UInt32.le_iff_toNat_le] at digit
  have least : 48 ≤ c.toNat := digit.1
  have most : c.toNat - 48 = 0 := zero
  exact other (Char.toNat_inj.1 (show c.toNat = 48 by omega))

/-- A number is read as it is written. -/
theorem readNumber_number (part : Part) {n : Nat} {rest : List Char} (fits : n < numberBound)
    (stops : Stops rest) : readNumber part (number n ++ rest) = .ok (n, rest) := by
  rcases Nat.eq_zero_or_pos n with rfl | positive
  · have zero : number 0 ++ rest = '0' :: rest := rfl
    have digit : isDigit '0' = true := rfl
    have value : digitValue '0' = 0 := rfl
    have later := readDigits_stops part 0 false stops
    rw [zero]
    simp [readNumber, readDigits, digit, value, numberBound, later]
  · obtain ⟨d, ds, written, other⟩ := Number.head_toDigits positive
    have digits : ∀ c ∈ d :: ds, isDigit c = true :=
      fun c there => Number.isDigit_of_mem_toDigits (written ▸ there)
    have digit : isDigit d = true := digits d List.mem_cons_self
    have value : extend (digitValue d) ds = n := by
      have whole := Number.decimalValue_toDigits n
      rw [written, decimalValue, List.foldl_cons, Nat.mul_zero, Nat.zero_add] at whole
      exact whole
    have grown := le_extend (digitValue d) ds
    have small : ¬numberBound ≤ digitValue d := by omega
    have later := readDigits_append part false (digitValue_ne_zero digit other)
      (fun c there => digits c (List.mem_cons_of_mem d there)) (by rw [value]; exact fits) stops
    unfold number
    rw [written]
    simp [readNumber, readDigits, digit, small, later, value]

/-- Nothing follows that belongs to identifiers. -/
def Closes (rest : List Char) : Prop := ∀ c ∈ rest.head?, isIdent c = false ∧ c ≠ '.'

theorem readIdents_chars {part : Part} {before : List (List Char)} {done id rest : List Char}
    (chars : ∀ c ∈ id, isIdent c = true) :
    readIdents part before done (id ++ rest) = readIdents part before (id.reverse ++ done) rest := by
  induction id generalizing done with
  | nil => rfl
  | cons c id ih =>
    have own : isIdent c = true := chars c List.mem_cons_self
    rw [List.cons_append, readIdents, if_pos own, ih fun d there => chars d (List.mem_cons_of_mem c there),
      List.reverse_cons, List.append_assoc]
    rfl

/-- The last identifier is read up to what does not belong to it. -/
theorem readIdents_last {part : Part} {before : List (List Char)} {id rest : List Char}
    (ident : Ident part id) (closes : Closes rest) :
    readIdents part before [] (id ++ rest) = .ok (before.reverse ++ [id], rest) := by
  rw [readIdents_chars ident.chars, List.append_nil]
  cases rest with
  | nil => simp [readIdents, ident.checked, bind, Except.bind, pure, Except.pure]
  | cons c rest =>
    obtain ⟨other, undotted⟩ := closes c rfl
    simp [readIdents, ident.checked, other, undotted, bind, Except.bind, pure, Except.pure]

/-- Identifiers are read as they are written. -/
theorem readIdents_joinDots {part : Part} (before : List (List Char)) {ids : List (List Char)}
    {rest : List Char} (some : ids ≠ []) (idents : ∀ id ∈ ids, Ident part id) (closes : Closes rest) :
    readIdents part before [] (joinDots ids ++ rest) = .ok (before.reverse ++ ids, rest) := by
  induction ids generalizing before with
  | nil => exact absurd rfl some
  | cons id ids ih =>
    have first := idents id List.mem_cons_self
    cases ids with
    | nil => exact readIdents_last first closes
    | cons next ids =>
      have later := ih (id :: before) (List.cons_ne_nil next ids)
        fun other there => idents other (List.mem_cons_of_mem id there)
      have dot : isIdent '.' = false := rfl
      rw [joinDots, List.append_assoc, readIdents_chars first.chars, List.append_nil, List.cons_append,
        readIdents, dot, List.reverse_reverse]
      simpa [first.checked, bind, Except.bind] using later

/-- Identifiers behind their mark, if there are any. -/
def marked (mark : Char) (ids : List (List Char)) : List Char :=
  if ids.isEmpty then [] else mark :: joinDots ids

/-- Identifiers behind their mark are read as they are written. -/
theorem readMarked_marked {part : Part} (mark : Char) {ids : List (List Char)} {rest : List Char}
    (idents : ∀ id ∈ ids, Ident part id) (closes : Closes rest) (unmarked : rest.head? ≠ some mark) :
    ∃ read, readMarked part mark (marked mark ids ++ rest) = .ok (read, rest) ∧ read.getD [] = ids := by
  cases ids with
  | nil =>
    refine ⟨none, ?_, rfl⟩
    cases rest with
    | nil => rfl
    | cons c rest =>
      have other : c ≠ mark := by simpa using unmarked
      simp [marked, readMarked, other]
  | cons id ids =>
    have read := readIdents_joinDots [] (List.cons_ne_nil id ids) idents closes
    refine ⟨some (id :: ids), ?_, rfl⟩
    have shape : marked mark (id :: ids) ++ rest = mark :: (joinDots (id :: ids) ++ rest) := rfl
    rw [shape, readMarked, if_pos rfl, read]
    rfl

theorem stops_cons {c : Char} {rest : List Char} (other : isDigit c = false) : Stops (c :: rest) := by
  intro d head
  cases head
  exact other

/-- Identifiers behind a mark, or nothing, in front of a text that stops a number. -/
theorem stops_marked {mark : Char} (ids : List (List Char)) {rest : List Char} (other : isDigit mark = false)
    (stops : Stops rest) : Stops (marked mark ids ++ rest) := by
  cases ids with
  | nil => exact stops
  | cons id ids => exact stops_cons other

/-- The text of a version, part after part. -/
theorem renderChars_eq (v : Version) :
    v.renderChars = number v.major ++ '.' :: (number v.minor ++ '.' :: (number v.patch ++
      (marked '-' v.pre ++ marked '+' v.build))) := by
  simp [renderChars, marked, List.append_assoc]

/-- What is written for a sound version is read as that version. -/
theorem Sound.parseBare_renderChars {v : Version} (sound : v.Sound) : parseBare v.renderChars = .ok v := by
  have dotted (rest : List Char) : Stops ('.' :: rest) := stops_cons rfl
  have numbered : Stops (marked '+' v.build) := by
    have stops : Stops (marked '+' v.build ++ []) := stops_marked v.build rfl nofun
    rwa [List.append_nil] at stops
  have closes : Closes (marked '+' v.build) := by
    cases v.build with
    | nil => exact nofun
    | cons id ids =>
      intro c head
      cases head
      exact ⟨rfl, by decide⟩
  have closed : Closes [] := nofun
  have unmarked : (marked '+' v.build).head? ≠ some '-' := by
    cases v.build <;> simp [marked]
  obtain ⟨pre, readPre, preIds⟩ := readMarked_marked '-' sound.pre closes unmarked
  obtain ⟨build, readBuild, buildIds⟩ := readMarked_marked '+' sound.build closed nofun
  rw [List.append_nil] at readBuild
  have before : Stops (marked '-' v.pre ++ marked '+' v.build) := stops_marked v.pre rfl numbered
  have third := readNumber_number .patch sound.patch before
  have second := readNumber_number .minor sound.minor
    (dotted (number v.patch ++ (marked '-' v.pre ++ marked '+' v.build)))
  have first := readNumber_number .major sound.major
    (dotted (number v.minor ++ '.' :: (number v.patch ++ (marked '-' v.pre ++ marked '+' v.build))))
  have begun : v.renderChars.isEmpty = false := by
    rw [renderChars_eq]
    simp
  rw [parseBare, begun, renderChars_eq, first]
  simp only [Except.bind, bind, pure, Except.pure, readDot, second, third, readPre, readBuild, preIds,
    buildIds, Bool.false_eq_true, if_false]

/-! ## No white space in it -/

/-- Identifiers have no white space. -/
theorem isBlank_of_isIdent {c : Char} (own : isIdent c = true) : isBlank c = false := by
  have seen : 0x2D ≤ c.toNat ∧ c.toNat ≤ 0x7A := by
    unfold isIdent isDigit at own
    simp only [Bool.or_eq_true, Bool.and_eq_true, decide_eq_true_eq, beq_iff_eq, Char.le_def,
      UInt32.le_iff_toNat_le] at own
    have bounds : ((48 ≤ c.toNat ∧ c.toNat ≤ 57 ∨ 97 ≤ c.toNat ∧ c.toNat ≤ 122) ∨
        65 ≤ c.toNat ∧ c.toNat ≤ 90) ∨ c = '-' := own
    rcases bounds with ((digit | lower) | upper) | rfl
    · omega
    · omega
    · omega
    · decide
  simp only [isBlank, Bool.or_eq_false_iff, Bool.and_eq_false_iff, decide_eq_false_iff_not,
    beq_eq_false_iff_ne]
  omega

theorem isIdent_of_isDigit {c : Char} (digit : isDigit c = true) : isIdent c = true := by
  simp [isIdent, digit]

theorem solid_joinDots {ids : List (List Char)} (solid : ∀ id ∈ ids, ∀ c ∈ id, isBlank c = false) :
    ∀ c ∈ joinDots ids, isBlank c = false := by
  induction ids with
  | nil => exact List.forall_mem_nil _
  | cons id ids ih =>
    have first := solid id List.mem_cons_self
    have later := ih fun other there => solid other (List.mem_cons_of_mem id there)
    cases ids with
    | nil => exact first
    | cons next ids =>
      have dot : isBlank '.' = false := rfl
      exact List.forall_mem_append.2 ⟨first, List.forall_mem_cons.2 ⟨dot, later⟩⟩

/-- The text of a sound version has no white space. -/
theorem Sound.solid_renderChars {v : Version} (sound : v.Sound) :
    ∀ c ∈ v.renderChars, isBlank c = false := by
  have digits (n : Nat) : ∀ c ∈ number n, isBlank c = false :=
    fun c there => isBlank_of_isIdent (isIdent_of_isDigit (Number.isDigit_of_mem_toDigits there))
  have idents {part : Part} (mark : Char) {ids : List (List Char)} (solid : isBlank mark = false)
      (own : ∀ id ∈ ids, Ident part id) : ∀ c ∈ marked mark ids, isBlank c = false := by
    unfold marked
    split
    · exact List.forall_mem_nil _
    · exact List.forall_mem_cons.2
        ⟨solid, solid_joinDots fun id there c inside => isBlank_of_isIdent ((own id there).chars c inside)⟩
  have dot : isBlank '.' = false := rfl
  rw [renderChars_eq]
  simp only [List.forall_mem_append, List.forall_mem_cons]
  exact ⟨digits v.major, dot, digits v.minor, dot, digits v.patch, idents '-' rfl sound.pre,
    idents '+' rfl sound.build⟩

end AppAdmission.Version
