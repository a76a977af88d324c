import AppAdmission.Patch.Pointer
import AppAdmission.Proofs.Json.Numeral
import AppAdmission.Proofs.Text.FormEncoded

/-!
# Pointers and their names

A well-formed pointer is the pointer of some names, and the names that are read from it are these, so
pointers and rows of names stand for each other. Which element of an array a name stands for is told by
`ordinal?`, which knows a number by its usual digits alone; `index?` knows other ways to write it, and on
a regular name the two agree.
-/

namespace AppAdmission.Pointer

/-- A tilde stands only before the digits zero and one. -/
inductive Escaped : List Char → Prop where
  | nil : Escaped []
  | zero {rest : List Char} : Escaped rest → Escaped ('~' :: '0' :: rest)
  | one {rest : List Char} : Escaped rest → Escaped ('~' :: '1' :: rest)
  | plain {c : Char} {rest : List Char} : c ≠ '~' → Escaped rest → Escaped (c :: rest)

/-- The text is a pointer: it is empty or begins with a slash, and its tildes are escapes. -/
structure WellFormed (path : String) : Prop where
  begins : path.toList.head? ∈ [none, some '/']
  escaped : Escaped path.toList

theorem Escaped.append {xs ys : List Char} (first : Escaped xs) (second : Escaped ys) :
    Escaped (xs ++ ys) := by
  induction first with
  | nil => exact second
  | zero _ ih => exact .zero ih
  | one _ ih => exact .one ih
  | plain other _ ih => exact .plain other ih

theorem escaped_escapeChar (c : Char) : Escaped (escapeChar c) := by
  unfold escapeChar
  split
  · exact .zero .nil
  · split
    · exact .one .nil
    · next other _ => exact .plain other .nil

theorem escaped_flatMap (token : List Char) : Escaped (token.flatMap escapeChar) := by
  induction token with
  | nil => exact .nil
  | cons c rest ih => exact (escaped_escapeChar c).append ih

theorem toList_ofTokens_cons (token : String) (tokens : List String) :
    (ofTokens (token :: tokens)).toList =
      '/' :: token.toList.flatMap escapeChar ++ (ofTokens tokens).toList := by
  simp [ofTokens]

theorem wellFormed_ofTokens (tokens : List String) : WellFormed (ofTokens tokens) := by
  induction tokens with
  | nil => exact ⟨by decide, .nil⟩
  | cons token rest ih =>
    constructor
    · simp [toList_ofTokens_cons]
    · rw [toList_ofTokens_cons]
      exact (Escaped.plain (by decide) (escaped_flatMap token.toList)).append ih.escaped

/-- Escaped text is a name and what follows it in a pointer. -/
theorem Escaped.exists_tokens {cs : List Char} (h : Escaped cs) :
    ∃ (token : String) (tokens : List String),
      cs = token.toList.flatMap escapeChar ++ (ofTokens tokens).toList := by
  have longer (c : Char) {rest : List Char} (found : ∃ (token : String) (tokens : List String),
      rest = token.toList.flatMap escapeChar ++ (ofTokens tokens).toList) :
      ∃ (token : String) (tokens : List String),
        escapeChar c ++ rest = token.toList.flatMap escapeChar ++ (ofTokens tokens).toList := by
    obtain ⟨token, tokens, rfl⟩ := found
    exact ⟨String.ofList (c :: token.toList), tokens, by simp⟩
  induction h with
  | nil => exact ⟨"", [], rfl⟩
  | zero _ ih => exact longer '~' ih
  | one _ ih => exact longer '/' ih
  | @plain c rest other _ ih =>
    by_cases slash : c = '/'
    · obtain ⟨token, tokens, same⟩ := ih
      exact ⟨"", token :: tokens, by simp [toList_ofTokens_cons, same, slash]⟩
    · have alone : escapeChar c = [c] := by simp [escapeChar, other, slash]
      have found := longer c ih
      rwa [alone] at found

/-- The well-formed pointers are those of rows of names. -/
theorem wellFormed_iff {path : String} : WellFormed path ↔ ∃ tokens, ofTokens tokens = path := by
  constructor
  · rintro ⟨begins, escaped⟩
    cases whole : path.toList with
    | nil => exact ⟨[], String.toList_inj.1 whole.symm⟩
    | cons c rest =>
      obtain rfl : c = '/' := by simpa [whole] using begins
      rw [whole] at escaped
      cases escaped with
      | plain _ later =>
        obtain ⟨token, tokens, same⟩ := later.exists_tokens
        refine ⟨token :: tokens, String.toList_inj.1 ?_⟩
        rw [toList_ofTokens_cons, whole, same, List.cons_append]
  · rintro ⟨tokens, rfl⟩
    exact wellFormed_ofTokens tokens

theorem replacePair_pair (a b c : Char) (rest : List Char) :
    replacePair a b c (a :: b :: rest) = c :: replacePair a b c rest := by
  rw [replacePair, if_pos ⟨rfl, rfl⟩]

theorem replacePair_ne {a x : Char} (other : x ≠ a) (b c : Char) (rest : List Char) :
    replacePair a b c (x :: rest) = x :: replacePair a b c rest := by
  cases rest with
  | nil => rfl
  | cons y rest => rw [replacePair, if_neg fun h => other h.1]

theorem replacePair_skip {b y : Char} (other : y ≠ b) (a c : Char) (rest : List Char) :
    replacePair a b c (a :: y :: rest) = a :: replacePair a b c (y :: rest) := by
  rw [replacePair, if_neg fun h => other h.2]

/-- A name with its tildes escaped, its slashes as they are. -/
def escapeTildes (token : List Char) : List Char :=
  token.flatMap fun c => if c = '~' then ['~', '0'] else [c]

/-- The slashes of a name come back first, which leaves the escapes of its tildes. -/
theorem replacePair_flatMap (token : List Char) :
    replacePair '~' '1' '/' (token.flatMap escapeChar) = escapeTildes token := by
  induction token with
  | nil => rfl
  | cons c rest ih =>
    unfold escapeTildes at ih ⊢
    rw [List.flatMap_cons, List.flatMap_cons, ← ih]
    by_cases tilde : c = '~'
    · subst tilde
      show replacePair '~' '1' '/' ('~' :: '0' :: rest.flatMap escapeChar) = _
      rw [replacePair_skip (by decide), replacePair_ne (by decide)]
      rfl
    · by_cases slash : c = '/'
      · subst slash
        exact replacePair_pair '~' '1' '/' _
      · have alone : escapeChar c = [c] := by simp [escapeChar, tilde, slash]
        rw [alone, if_neg tilde]
        exact replacePair_ne tilde '1' '/' _

theorem replacePair_escapeTildes (token : List Char) :
    replacePair '~' '0' '~' (escapeTildes token) = token := by
  induction token with
  | nil => rfl
  | cons c rest ih =>
    unfold escapeTildes at ih ⊢
    rw [List.flatMap_cons]
    split
    · next tilde =>
      rw [tilde]
      exact (replacePair_pair '~' '0' '~' _).trans (congrArg _ ih)
    · next other => exact (replacePair_ne other '0' '~' _).trans (congrArg _ ih)

theorem unescapeToken_flatMap (token : String) :
    unescapeToken (token.toList.flatMap escapeChar) = token := by
  rw [unescapeToken, replacePair_flatMap, replacePair_escapeTildes, String.ofList_toList]

theorem slash_not_mem (token : List Char) : '/' ∉ token.flatMap escapeChar := by
  intro there
  obtain ⟨c, -, there⟩ := List.mem_flatMap.1 there
  unfold escapeChar at there
  split at there
  · revert there
    decide
  · split at there
    · revert there
      decide
    · next other => exact other (List.mem_singleton.1 there).symm

/-- Between the slashes of a pointer are its names. -/
theorem splitOn_ofTokens (token : String) (tokens : List String) :
    (Text.splitOn '/' (token.toList.flatMap escapeChar ++ (ofTokens tokens).toList)).map unescapeToken =
      token :: tokens := by
  induction tokens generalizing token with
  | nil =>
    have whole : token.toList.flatMap escapeChar ++ (ofTokens []).toList =
        token.toList.flatMap escapeChar := List.append_nil _
    rw [whole, Text.splitOn_of_not_mem (slash_not_mem _), List.map_singleton, unescapeToken_flatMap]
  | cons next rest ih =>
    rw [toList_ofTokens_cons, List.cons_append, Text.splitOn_append (slash_not_mem _), List.map_cons,
      unescapeToken_flatMap, ih]

/-- The names of a pointer are read back. -/
theorem tokens?_ofTokens (tokens : List String) : tokens? (ofTokens tokens) = some tokens := by
  cases tokens with
  | nil => rfl
  | cons token rest =>
    unfold tokens?
    rw [toList_ofTokens_cons, List.cons_append]
    exact congrArg some (splitOn_ofTokens token rest)

/-- The index that a name stands for: the one with these digits. -/
def ordinal? (token : String) : Option Nat :=
  let n := Text.decimalValue token.toList
  if toString n = token then some n else none

/-- The characters of a name without a plus sign in front. -/
def unsigned (token : String) : List Char :=
  match token.toList with
  | '+' :: cs => cs
  | cs => cs

/-- The name is made of digits, with a plus sign at most in front. -/
def Numeral (token : String) : Prop := unsigned token ≠ [] ∧ (unsigned token).all Text.isDigit = true

instance (token : String) : Decidable (Numeral token) :=
  inferInstanceAs (Decidable (_ ∧ _))

/-- A name that is a numeral is that of an index in its usual digits. -/
def Regular (token : String) : Prop := Numeral token → ∃ i ∈ ordinal? token, i < indexBound

instance (token : String) : Decidable (Regular token) :=
  inferInstanceAs (Decidable (_ → _))

theorem decimalValue_toString (i : Nat) : Text.decimalValue (toString i).toList = i := by
  have digits : (toString i).toList = Nat.toDigits 10 i := Nat.toList_repr
  rw [digits, Number.decimalValue_toDigits]

theorem ordinal?_eq_some_iff {token : String} {i : Nat} :
    ordinal? token = some i ↔ token = toString i := by
  constructor
  · intro found
    simp only [ordinal?, Option.ite_none_right_eq_some, Option.some.injEq] at found
    obtain ⟨same, rfl⟩ := found
    exact same.symm
  · rintro rfl
    simp only [ordinal?, decimalValue_toString, if_true]

/-- Different names stand for different indexes. -/
theorem ordinal?_inj {token token' : String} {i : Nat} (first : ordinal? token = some i)
    (second : ordinal? token' = some i) : token = token' :=
  (ordinal?_eq_some_iff.1 first).trans (ordinal?_eq_some_iff.1 second).symm

theorem index?_eq_some_iff {token : String} {i : Nat} : index? token = some i ↔
    Numeral token ∧ Text.decimalValue (unsigned token) = i ∧ i < indexBound := by
  show (if unsigned token ≠ [] ∧ (unsigned token).all Text.isDigit ∧
    Text.decimalValue (unsigned token) < indexBound then
      some (Text.decimalValue (unsigned token)) else none) = some i ↔ _
  rw [Option.ite_none_right_eq_some, Option.some.injEq]
  constructor
  · rintro ⟨⟨some, digits, below⟩, rfl⟩
    exact ⟨⟨some, digits⟩, rfl, below⟩
  · rintro ⟨⟨some, digits⟩, rfl, below⟩
    exact ⟨⟨some, digits, below⟩, rfl⟩

theorem unsigned_toString (i : Nat) : unsigned (toString i) = Nat.toDigits 10 i := by
  have digits : (toString i).toList = Nat.toDigits 10 i := Nat.toList_repr
  unfold unsigned
  rw [digits]
  split
  · next rest same =>
    have sign : '+' ∈ Nat.toDigits 10 i := same ▸ List.mem_cons_self
    exact absurd (Number.isDigit_of_mem_toDigits sign) (by decide)
  · rfl

theorem numeral_toString (i : Nat) : Numeral (toString i) := by
  unfold Numeral
  rw [unsigned_toString]
  exact ⟨Nat.toDigits_ne_nil, List.all_eq_true.2 fun c there => Number.isDigit_of_mem_toDigits there⟩

theorem index?_toString {i : Nat} (below : i < indexBound) : index? (toString i) = some i := by
  refine index?_eq_some_iff.2 ⟨numeral_toString i, ?_, below⟩
  rw [unsigned_toString, Number.decimalValue_toDigits]

/-- A regular name stands for the index that its digits name. -/
theorem Regular.index?_eq {token : String} (h : Regular token) : index? token = ordinal? token := by
  cases found : ordinal? token with
  | none =>
    refine Option.eq_none_iff_forall_ne_some.2 fun i there => ?_
    obtain ⟨_, named, -⟩ := h (index?_eq_some_iff.1 there).1
    rw [found] at named
    cases named
  | some i =>
    obtain rfl := ordinal?_eq_some_iff.1 found
    obtain ⟨_, named, below⟩ := h (numeral_toString i)
    rw [found] at named
    cases named
    exact index?_toString below

end AppAdmission.Pointer
