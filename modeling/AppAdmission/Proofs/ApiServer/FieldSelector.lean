import AppAdmission.ApiServer.Selector

/-!
# Reading field selectors

How an API server reads a field selector: the requirements stand between commas, each a field and a value
with `=`, `==` or `!=` between them, the first of these that there is. In a value a backslash goes before
each backslash, comma and equals sign that belongs to it; an equals sign without one is a fault. The
selector of a name is written without backslashes, so it is read as one requirement on exactly this name
if and only if the name has none of the three characters.
-/

namespace AppAdmission.FieldSelector

/-- How a field and a value are to compare. -/
inductive Comparison where
  | equal
  | notEqual
  deriving DecidableEq, Repr

/-- A requirement on a field of an object. -/
structure Requirement where
  field : String
  comparison : Comparison
  value : String
  deriving DecidableEq, Repr

/-- Puts a character in front of the first of some texts. -/
def extend (c : Char) : List (List Char) → List (List Char)
  | [] => [[c]]
  | t :: ts => (c :: t) :: ts

/-- The texts between commas, from a character on that a backslash stands before or not. A comma after a
backslash belongs to the text, and backslashes stay. -/
def terms : Bool → List Char → List (List Char)
  | _, [] => [[]]
  | true, c :: cs => extend c (terms false cs)
  | false, c :: cs =>
    if c = ',' then [] :: terms false cs else extend c (terms (c == '\\') cs)

/-- The field of a requirement, how it is compared, and what with, at the first comparison there is. -/
def comparison? : List Char → Option (List Char × Comparison × List Char)
  | [] => none
  | '!' :: '=' :: rest => some ([], .notEqual, rest)
  | '=' :: '=' :: rest => some ([], .equal, rest)
  | '=' :: rest => some ([], .equal, rest)
  | c :: rest => (comparison? rest).map fun (field, comparison, value) => (c :: field, comparison, value)

/-- The value that is written with backslashes. -/
def unescape : List Char → Option (List Char)
  | [] => some []
  | '\\' :: c :: rest =>
    if c = '\\' ∨ c = ',' ∨ c = '=' then (unescape rest).map (c :: ·) else none
  | c :: rest => if c = '\\' ∨ c = ',' ∨ c = '=' then none else (unescape rest).map (c :: ·)

/-- One requirement. -/
def requirement? (term : List Char) : Option Requirement := do
  let (field, comparison, value) ← comparison? term
  return { field := .ofList field, comparison := comparison, value := .ofList (← unescape value) }

/-- The requirements of a selector, all of which are to be met. -/
def read? (selector : String) : Option (List Requirement) :=
  ((terms false selector.toList).filter fun t => !t.isEmpty).mapM requirement?

/-- The requirement of exactly a name. -/
def named (name : String) : Requirement := ⟨"metadata.name", .equal, name⟩

/-- The character has no meaning of its own in a value. -/
def PlainChar (c : Char) : Prop := c ≠ '\\' ∧ c ≠ ',' ∧ c ≠ '='

/-- A name without a character that has a meaning of its own. -/
def Plain (name : String) : Prop := ∀ c ∈ name.toList, PlainChar c

instance (c : Char) : Decidable (PlainChar c) :=
  inferInstanceAs (Decidable (c ≠ '\\' ∧ c ≠ ',' ∧ c ≠ '='))

-- Named, since an instance that tries all the characters there are may be found before it.
instance (name : String) : Decidable (Plain name) :=
  List.decidableBAll PlainChar name.toList

/-- The first text is no longer than all of them, and only if it is all it is as long. -/
theorem terms_first (escaped : Bool) (cs : List Char) :
    ∃ t rest, terms escaped cs = t :: rest ∧ t.length ≤ cs.length ∧ (t.length = cs.length → t = cs) := by
  induction cs generalizing escaped with
  | nil => exact ⟨[], [], by cases escaped <;> rfl, Nat.le_refl _, fun _ => rfl⟩
  | cons c cs ih =>
    have longer (escaped' : Bool) (same : terms escaped (c :: cs) = extend c (terms escaped' cs)) :
        ∃ t rest, terms escaped (c :: cs) = t :: rest ∧ t.length ≤ (c :: cs).length ∧
          (t.length = (c :: cs).length → t = c :: cs) := by
      obtain ⟨t, rest, split, le, whole⟩ := ih escaped'
      refine ⟨c :: t, rest, by rw [same, split]; rfl, Nat.succ_le_succ le, fun all => ?_⟩
      rw [whole (Nat.succ.inj all)]
    cases escaped with
    | true => exact longer false rfl
    | false =>
      by_cases comma : c = ','
      · refine ⟨[], terms false cs, by rw [terms, if_pos comma], Nat.zero_le _, fun all => nomatch all⟩
      · exact longer (c == '\\') (by rw [terms, if_neg comma])

/-- Other characters go into the first text. -/
theorem terms_append {front : List Char} (plain : ∀ c ∈ front, c ≠ '\\' ∧ c ≠ ',') {cs t : List Char}
    {rest : List (List Char)} (split : terms false cs = t :: rest) :
    terms false (front ++ cs) = (front ++ t) :: rest := by
  induction front with
  | nil => exact split
  | cons c front ih =>
    obtain ⟨slash, comma⟩ := plain c List.mem_cons_self
    have later := ih fun d there => plain d (List.mem_cons_of_mem c there)
    have free : (c == '\\') = false := beq_false_of_ne slash
    rw [List.cons_append, terms, if_neg comma, free, later]
    rfl

/-- A value is no longer than what is written for it, and only if it needs no backslash it is as long. -/
theorem length_unescape {cs value : List Char} (h : unescape cs = some value) :
    value.length ≤ cs.length ∧ (value.length = cs.length → value = cs ∧ ∀ c ∈ cs, PlainChar c) := by
  fun_induction unescape cs generalizing value with
  | case1 =>
    cases h
    exact ⟨Nat.le_refl _, fun _ => ⟨rfl, fun _ there => nomatch there⟩⟩
  | case2 c rest special ih =>
    obtain ⟨value, read, rfl⟩ := Option.map_eq_some_iff.1 h
    obtain ⟨le, -⟩ := ih read
    simp only [List.length_cons]
    exact ⟨by omega, fun all => by omega⟩
  | case3 => cases h
  | case4 => cases h
  | case5 c rest _ plain ih =>
    obtain ⟨value, read, rfl⟩ := Option.map_eq_some_iff.1 h
    obtain ⟨le, whole⟩ := ih read
    simp only [not_or] at plain
    refine ⟨Nat.succ_le_succ le, fun all => ?_⟩
    obtain ⟨same, others⟩ := whole (Nat.succ.inj all)
    refine ⟨by rw [same], fun d there => ?_⟩
    rcases List.mem_cons.1 there with rfl | there
    · exact plain
    · exact others d there

theorem unescape_of_plain {cs : List Char} (plain : ∀ c ∈ cs, PlainChar c) : unescape cs = some cs := by
  induction cs with
  | nil => rfl
  | cons c rest ih =>
    have here := plain c List.mem_cons_self
    have later := ih fun d there => plain d (List.mem_cons_of_mem c there)
    unfold PlainChar at here
    rw [unescape.eq_def]
    simp [here, later]

/-- The field ends at the first comparison. -/
theorem comparison?_append {field : List Char} (fresh : ∀ c ∈ field, c ≠ '!' ∧ c ≠ '=') (cs : List Char) :
    comparison? (field ++ cs) =
      (comparison? cs).map fun (rest, comparison, value) => (field ++ rest, comparison, value) := by
  induction field with
  | nil => simp
  | cons c field ih =>
    obtain ⟨bang, equal⟩ := fresh c List.mem_cons_self
    have later := ih fun d there => fresh d (List.mem_cons_of_mem c there)
    rw [List.cons_append, comparison?.eq_def]
    split
    · next h => cases h
    · next h => exact absurd (List.cons.inj h).1 bang
    · next h => exact absurd (List.cons.inj h).1 equal
    · next h => exact absurd (List.cons.inj h).1 equal
    · next h =>
      obtain ⟨rfl, rfl⟩ := List.cons.inj h
      rw [later, Option.map_map]
      rfl

/-- Behind an equals sign there is the value, or another equals sign and the value. -/
theorem comparison?_equal (cs : List Char) :
    ∃ value, comparison? ('=' :: cs) = some ([], .equal, value) ∧ value.length ≤ cs.length ∧
      (value.length = cs.length → value = cs) ∧ (cs.head? ≠ some '=' → value = cs) := by
  match cs with
  | [] => exact ⟨[], rfl, Nat.le_refl _, fun _ => rfl, fun _ => rfl⟩
  | c :: rest =>
    by_cases second : c = '='
    · subst second
      refine ⟨rest, rfl, by simp, fun all => ?_, fun other => absurd rfl other⟩
      simp at all
    · refine ⟨c :: rest, ?_, Nat.le_refl _, fun _ => rfl, fun _ => rfl⟩
      simp [comparison?, second]

/-- What the selector of a name begins with. -/
def front : List Char := "metadata.name".toList ++ ['=']

theorem not_mem_front : '\\' ∉ front ∧ ',' ∉ front ∧ '!' ∉ "metadata.name".toList ∧
    '=' ∉ "metadata.name".toList := by
  decide

theorem comparison?_front (cs : List Char) :
    ∃ value, comparison? (front ++ cs) = some ("metadata.name".toList, .equal, value) ∧
      value.length ≤ cs.length ∧ (value.length = cs.length → value = cs) ∧
      (cs.head? ≠ some '=' → value = cs) := by
  obtain ⟨value, compared, le, whole, single⟩ := comparison?_equal cs
  refine ⟨value, ?_, le, whole, single⟩
  have fresh : ∀ c ∈ "metadata.name".toList, c ≠ '!' ∧ c ≠ '=' := fun c there =>
    ⟨ne_of_mem_of_not_mem there not_mem_front.2.2.1, ne_of_mem_of_not_mem there not_mem_front.2.2.2⟩
  unfold front
  rw [List.append_assoc, comparison?_append fresh, List.singleton_append, compared]
  simp

theorem requirement?_front {cs : List Char} {name : String}
    (h : requirement? (front ++ cs) = some (named name)) :
    name.toList.length ≤ cs.length ∧ (name.toList.length = cs.length → name.toList = cs ∧ Plain name) := by
  obtain ⟨value, compared, le, whole, -⟩ := comparison?_front cs
  unfold requirement? at h
  rw [compared, Option.bind_eq_bind, Option.bind_some] at h
  obtain ⟨text, read, same⟩ := Option.bind_eq_some_iff.1 h
  obtain rfl : String.ofList text = name := congrArg Requirement.value (Option.some.inj same)
  obtain ⟨le', whole'⟩ := length_unescape read
  rw [String.toList_ofList]
  refine ⟨Nat.le_trans le' le, fun all => ?_⟩
  obtain rfl := whole (by omega)
  obtain ⟨rfl, plain⟩ := whole' (by omega)
  refine ⟨rfl, ?_⟩
  unfold Plain
  rw [String.toList_ofList]
  exact plain

theorem requirement?_front_of_plain {name : String} (plain : Plain name) :
    requirement? (front ++ name.toList) = some (named name) := by
  obtain ⟨value, compared, -, -, single⟩ := comparison?_front name.toList
  have same : value = name.toList := by
    refine single fun second => ?_
    exact (plain '=' (List.mem_of_mem_head? second)).2.2 rfl
  unfold requirement?
  rw [compared, same, Option.bind_eq_bind, Option.bind_some]
  show (unescape name.toList).bind _ = _
  rw [unescape_of_plain plain, Option.bind_some]
  show some (Requirement.mk _ _ (String.ofList name.toList)) = some (named name)
  rw [String.ofList_toList, String.ofList_toList]
  rfl

/-- The selector of a name begins with a requirement on the name or a part of it. -/
theorem read?_front (name : String) :
    ∃ (t : List Char) (rest : List (List Char)), terms false name.toList = t :: rest ∧
      t.length ≤ name.toList.length ∧ (t.length = name.toList.length → t = name.toList) ∧
      read? ("metadata.name=" ++ name) = (requirement? (front ++ t)).bind fun first =>
        ((rest.filter fun t => !t.isEmpty).mapM requirement?).map fun others => first :: others := by
  obtain ⟨t, rest, split, le, whole⟩ := terms_first false name.toList
  have text : ("metadata.name=" ++ name).toList = front ++ name.toList := String.toList_append
  have plain : ∀ c ∈ front, c ≠ '\\' ∧ c ≠ ',' := fun c there =>
    ⟨ne_of_mem_of_not_mem there not_mem_front.1, ne_of_mem_of_not_mem there not_mem_front.2.1⟩
  have cut : terms false (front ++ name.toList) = (front ++ t) :: rest := terms_append plain split
  refine ⟨t, rest, split, le, whole, ?_⟩
  have full : (!(front ++ t).isEmpty) = true := rfl
  unfold read?
  rw [text, cut]
  simp only [List.filter_cons, full, if_true, List.mapM_cons]
  cases requirement? (front ++ t) with
  | none => rfl
  | some first => cases (rest.filter fun t => !t.isEmpty).mapM requirement? <;> rfl

/-- **A name is asked for exactly if it is plain.** The selector of a name is read as the one requirement
that the name be this one if and only if the name has no backslash, comma or equals sign. -/
theorem read?_named_iff (name : String) :
    read? ("metadata.name=" ++ name) = some [named name] ↔ Plain name := by
  obtain ⟨t, rest, split, le, whole, read⟩ := read?_front name
  rw [read]
  constructor
  -- A value is at most as long as what it is read from, so nothing can have been taken from a name that is
  -- read as a whole.
  · intro h
    obtain ⟨first, begun, h⟩ := Option.bind_eq_some_iff.1 h
    obtain ⟨others, -, same⟩ := Option.map_eq_some_iff.1 h
    obtain ⟨rfl, -⟩ := List.cons.inj same
    obtain ⟨le', whole'⟩ := requirement?_front begun
    exact (whole' (Nat.le_antisymm le' le)).2
  · intro plain
    have one : terms false (name.toList ++ []) = [name.toList ++ []] :=
      terms_append (fun c there => ⟨(plain c there).1, (plain c there).2.1⟩) rfl
    rw [List.append_nil, split] at one
    obtain ⟨rfl, rfl⟩ := List.cons.inj one
    rw [requirement?_front_of_plain plain]
    rfl

end AppAdmission.FieldSelector
