import AppAdmission.Json.Source
import AppAdmission.Proofs.Json.Scan
import AppAdmission.Proofs.Text.Utf8

/-!
# Reading written JSON

The tokens of a value build its tree. `nested` is that tree: the value itself, with the depth that
the reader notes at each container. Together with scanning, and with reading bytes as characters, what
is written as text is read as the tree of what was written.
-/

namespace AppAdmission.Json

namespace Source

/-- The deepest level among some values and a level of one's own. -/
def deepest (level : Nat) (values : List Source) : Nat :=
  values.foldl (fun r s => max r s.reach) level

mutual

/-- The tree of a value; a container that begins here has the level. -/
def nested (level : Nat) : Json → Source
  | .null => null
  | .bool b => bool b
  | .num n => num (some n)
  | .str s => str (some s)
  | .arr items => arr (nestedItems (level + 1) items) (deepest level (nestedItems (level + 1) items))
  | .obj members =>
    obj (nestedMembers (level + 1) members)
      (deepest level ((nestedMembers (level + 1) members).map (·.2)))

/-- The trees of the items of an array. -/
def nestedItems (level : Nat) : List Json → List Source
  | [] => []
  | j :: rest => nested level j :: nestedItems level rest

/-- The trees of the members of an object. -/
def nestedMembers (level : Nat) : List (String × Json) → List (Option String × Source)
  | [] => []
  | (k, j) :: rest => (some k, nested level j) :: nestedMembers level rest

end

theorem separated_cons (ts : List Token) (rows : List (List Token)) :
    Token.separated (ts :: rows) = ts ++ rows.flatMap (Token.comma :: ·) := by
  induction rows generalizing ts with
  | nil => simp [Token.separated]
  | cons us rows ih => rw [Token.separated, ih, List.flatMap_cons, List.cons_append]

theorem run_step (next : Builder) {b : Builder} {t : Token} (h : b.step t = some next)
    (ts : List Token) : b.run (t :: ts) = next.run ts := by
  rw [Builder.run, h]

/-- Where an item or a closing bracket may stand, a value begins as it does elsewhere. -/
theorem step_itemOrClose {t : Token} (stack : List Frame) (h : t ≠ .closeBracket) :
    (Builder.building stack .itemOrClose).step t = (Builder.building stack .value).step t := by
  simp [Builder.step, h]

/-- No value begins with a closing bracket. -/
theorem ofJson_ne_closeBracket (j : Json) :
    ∃ t ts, Token.ofJson j = t :: ts ∧ t ≠ .closeBracket := by
  cases j <;> exact ⟨_, _, rfl, by simp⟩

mutual

/-- The tokens of a value where one may begin put its tree in its place. -/
theorem run_value : (j : Json) → (stack : List Frame) → (ts : List Token) →
    (Builder.building stack .value).run (Token.ofJson j ++ ts) =
      (Builder.add (nested (nextLevel stack) j) stack).run ts
  | .null, _, _ => run_step _ rfl _
  | .bool _, _, _ => run_step _ rfl _
  | .num _, _, _ => run_step _ rfl _
  | .str _, _, _ => run_step _ rfl _
  | .arr [], stack, ts => by
    show (Builder.building stack .value).run (.openBracket :: .closeBracket :: ts) = _
    rw [run_step (.building (.items (nextLevel stack) (nextLevel stack) [] :: stack)
      .itemOrClose) rfl, run_step _ rfl]
    rfl
  | .arr (j :: rest), stack, ts => by
    obtain ⟨t, us, begins, open_⟩ := ofJson_ne_closeBracket j
    have first := run_value j (.items (nextLevel stack) (nextLevel stack) [] :: stack)
      ((Token.ofItems rest).flatMap (Token.comma :: ·) ++ .closeBracket :: ts)
    have others := run_items rest (nextLevel stack)
      (max (nextLevel stack) (nested (nextLevel stack + 1) j).reach)
      [nested (nextLevel stack + 1) j] stack ts
    have whole : Token.ofJson (.arr (j :: rest)) ++ ts = .openBracket :: (Token.ofJson j ++
        ((Token.ofItems rest).flatMap (Token.comma :: ·) ++ .closeBracket :: ts)) := by
      simp [Token.ofJson, Token.ofItems, separated_cons]
    rw [whole, run_step (.building (.items (nextLevel stack) (nextLevel stack) [] :: stack)
      .itemOrClose) rfl]
    have same : (Builder.building (.items (nextLevel stack) (nextLevel stack) [] :: stack)
        .itemOrClose).run (Token.ofJson j ++
          ((Token.ofItems rest).flatMap (Token.comma :: ·) ++ .closeBracket :: ts)) =
        (Builder.building (.items (nextLevel stack) (nextLevel stack) [] :: stack) .value).run
          (Token.ofJson j ++
            ((Token.ofItems rest).flatMap (Token.comma :: ·) ++ .closeBracket :: ts)) := by
      rw [begins, List.cons_append, Builder.run, Builder.run, step_itemOrClose _ open_]
    rw [same, first]
    exact others
  | .obj [], stack, ts => by
    show (Builder.building stack .value).run (.openBrace :: .closeBrace :: ts) = _
    rw [run_step (.building (.members (nextLevel stack) (nextLevel stack) [] none :: stack)
      .keyOrClose) rfl, run_step _ rfl]
    rfl
  | .obj ((k, j) :: rest), stack, ts => by
    have first := run_value j (.members (nextLevel stack) (nextLevel stack) [] (some k) :: stack)
      ((Token.ofMembers rest).flatMap (Token.comma :: ·) ++ .closeBrace :: ts)
    have others := run_members rest (nextLevel stack)
      (max (nextLevel stack) (nested (nextLevel stack + 1) j).reach)
      [(some k, nested (nextLevel stack + 1) j)] (some k) stack ts
    have whole : Token.ofJson (.obj ((k, j) :: rest)) ++ ts = .openBrace :: .str (some k) :: .colon ::
        (Token.ofJson j ++
          ((Token.ofMembers rest).flatMap (Token.comma :: ·) ++ .closeBrace :: ts)) := by
      simp [Token.ofJson, Token.ofMembers, separated_cons]
    rw [whole, run_step (.building (.members (nextLevel stack) (nextLevel stack) [] none :: stack) .keyOrClose) rfl,
      run_step (.building (.members (nextLevel stack) (nextLevel stack) [] (some k) :: stack) .colon) rfl,
      run_step (.building (.members (nextLevel stack) (nextLevel stack) [] (some k) :: stack) .value) rfl, first]
    exact others

/-- The items that follow in an array, each after a comma, and its end. -/
theorem run_items : (items : List Json) → (level reach : Nat) → (done : List Source) →
    (stack : List Frame) → (ts : List Token) →
    (Builder.building (.items level reach done :: stack) .commaOrClose).run
        ((Token.ofItems items).flatMap (Token.comma :: ·) ++ .closeBracket :: ts) =
      (Builder.add (arr (done.reverse ++ nestedItems (level + 1) items)
        (deepest reach (nestedItems (level + 1) items))) stack).run ts
  | [], level, reach, done, stack, ts => by
    rw [nestedItems, List.append_nil]
    exact run_step _ rfl ts
  | j :: rest, level, reach, done, stack, ts => by
    have whole : (Token.ofItems (j :: rest)).flatMap (Token.comma :: ·) ++ .closeBracket :: ts =
        .comma :: (Token.ofJson j ++
          ((Token.ofItems rest).flatMap (Token.comma :: ·) ++ .closeBracket :: ts)) := by
      simp [Token.ofItems]
    have others := run_items rest level (max reach (nested (level + 1) j).reach)
      (nested (level + 1) j :: done) stack ts
    rw [whole, run_step (.building (.items level reach done :: stack) .value) rfl,
      run_value j]
    refine others.trans ?_
    rw [List.reverse_cons, List.append_assoc]
    rfl

/-- The members that follow in an object, each after a comma, and its end. -/
theorem run_members : (members : List (String × Json)) → (level reach : Nat) →
    (done : List (Option String × Source)) → (key : Option String) → (stack : List Frame) →
    (ts : List Token) →
    (Builder.building (.members level reach done key :: stack) .commaOrClose).run
        ((Token.ofMembers members).flatMap (Token.comma :: ·) ++ .closeBrace :: ts) =
      (Builder.add (obj (done.reverse ++ nestedMembers (level + 1) members)
        (deepest reach ((nestedMembers (level + 1) members).map (·.2)))) stack).run ts
  | [], level, reach, done, key, stack, ts => by
    rw [nestedMembers, List.append_nil]
    exact run_step _ rfl ts
  | (k, j) :: rest, level, reach, done, key, stack, ts => by
    have whole : (Token.ofMembers ((k, j) :: rest)).flatMap (Token.comma :: ·) ++ .closeBrace :: ts =
        .comma :: .str (some k) :: .colon :: (Token.ofJson j ++
          ((Token.ofMembers rest).flatMap (Token.comma :: ·) ++ .closeBrace :: ts)) := by
      simp [Token.ofMembers]
    have others := run_members rest level (max reach (nested (level + 1) j).reach)
      ((some k, nested (level + 1) j) :: done) (some k) stack ts
    rw [whole, run_step (.building (.members level reach done key :: stack) .key) rfl,
      run_step (.building (.members level reach done (some k) :: stack) .colon) rfl,
      run_step (.building (.members level reach done (some k) :: stack) .value) rfl,
      run_value j]
    refine others.trans ?_
    rw [List.reverse_cons, List.append_assoc]
    rfl

end

/-- The tokens of a value are read as its tree. -/
theorem ofTokens?_ofJson (j : Json) : ofTokens? (Token.ofJson j) = some (nested 1 j) := by
  have all := run_value j [] []
  rw [List.append_nil] at all
  exact all

/-- The compact text of a value is read as its tree. -/
theorem ofChars?_renderChars {j : Json} (h : j.wholeB = true) :
    ofChars? j.renderChars = some (nested 1 j) := by
  unfold ofChars? ofPieces?
  rw [Token.scan_render h]
  exact ofTokens?_ofJson j

/-- The bytes of the compact text of a value are read as its tree. -/
theorem ofBytes?_encode_renderChars {j : Json} (h : j.integralB = true) :
    ofBytes? (Utf8.encode j.renderChars) = some (nested 1 j) := by
  have same : ((Utf8.decode (Utf8.encode j.renderChars)).map Utf8.Piece.char?) =
      j.renderChars.map some := by
    rw [Utf8.decode_encode, List.map_map]
    rfl
  unfold ofBytes?
  rw [same]
  exact ofChars?_renderChars (wholeB_of_integralB j h)

end Source

end AppAdmission.Json
