import Mathlib.Data.List.Forall2
import Mathlib.Tactic.IntervalCases
import AppAdmission.Json.Printer
import AppAdmission.Json.Token
import AppAdmission.Proofs.Json.Numeral

/-!
# Scanning written JSON

The compact text of a value is cut into the tokens of the value. A number or a literal name only
ends at the character after it, so `Reads cs ts` speaks of a text in front of a delimiter: from a point
between two tokens the machine takes `cs` to a point between two tokens again and yields `ts`.
-/

namespace AppAdmission

/-- An integer of 64 bits, or minus zero, which is kept as a double. -/
def Number.wholeB : Number → Bool
  | .int n => fitsB n
  | .float x => x == .zero true

namespace Json

mutual

/-- Every number in a value is an integer of 64 bits. -/
def integralB : Json → Bool
  | num (.int n) => Number.fitsB n
  | num (.float _) => false
  | arr items => integralItemsB items
  | obj members => integralMembersB members
  | _ => true

/-- `integralB` on the items of an array. -/
def integralItemsB : List Json → Bool
  | [] => true
  | j :: rest => integralB j && integralItemsB rest

/-- `integralB` on the values of members. -/
def integralMembersB : List (String × Json) → Bool
  | [] => true
  | (_, j) :: rest => integralB j && integralMembersB rest

end

mutual

/-- Every number in a value is an integer of 64 bits or minus zero. -/
def wholeB : Json → Bool
  | num n => n.wholeB
  | arr items => wholeItemsB items
  | obj members => wholeMembersB members
  | _ => true

/-- `wholeB` on the items of an array. -/
def wholeItemsB : List Json → Bool
  | [] => true
  | j :: rest => wholeB j && wholeItemsB rest

/-- `wholeB` on the values of members. -/
def wholeMembersB : List (String × Json) → Bool
  | [] => true
  | (_, j) :: rest => wholeB j && wholeMembersB rest

end

theorem wholeItemsB_iff {items : List Json} :
    wholeItemsB items = true ↔ ∀ j ∈ items, j.wholeB = true := by
  induction items with
  | nil => simp [wholeItemsB]
  | cons j rest ih => simp [wholeItemsB, ih]

theorem wholeMembersB_iff {ms : List (String × Json)} :
    wholeMembersB ms = true ↔ ∀ m ∈ ms, m.2.wholeB = true := by
  induction ms with
  | nil => simp [wholeMembersB]
  | cons m rest ih => simp [wholeMembersB, ih]

mutual

theorem wholeB_of_integralB : (j : Json) → j.integralB = true → j.wholeB = true
  | .null, _ | .bool _, _ | .str _, _ => rfl
  | .num (.int _), h => h
  | .num (.float _), h => by cases h
  | .arr items, h => wholeItemsB_of_integralItemsB items h
  | .obj members, h => wholeMembersB_of_integralMembersB members h

theorem wholeItemsB_of_integralItemsB : (items : List Json) → integralItemsB items = true →
    wholeItemsB items = true
  | [], _ => rfl
  | j :: rest, h => by
    rw [integralItemsB, Bool.and_eq_true] at h
    rw [wholeItemsB, wholeB_of_integralB j h.1, wholeItemsB_of_integralItemsB rest h.2]
    rfl

theorem wholeMembersB_of_integralMembersB : (members : List (String × Json)) →
    integralMembersB members = true → wholeMembersB members = true
  | [], _ => rfl
  | (k, j) :: rest, h => by
    rw [integralMembersB, Bool.and_eq_true] at h
    rw [wholeMembersB, wholeB_of_integralB j h.1, wholeMembersB_of_integralMembersB rest h.2]
    rfl

end

namespace Token

/-- Rows of tokens with commas between them. -/
def separated : List (List Token) → List Token
  | [] => []
  | [ts] => ts
  | ts :: us :: rest => ts ++ comma :: separated (us :: rest)

mutual

/-- The tokens of a value. -/
def ofJson : Json → List Token
  | .null => [null]
  | .bool b => [bool b]
  | .num n => [num (some n)]
  | .str s => [str (some s)]
  | .arr items => openBracket :: separated (ofItems items) ++ [closeBracket]
  | .obj members => openBrace :: separated (ofMembers members) ++ [closeBrace]

/-- The tokens of the items of an array. -/
def ofItems : List Json → List (List Token)
  | [] => []
  | j :: rest => ofJson j :: ofItems rest

/-- The tokens of the members of an object. -/
def ofMembers : List (String × Json) → List (List Token)
  | [] => []
  | (k, j) :: rest => (str (some k) :: colon :: ofJson j) :: ofMembers rest

end

/-- Nothing follows, or a character that ends any token before it. -/
def Delimited : List Char → Prop
  | [] => True
  | c :: _ => c = ',' ∨ c = ']' ∨ c = '\x7d'

/-- The text is cut into the tokens if a delimiter follows. -/
def Reads (cs : List Char) (ts : List Token) : Prop :=
  ∀ done r, Delimited r →
    run done .between ((cs ++ r).map some) = run (ts.reverse ++ done) .between (r.map some)

theorem run_cons {done : List Token} {mode next : Mode} {c : Char} {ts : List Token} {r : List Char}
    (h : stepChar mode c = some (ts, next)) :
    run done mode ((c :: r).map some) = run (ts.reverse ++ done) next (r.map some) := by
  rw [List.map_cons, run, step, h]

/-- A token whose last character is known only from the next one is finished by a delimiter. -/
theorem run_finish {done : List Token} {mode : Mode} {t : Token} {r : List Char} (hr : Delimited r)
    (last : finish mode = some [t])
    (ends : ∀ c, c = ',' ∨ c = ']' ∨ c = '\x7d' → stepChar mode c = thenStart (some t) c) :
    run done mode (r.map some) = run (t :: done) .between (r.map some) := by
  cases r with
  | nil =>
    rw [List.map_nil, run, run, last]
    simp [finish]
  | cons c r =>
    rw [List.map_cons, run, run, step, step, ends c hr]
    rcases hr with rfl | rfl | rfl <;> rfl

theorem run_word {done : List Token} {w : List Char} {t : Token} {r : List Char} (hr : Delimited r)
    (h : ofWord? w.reverse = some t) :
    run done (.word w) (r.map some) = run (t :: done) .between (r.map some) := by
  refine run_finish hr (by simp [finish, h]) fun c hc => ?_
  rw [stepChar, h]
  rcases hc with rfl | rfl | rfl <;> rfl

theorem reads_null : Reads "null".toList [null] := by
  intro done r hr
  exact run_word hr (w := ['l', 'l', 'u', 'n']) rfl

theorem reads_true : Reads "true".toList [bool true] := by
  intro done r hr
  exact run_word hr (w := ['e', 'u', 'r', 't']) rfl

theorem reads_false : Reads "false".toList [bool false] := by
  intro done r hr
  exact run_word hr (w := ['e', 's', 'l', 'a', 'f']) rfl

/-- The digits are these ten. -/
theorem digit_cases {c : Char} (h : Text.isDigit c = true) : ∃ n < 10, c = Nat.digitChar n := by
  have hb : 48 ≤ c.toNat ∧ c.toNat ≤ 57 := by
    simpa [Text.isDigit, Char.le_def, UInt32.le_iff_toNat_le] using h
  refine ⟨c.toNat - 48, by omega, ?_⟩
  rw [← Char.toNat_inj, Nat.toNat_digitChar_of_lt_ten (by omega)]
  omega

theorem start_digit {c : Char} (h : Text.isDigit c = true) : start c = some ([], .number [c]) := by
  obtain ⟨n, hn, rfl⟩ := digit_cases h
  interval_cases n <;> rfl

/-- The machine stays in a number as long as its characters last. -/
theorem run_numeral {done : List Token} {cs w : List Char} {r : List Char}
    (h : ∀ c ∈ cs, isNumeral c = true) :
    run done (.number w) ((cs ++ r).map some) = run done (.number (cs.reverse ++ w)) (r.map some) := by
  induction cs generalizing w with
  | nil => rfl
  | cons c cs ih =>
    have hc := h c List.mem_cons_self
    have next : stepChar (.number w) c = some ([], .number (c :: w)) := by
      rw [stepChar, if_pos hc]
    rw [List.cons_append, run_cons next, List.reverse_nil, List.nil_append,
      ih fun d hd => h d (List.mem_cons_of_mem _ hd), List.reverse_cons, List.append_assoc]
    rfl

theorem run_number {done : List Token} {w : List Char} {n : Option Number} {r : List Char}
    (hr : Delimited r) (h : Number.read w.reverse = some n) :
    run done (.number w) (r.map some) = run (num n :: done) .between (r.map some) := by
  have whole : ofNumeral? w.reverse = some (num n) := by rw [ofNumeral?, h]; rfl
  refine run_finish hr (by simp [finish, whole]) fun c hc => ?_
  rw [stepChar, whole]
  rcases hc with rfl | rfl | rfl <;> rfl

/-- A numeral is one token. -/
theorem reads_numeral {c : Char} {cs : List Char} {n : Option Number}
    (begins : stepChar .between c = some ([], .number [c])) (digits : ∀ d ∈ cs, isNumeral d = true)
    (h : Number.read (c :: cs) = some n) : Reads (c :: cs) [num n] := by
  intro done r hr
  rw [List.cons_append, run_cons begins, List.reverse_nil, List.nil_append, run_numeral digits]
  refine run_number hr ?_
  rw [List.reverse_append, List.reverse_reverse]
  exact h

theorem isNumeral_of_mem_toDigits {n : Nat} {c : Char} (h : c ∈ Nat.toDigits 10 n) :
    isNumeral c = true := by
  rw [isNumeral, Number.isDigit_of_mem_toDigits h]
  rfl

theorem reads_int {k : Int} (h : Number.fitsB k = true) :
    Reads (Number.int k).render [num (some (.int k))] := by
  have back := Number.read_render_int h
  have digits : ∀ c ∈ Nat.toDigits 10 k.natAbs, isNumeral c = true :=
    fun c hc => isNumeral_of_mem_toDigits hc
  rw [Number.render_int] at back ⊢
  split at back
  · next neg =>
    rw [if_pos neg]
    exact reads_numeral rfl digits back
  · next pos =>
    rw [if_neg pos]
    cases he : Nat.toDigits 10 k.natAbs with
    | nil => exact absurd he Nat.toDigits_ne_nil
    | cons d ds =>
      rw [he] at back digits
      have first : Text.isDigit d = true :=
        Number.isDigit_of_mem_toDigits (n := k.natAbs) (he ▸ List.mem_cons_self)
      exact reads_numeral (start_digit first) (fun c hc => digits c (List.mem_cons_of_mem _ hc)) back

/-- Minus zero is written with a fraction. -/
theorem reads_minusZero : Reads (Number.float (.zero true)).render [num (some (.float (.zero true)))] := by
  have text : (Number.float (.zero true)).render = '-' :: ['0', '.', '0'] := by decide +kernel
  rw [text]
  exact reads_numeral rfl (List.all_eq_true.1 rfl) (by decide +kernel)

theorem reads_whole {n : Number} (h : n.wholeB = true) : Reads n.render [num (some n)] := by
  cases n with
  | int k => exact reads_int h
  | float x =>
    obtain rfl := beq_iff_eq.1 h
    exact reads_minusZero

theorem hexValue?_hexDigit {n : Nat} (h : n < 16) : hexValue? (hexDigit n) = some n := by
  interval_cases n <;> rfl

/-- A character as it is written inside quotation marks is gathered as itself. -/
theorem run_escapeChar (c : Char) (done : List Token) (g : List Char) (r : List Char) :
    run done (.text (some g)) ((escapeChar c ++ r).map some) =
      run done (.text (some (c :: g))) (r.map some) := by
  unfold escapeChar
  split
  · next h => subst h; rfl
  split
  · next h => subst h; rfl
  split
  · next h => subst h; rfl
  split
  · next h => subst h; rfl
  split
  · next h => subst h; rfl
  split
  · next h => subst h; rfl
  split
  · next h => subst h; rfl
  split
  · next h =>
    have high := hexValue?_hexDigit (n := c.toNat / 16) (by omega)
    have low := hexValue?_hexDigit (n := c.toNat % 16) (by omega)
    have unit : c.toNat / 16 * 16 + c.toNat % 16 = c.toNat := by omega
    have plain : afterHex (some g) none c.toNat = .text (some (c :: g)) := by
      have notHigh : ¬ 0xD800 ≤ c.toNat := by omega
      have notLow : ¬ 0xDC00 ≤ c.toNat := by omega
      simp [afterHex, notHigh, notLow, Char.ofNat_toNat]
    have first : stepChar (.hex (some g) none 0 2) (hexDigit (c.toNat / 16)) =
        some ([], .hex (some g) none (c.toNat / 16) 1) := by
      simp [stepChar, high]
    have second : stepChar (.hex (some g) none (c.toNat / 16) 1) (hexDigit (c.toNat % 16)) =
        some ([], .text (some (c :: g))) := by
      simp [stepChar, low, unit, plain]
    show run done (.hex (some g) none 0 2)
      ((hexDigit (c.toNat / 16) :: hexDigit (c.toNat % 16) :: r).map some) = _
    rw [run_cons first, run_cons second]
    rfl
  · next notQuote notSlash _ _ _ _ _ notControl =>
    have kept : stepChar (.text (some g)) c = some ([], .text (some (c :: g))) := by
      simp [stepChar, inText, notQuote, notSlash, notControl]
    rw [List.cons_append, run_cons kept]
    rfl

theorem run_text (cs : List Char) (done : List Token) (g : List Char) (r : List Char) :
    run done (.text (some g)) ((cs.flatMap escapeChar ++ r).map some) =
      run done (.text (some (cs.reverse ++ g))) (r.map some) := by
  induction cs generalizing g with
  | nil => rfl
  | cons c cs ih =>
    rw [List.flatMap_cons, List.append_assoc, run_escapeChar, ih, List.reverse_cons, List.append_assoc]
    rfl

/-- A text in quotation marks is one token, whatever follows. -/
theorem run_quote (s : String) (done : List Token) (r : List Char) :
    run done .between ((quote s ++ r).map some) = run (str (some s) :: done) .between (r.map some) := by
  have closes : stepChar (.text (some (s.toList.reverse ++ []))) '"' = some ([str (some s)], .between) := by
    simp [stepChar, inText, ofGathered]
  unfold quote
  rw [List.cons_append, List.cons_append, List.append_assoc,
    run_cons (show stepChar .between '"' = some ([], .text (some [])) from rfl), run_text,
    List.singleton_append, run_cons closes]
  rfl

theorem reads_quote (s : String) : Reads (quote s) [str (some s)] :=
  fun done r _ => run_quote s done r

/-- A character that is a token by itself. -/
theorem run_sign {c : Char} {t : Token} (h : stepChar .between c = some ([t], .between))
    (done : List Token) (r : List Char) :
    run done .between ((c :: r).map some) = run (t :: done) .between (r.map some) :=
  run_cons h

/-- Texts with commas between them are cut into their tokens with commas between them. -/
theorem reads_commas {xs : List (List Char)} {ts : List (List Token)} (h : List.Forall₂ Reads xs ts) :
    Reads (commas xs) (separated ts) := by
  induction h with
  | nil => exact fun done r _ => rfl
  | @cons x t xs ts first rest ih =>
    cases rest with
    | nil => exact first
    | @cons y u ys us second rest =>
      intro done r hr
      have delimited : Delimited (',' :: (commas (y :: ys) ++ r)) := Or.inl rfl
      rw [commas, separated, List.append_assoc, List.cons_append, first _ _ delimited,
        run_sign (t := comma) rfl, ih _ _ hr]
      simp

theorem reads_enclosed {opening closing : Char} {begins ends : Token} {cs : List Char}
    {ts : List Token} (ho : stepChar .between opening = some ([begins], .between))
    (hc : stepChar .between closing = some ([ends], .between)) (hd : Delimited [closing])
    (h : Reads cs ts) : Reads (opening :: cs ++ [closing]) (begins :: ts ++ [ends]) := by
  intro done r _
  rw [List.cons_append, List.cons_append, List.append_assoc, List.singleton_append, run_sign ho,
    h _ (closing :: r) hd, run_sign hc]
  simp

mutual

/-- The compact text of a value is cut into the tokens of the value. -/
theorem reads_render : (j : Json) → j.wholeB = true → Reads j.renderChars (ofJson j)
  | .null, _ => reads_null
  | .bool true, _ => reads_true
  | .bool false, _ => reads_false
  | .num _, h => reads_whole h
  | .str s, _ => reads_quote s
  | .arr items, h => reads_enclosed rfl rfl (Or.inr (Or.inl rfl)) (reads_commas (reads_items items h))
  | .obj members, h =>
    reads_enclosed rfl rfl (Or.inr (Or.inr rfl)) (reads_commas (reads_members members h))

theorem reads_items : (items : List Json) → wholeItemsB items = true →
    List.Forall₂ Reads (renderItems items) (ofItems items)
  | [], _ => .nil
  | j :: rest, h => by
    rw [wholeItemsB, Bool.and_eq_true] at h
    exact .cons (reads_render j h.1) (reads_items rest h.2)

theorem reads_members : (members : List (String × Json)) → wholeMembersB members = true →
    List.Forall₂ Reads (renderMembers members) (ofMembers members)
  | [], _ => .nil
  | (k, j) :: rest, h => by
    rw [wholeMembersB, Bool.and_eq_true] at h
    refine .cons ?_ (reads_members rest h.2)
    intro done r hr
    rw [List.append_assoc, run_quote, List.cons_append, run_sign (t := colon) rfl,
      reads_render j h.1 _ _ hr]
    simp

end

/-- Scanning the compact text of a value gives the tokens of the value. -/
theorem scan_render {j : Json} (h : j.wholeB = true) :
    scan (j.renderChars.map some) = some (ofJson j) := by
  have all := reads_render j h [] [] trivial
  rw [List.append_nil] at all
  unfold scan
  rw [all]
  simp [run, finish]

end Token

end Json

end AppAdmission
