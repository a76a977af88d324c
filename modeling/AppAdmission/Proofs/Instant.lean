import Mathlib.Algebra.Group.Nat.Defs
import AppAdmission.Instant
import AppAdmission.Proofs.Json.Numeral

/-!
# Instants that were written

The one form in which an instant is written is among the forms that are read, and it is read as the
same instant. What is read at all is a date that exists with a time of day, so every instant that was read
comes back, whatever the form it was given in.
-/

namespace AppAdmission.Instant

open Text

/-- There is such a date. -/
structure OnCalendar (year : Int) (month day : Nat) : Prop where
  inYear : 1 ≤ month ∧ month ≤ 12
  inMonth : 1 ≤ day ∧ day ≤ daysIn year month

/-- The date exists, and the time is one of the day. Only the last second of a minute may be long. -/
structure Valid (t : Instant) : Prop where
  year : yearInRangeB t.year = true
  date : OnCalendar t.year t.month t.day
  hour : t.hour ≤ 23
  minute : t.minute ≤ 59
  second : t.second ≤ 59
  nano : t.nano < nanosPerSecond ∨ t.second = 59 ∧ t.nano < 2 * nanosPerSecond

/-! ## What is read is valid -/

theorem daysIn_bounds (year : Int) (month : Nat) : 28 ≤ daysIn year month ∧ daysIn year month ≤ 31 := by
  unfold daysIn
  split
  · split <;> decide
  · split <;> decide

theorem onCalendar_dayAfter {year : Int} {month day : Nat} (h : OnCalendar year month day) :
    OnCalendar (dayAfter year month day).1 (dayAfter year month day).2.1
      (dayAfter year month day).2.2 := by
  unfold dayAfter
  split
  · next early => exact ⟨h.inYear, Nat.le_add_left _ _, early⟩
  · split
    · next early =>
      have long := daysIn_bounds year (month + 1)
      exact ⟨⟨Nat.le_add_left _ _, early⟩, Nat.le_refl 1, by dsimp only; omega⟩
    · have long := daysIn_bounds (year + 1) 1
      exact ⟨⟨by dsimp only; omega, by dsimp only; omega⟩, Nat.le_refl 1, by dsimp only; omega⟩

theorem onCalendar_dayBefore {year : Int} {month day : Nat} (h : OnCalendar year month day) :
    OnCalendar (dayBefore year month day).1 (dayBefore year month day).2.1
      (dayBefore year month day).2.2 := by
  obtain ⟨⟨first, last⟩, low, high⟩ := h
  unfold dayBefore
  split
  · exact ⟨⟨first, last⟩, by dsimp only; omega, by dsimp only; omega⟩
  · split
    · have long := daysIn_bounds year (month - 1)
      exact ⟨⟨by dsimp only; omega, by dsimp only; omega⟩, by dsimp only; omega, Nat.le_refl _⟩
    · exact ⟨⟨by dsimp only; omega, by dsimp only; omega⟩, by dsimp only; omega, Nat.le_refl 31⟩

/-- An offset moves a local date by one day at most, and the date stays one. -/
theorem valid_of_ofLocal? {year offset : Int} {month day hour minute second nano : Nat} {t : Instant}
    (small : nano < nanosPerSecond)
    (h : ofLocal? year month day hour minute second nano offset = some t) : t.Valid := by
  unfold ofLocal? at h
  split at h
  · next given =>
    simp only [Bool.and_eq_true, decide_eq_true_eq] at given
    obtain ⟨⟨⟨⟨⟨⟨⟨⟨_, first⟩, last⟩, low⟩, high⟩, _⟩, _⟩, _⟩, _⟩ := given
    have today : OnCalendar year month day := ⟨⟨first, last⟩, low, high⟩
    simp only at h
    generalize total_eq : (60 * (hour : Int) + minute - offset) = total at h
    generalize date_eq : (if total < 0 then dayBefore year month day
      else if 24 * 60 ≤ total then dayAfter year month day else (year, month, day)) = date at h
    generalize tick_eq : (if second = 60 then (59, nano + nanosPerSecond) else (second, nano)) =
      tick at h
    have date_ok : OnCalendar date.1 date.2.1 date.2.2 := by
      rw [← date_eq]
      split
      · exact onCalendar_dayBefore today
      · split
        · exact onCalendar_dayAfter today
        · exact today
    have tick_ok : tick.1 ≤ 59 ∧ (tick.2 < nanosPerSecond ∨ tick.1 = 59 ∧ tick.2 < 2 * nanosPerSecond) := by
      rw [← tick_eq]
      split
      · exact ⟨Nat.le_refl 59, Or.inr ⟨rfl, by dsimp only; omega⟩⟩
      · exact ⟨by dsimp only; omega, Or.inl small⟩
    split at h
    · next inRange =>
      cases h
      exact ⟨inRange, date_ok, by dsimp only; omega, by dsimp only; omega, tick_ok.1, tick_ok.2⟩
    · cases h
  · cases h

theorem digitValue_le {c : Char} (h : isDigit c = true) : digitValue c ≤ 9 := by
  unfold isDigit at h
  simp only [Bool.and_eq_true, decide_eq_true_eq, Char.le_def, UInt32.le_iff_toNat_le] at h
  obtain ⟨-, high⟩ := h
  have nine : c.toNat ≤ 57 := high
  show c.toNat - 48 ≤ 9
  omega

theorem decimalValue_lt {ds : List Char} (digits : ∀ c ∈ ds, isDigit c = true) :
    decimalValue ds < 10 ^ ds.length := by
  have all : ∀ n k, n < 10 ^ k → ds.foldl (fun n c => 10 * n + digitValue c) n < 10 ^ (k + ds.length) := by
    induction ds with
    | nil => exact fun n k h => h
    | cons c rest ih =>
      intro n k h
      have own := digitValue_le (digits c List.mem_cons_self)
      have shift : k + (c :: rest).length = (k + 1) + rest.length := by
        rw [List.length_cons]
        omega
      rw [List.foldl_cons, shift]
      refine ih (fun d there => digits d (List.mem_cons_of_mem _ there)) _ _ ?_
      rw [Nat.pow_succ]
      omega
  have whole := all 0 0 (by decide)
  rw [Nat.zero_add] at whole
  exact whole

/-- A fraction is less than a second. -/
theorem lt_of_fraction? {cs rest : List Char} {nano : Nat} (h : fraction? cs = some (nano, rest)) :
    nano < nanosPerSecond := by
  unfold fraction? at h
  split at h
  · next cs =>
    obtain ⟨⟨ds, left⟩, read, same⟩ := Option.bind_eq_some_iff.1 h
    cases same
    unfold digitsUpTo? at read
    simp only at read
    split at read
    · cases read
    · cases read
      have digits : ∀ c ∈ (cs.take 9).takeWhile isDigit, isDigit c = true :=
        fun c there => List.mem_takeWhile_imp there
      have short : ((cs.take 9).takeWhile isDigit).length ≤ 9 :=
        (List.takeWhile_prefix _).length_le.trans (List.length_take_le _ _)
      have below := decimalValue_lt digits
      generalize (cs.take 9).takeWhile isDigit = ds at digits short below ⊢
      have room : 10 ^ ds.length * 10 ^ (9 - ds.length) = nanosPerSecond := by
        rw [← Nat.pow_add, Nat.add_sub_cancel' short]
        rfl
      rw [← room]
      exact Nat.mul_lt_mul_of_pos_right below (Nat.pow_pos (by decide))
  · cases h
    decide

/-- A text in the pieces in which it is read: a date, a mark, a time of day and an offset, which make an
instant. -/
inductive Pieces (cs : List Char) (t : Instant) : Prop where
  | intro {year offset : Int} {month day hour minute second nano : Nat} {mark : Char}
      {afterYear atMonth afterMonth atDay atHour afterHour atMinute afterMinute atSecond : List Char}
      {afterSecond atOffset rest : List Char}
      (readYear : year? cs = some (year, afterYear)) (dash : separator? '-' afterYear = some atMonth)
      (readMonth : pair? atMonth = some (month, afterMonth)) (dash' : separator? '-' afterMonth = some atDay)
      (readDay : pair? atDay = some (day, mark :: atHour)) (marked : mark = 't' ∨ mark = 'T' ∨ mark = ' ')
      (readHour : pair? atHour = some (hour, afterHour)) (colon : separator? ':' afterHour = some atMinute)
      (readMinute : pair? atMinute = some (minute, afterMinute))
      (colon' : separator? ':' afterMinute = some atSecond)
      (readSecond : pair? atSecond = some (second, afterSecond))
      (fraction : fraction? afterSecond = some (nano, atOffset))
      (zone : offset? (trimLeft atOffset) = some (offset, rest)) (finished : trimLeft rest = [])
      (made : ofLocal? year month day hour minute second nano offset = some t)

/-- An instant is read exactly from such pieces. -/
theorem parse?_eq_some_iff {cs : List Char} {t : Instant} : parse? cs = some t ↔ Pieces cs t := by
  constructor
  · intro read
    obtain ⟨⟨_, _⟩, year, read⟩ := Option.bind_eq_some_iff.1 read
    obtain ⟨_, dash, read⟩ := Option.bind_eq_some_iff.1 read
    obtain ⟨⟨_, _⟩, month, read⟩ := Option.bind_eq_some_iff.1 read
    obtain ⟨_, dash', read⟩ := Option.bind_eq_some_iff.1 read
    obtain ⟨⟨_, afterDay⟩, day, read⟩ := Option.bind_eq_some_iff.1 read
    cases afterDay with
    | nil => cases read
    | cons mark atHour =>
      dsimp only at read
      split at read
      · next marked =>
        obtain ⟨_, same, read⟩ := Option.bind_eq_some_iff.1 read
        cases same
        obtain ⟨⟨_, _⟩, hour, read⟩ := Option.bind_eq_some_iff.1 read
        obtain ⟨_, colon, read⟩ := Option.bind_eq_some_iff.1 read
        obtain ⟨⟨_, _⟩, minute, read⟩ := Option.bind_eq_some_iff.1 read
        obtain ⟨_, colon', read⟩ := Option.bind_eq_some_iff.1 read
        obtain ⟨⟨_, _⟩, second, read⟩ := Option.bind_eq_some_iff.1 read
        obtain ⟨⟨_, _⟩, fraction, read⟩ := Option.bind_eq_some_iff.1 read
        obtain ⟨⟨_, _⟩, zone, read⟩ := Option.bind_eq_some_iff.1 read
        obtain ⟨finished, made⟩ := Option.ite_none_right_eq_some.1 read
        exact .intro year dash month dash' day marked hour colon minute colon' second fraction zone
          (List.isEmpty_iff.1 finished) made
      · cases read
  · rintro ⟨year, dash, month, dash', day, marked, hour, colon, minute, colon', second, fraction, zone,
      finished, made⟩
    have next {α β : Type} {x : Option α} {a : α} {f : α → Option β} {r : Option β} (here : x = some a)
        (later : f a = r) : x.bind f = r := by
      rw [here, Option.bind_some, later]
    refine next year <| next dash <| next month <| next dash' <| next day ?_
    dsimp only
    rw [if_pos marked]
    refine next rfl <| next hour <| next colon <| next minute <| next colon' <| next second <|
      next fraction <| next zone ?_
    dsimp only
    rw [finished]
    exact made

/-- What is read is valid. -/
theorem valid_of_parse? {cs : List Char} {t : Instant} (h : parse? cs = some t) : t.Valid := by
  obtain ⟨_, _, _, _, _, _, _, _, _, _, _, fraction, _, _, made⟩ := parse?_eq_some_iff.1 h
  exact valid_of_ofLocal? (lt_of_fraction? fraction) made

/-! ## What is written is read -/

theorem isBlank_of_isDigit {c : Char} (h : isDigit c = true) : isBlank c = false := by
  unfold isDigit at h
  simp only [Bool.and_eq_true, decide_eq_true_eq, Char.le_def, UInt32.le_iff_toNat_le] at h
  have low : 48 ≤ c.toNat := h.1
  have high : c.toNat ≤ 57 := h.2
  unfold isBlank
  simp only [Bool.or_eq_false_iff, Bool.and_eq_false_iff, decide_eq_false_iff_not, beq_eq_false_iff_ne]
  omega

theorem isDigit_of_mem_padded {width n : Nat} {c : Char} (h : c ∈ padded width n) :
    isDigit c = true := by
  rcases List.mem_append.1 h with zeros | digits
  · rw [List.eq_of_mem_replicate zeros]
    rfl
  · exact Number.isDigit_of_mem_toDigits digits

theorem decimalValue_padded (width n : Nat) : decimalValue (padded width n) = n := by
  have zeros (k : Nat) : (List.replicate k '0').foldl (fun n c => 10 * n + digitValue c) 0 = 0 := by
    induction k with
    | zero => rfl
    | succ k ih => rw [List.replicate_succ, List.foldl_cons]; exact ih
  have digits := Number.decimalValue_toDigits n
  unfold decimalValue at digits ⊢
  unfold padded
  rw [List.foldl_append, zeros, digits]

theorem length_padded {width n : Nat} (digit : 0 < width) (fits : n < 10 ^ width) :
    (padded width n).length = width := by
  have short : (Nat.toDigits 10 n).length ≤ width := (Nat.length_toDigits_le_iff (by decide) digit).2 fits
  unfold padded
  rw [List.length_append, List.length_replicate]
  omega

theorem padded_ne_nil (width n : Nat) : padded width n ≠ [] := by
  unfold padded
  simp [Nat.toDigits_ne_nil]

/-- A row of digits is read to its end, if no more digits may be read or none follows. -/
theorem digitsUpTo?_append {most : Nat} {ds rest : List Char} (digits : ∀ c ∈ ds, isDigit c = true)
    (there : ds ≠ []) (room : ds.length ≤ most)
    (ends : ds.length = most ∨ ∀ c ∈ rest.head?, isDigit c = false) :
    digitsUpTo? most (ds ++ rest) = some (ds, rest) := by
  have ended : (rest.take (most - ds.length)).takeWhile isDigit = [] := by
    rcases ends with full | solid
    · rw [full, Nat.sub_self]
      rfl
    · cases rest with
      | nil => simp
      | cons c rest =>
        cases most - ds.length with
        | zero => rfl
        | succ k => simp [solid c rfl]
  have row : ((ds ++ rest).take most).takeWhile isDigit = ds := by
    rw [List.take_append, List.take_of_length_le room, List.takeWhile_append_of_pos digits, ended,
      List.append_nil]
  unfold digitsUpTo?
  simp only [row, List.drop_left]
  rw [if_neg (by simpa using there)]

theorem trimLeft_digits {ds rest : List Char} (digits : ∀ c ∈ ds, isDigit c = true) (there : ds ≠ []) :
    trimLeft (ds ++ rest) = ds ++ rest := by
  cases ds with
  | nil => exact absurd rfl there
  | cons d ds => exact trimLeft_solid (isBlank_of_isDigit (digits d List.mem_cons_self))

theorem pair?_padded {n : Nat} (fits : n < 100) (rest : List Char) :
    pair? (padded 2 n ++ rest) = some (n, rest) := by
  have digits : ∀ c ∈ padded 2 n, isDigit c = true := fun c there => isDigit_of_mem_padded there
  have two : (padded 2 n).length = 2 := length_padded (by decide) fits
  unfold pair?
  rw [trimLeft_digits digits (padded_ne_nil 2 n),
    digitsUpTo?_append digits (padded_ne_nil 2 n) two.le (Or.inl two)]
  show some (decimalValue (padded 2 n), rest) = _
  rw [decimalValue_padded]

/-- Digits up to a character that is none, however many may be read. -/
theorem digitsUpTo?_padded {width n : Nat} {c : Char} {rest : List Char} {most : Nat}
    (room : (padded width n).length ≤ most) (ends : isDigit c = false) :
    digitsUpTo? most (padded width n ++ c :: rest) = some (padded width n, c :: rest) := by
  refine digitsUpTo?_append (fun d there => isDigit_of_mem_padded there) (padded_ne_nil _ _) room
    (Or.inr ?_)
  intro d there
  cases there
  exact ends

/-- Four digits are a year. -/
theorem year?_padded {n : Nat} (fits : n < 10000) (rest : List Char) :
    year? (padded 4 n ++ '-' :: rest) = some ((n : Int), '-' :: rest) := by
  have four : (padded 4 n).length ≤ 4 := (length_padded (by decide) fits).le
  have read : digitsUpTo? 4 (padded 4 n ++ '-' :: rest) = _ := digitsUpTo?_padded four rfl
  have digits : ∀ c ∈ padded 4 n, isDigit c = true := fun c there => isDigit_of_mem_padded there
  have value := decimalValue_padded 4 n
  unfold year?
  rw [trimLeft_digits digits (padded_ne_nil _ _)]
  cases row : padded 4 n with
  | nil => exact absurd row (padded_ne_nil _ _)
  | cons d ds =>
    rw [row] at read digits value
    -- the first digit is no sign
    have minus : d ≠ '-' := by
      rintro rfl
      exact absurd (digits '-' List.mem_cons_self) (by decide)
    have plus : d ≠ '+' := by
      rintro rfl
      exact absurd (digits '+' List.mem_cons_self) (by decide)
    rw [List.cons_append] at read
    simp [read, minus, plus, value]

/-- Digits after a sign are a year, however many they are. -/
theorem year?_signed {sign : Char} (marks : sign = '-' ∨ sign = '+') (n : Nat) (rest : List Char) :
    year? (sign :: padded 4 n ++ '-' :: rest) =
      some (if sign = '-' then -(n : Int) else n, '-' :: rest) := by
  have read : digitsUpTo? (padded 4 n ++ '-' :: rest).length (padded 4 n ++ '-' :: rest) =
      some (padded 4 n, '-' :: rest) := by
    refine digitsUpTo?_padded ?_ rfl
    rw [List.length_append]
    exact Nat.le_add_right _ _
  have solid : trimLeft (sign :: (padded 4 n ++ '-' :: rest)) = sign :: (padded 4 n ++ '-' :: rest) :=
    trimLeft_solid (by rcases marks with rfl | rfl <;> decide)
  unfold year?
  rw [List.cons_append, solid]
  rcases marks with rfl | rfl <;>
    simp only [read, Option.bind_eq_bind, Option.bind_some, decimalValue_padded] <;> rfl

theorem year?_renderYear (year : Int) (rest : List Char) :
    year? (renderYear year ++ '-' :: rest) = some (year, '-' :: rest) := by
  unfold renderYear
  split
  · next plain => rw [year?_padded (by omega), Int.toNat_of_nonneg plain.1]
  · split
    · next negative =>
      rw [year?_signed (.inl rfl), if_pos rfl]
      exact congrArg some (Prod.ext (by dsimp only; omega) rfl)
    · next positive =>
      rw [year?_signed (.inr rfl), if_neg (by decide)]
      exact congrArg some (Prod.ext (by dsimp only; omega) rfl)

/-- A fraction in some number of digits. -/
theorem fraction?_padded {width n : Nat} (digit : 0 < width) (most : width ≤ 9) (fits : n < 10 ^ width) :
    fraction? ('.' :: padded width n ++ ['Z']) = some (n * 10 ^ (9 - width), ['Z']) := by
  have length : (padded width n).length = width := length_padded digit fits
  have read : digitsUpTo? 9 (padded width n ++ 'Z' :: []) = _ :=
    digitsUpTo?_padded (length.trans_le most) rfl
  unfold fraction?
  simp only [List.cons_append, read, Option.bind_eq_bind, Option.bind_some, length, decimalValue_padded]
  rfl

theorem fraction?_renderFraction {nano : Nat} (small : nano < nanosPerSecond) :
    fraction? (renderFraction nano ++ ['Z']) = some (nano, ['Z']) := by
  unfold nanosPerSecond at small
  unfold renderFraction
  split
  · next none => rw [none]; rfl
  · split
    · rw [fraction?_padded (by decide) (by decide) (by omega)]
      exact congrArg some (Prod.ext (by show _ * 1000000 = nano; omega) rfl)
    · split
      · rw [fraction?_padded (by decide) (by decide) (by omega)]
        exact congrArg some (Prod.ext (by show _ * 1000 = nano; omega) rfl)
      · rw [fraction?_padded (by decide) (by decide) small]
        exact congrArg some (Prod.ext (Nat.mul_one nano) rfl)

/-- In UTC the local time is the time. -/
theorem ofLocal?_of_valid {t : Instant} (h : t.Valid) :
    ofLocal? t.year t.month t.day t.hour t.minute (t.second + t.nano / nanosPerSecond)
      (t.nano % nanosPerSecond) 0 = some t := by
  obtain ⟨year, month, day, hour, minute, second, nano⟩ := t
  obtain ⟨inRange, ⟨⟨first, last⟩, low, high⟩, hours, minutes, seconds, nanos⟩ := h
  dsimp only at *
  have tick : (if second + nano / nanosPerSecond = 60 then
        (59, nano % nanosPerSecond + nanosPerSecond)
      else (second + nano / nanosPerSecond, nano % nanosPerSecond)) = (second, nano) := by
    unfold nanosPerSecond at *
    split
    · exact Prod.ext (by dsimp only; omega) (by dsimp only; omega)
    · exact Prod.ext (by dsimp only; omega) (by dsimp only; omega)
  have clock : second + nano / nanosPerSecond ≤ 60 := by
    unfold nanosPerSecond at *
    omega
  have notBefore : ¬60 * (hour : Int) + minute - 0 < 0 := by omega
  have notAfter : ¬24 * 60 ≤ 60 * (hour : Int) + minute - 0 := by omega
  have inHour : ((60 * (hour : Int) + minute - 0) % (24 * 60)).toNat / 60 = hour := by omega
  have inMinute : ((60 * (hour : Int) + minute - 0) % (24 * 60)).toNat % 60 = minute := by omega
  unfold ofLocal?
  simp only [inRange, first, last, low, high, hours, minutes, clock, decide_true, Bool.and_self,
    Int.natAbs_zero, if_true, tick, notBefore, notAfter, if_false, inHour, inMinute]
  rfl

/-- **Instants come back.** -/
theorem parse?_render {t : Instant} (h : t.Valid) : parse? t.render.toList = some t := by
  have small : t.nano % nanosPerSecond < nanosPerSecond := Nat.mod_lt _ (by decide)
  have date : t.month < 100 ∧ t.day < 100 := by
    have long := daysIn_bounds t.year t.month
    have months := h.date.inYear
    have days := h.date.inMonth
    omega
  have hour : t.hour < 100 := Nat.lt_of_le_of_lt h.hour (by decide)
  have minute : t.minute < 100 := Nat.lt_of_le_of_lt h.minute (by decide)
  have second : t.second + t.nano / nanosPerSecond < 100 := by
    have seconds := h.second
    have nanos := h.nano
    unfold nanosPerSecond at *
    omega
  have separated (mark : Char) (cs : List Char) (solid : isBlank mark = false) :
      separator? mark (mark :: cs) = some cs := by
    unfold separator?
    rw [trimLeft_solid solid]
    simp
  rw [parse?_eq_some_iff]
  unfold render renderSeconds
  simp only [String.toList_ofList, List.append_assoc, List.cons_append]
  exact .intro (year?_renderYear _ _) (separated '-' _ rfl) (pair?_padded date.1 _) (separated '-' _ rfl)
    (pair?_padded date.2 _) (.inr (.inl rfl)) (pair?_padded hour _) (separated ':' _ rfl)
    (pair?_padded minute _) (separated ':' _ rfl) (pair?_padded second _) (fraction?_renderFraction small)
    rfl rfl (ofLocal?_of_valid h)

end AppAdmission.Instant
